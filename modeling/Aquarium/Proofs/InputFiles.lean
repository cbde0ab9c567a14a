import Aquarium.Proofs.Contexts
import Aquarium.Proofs.Echo
import Aquarium.Proofs.Reports
import Mathlib.Data.List.Forall2

/-!
# The input of a command

A command reads the files that its flags name, and then standard input. `Flag.values` says what a
command line gives a flag, and `inputs_readFlags` that the request holds the files in that order.
The readers are pushed from the last file to the first, over the one of standard input, so the pile
stands in the order of the command line (`Input.Holds`), and its pending runes are those of all
texts in a row. `Machine.Reads` follows the read instructions of a run through the letters of such a
stream.
-/

namespace Aquarium

/-! ## Flags in order -/

namespace Flag

/-- The flags at the front of a command line, in order, each with the value that it is given. -/
def assignments : List Bytes → List (Flag × Bytes)
  | [] => []
  | argument :: rest =>
    match Argument.of argument with
    | .flag name value =>
      match ofName? name with
      | some flag =>
        if flag.isSwitch then (flag, value.getD positive) :: assignments rest
        else
          match value, rest with
          | some value, rest => (flag, value) :: assignments rest
          | none, value :: others => (flag, value) :: assignments others
          | none, [] => []
      | none => []
    | _ => []

/-- The values that a command line gives a flag, in order. -/
def values (flag : Flag) (arguments : List Bytes) : List Bytes :=
  (assignments arguments).filterMap fun given => if given.1 = flag then some given.2 else none

theorem values_of_cons {arguments later : List Bytes} {given : Flag} {value : Bytes}
    (first : assignments arguments = (given, value) :: assignments later) (flag : Flag) :
    flag.values arguments = (if given = flag then [value] else []) ++ flag.values later := by
  unfold values
  rw [first, List.filterMap_cons]
  by_cases same : given = flag <;> simp [same]

/-- Only the flag of input files adds to them. -/
theorem inputs_assign {flag : Flag} {value : Bytes} {request changed : Request}
    (assigned : flag.assign value request = .ok changed) :
    changed.inputs = request.inputs ++ if flag = .input then [value] else [] := by
  cases flag with
  | input =>
    cases assigned
    rfl
  | config | log | string =>
    cases assigned
    exact (List.append_nil _).symm
  | numbers =>
    simp only [assign, Request.pushSeries_eq] at assigned
    cases read : Series.read value with
    | ok series =>
      simp only [read, Except.map] at assigned
      cases assigned
      exact (List.append_nil _).symm
    | error refusal =>
      simp only [read, Except.map] at assigned
      cases assigned
  | seed | maxSteps | verbose =>
    simp only [assign, integer] at assigned
    split at assigned
    · cases assigned
      exact (List.append_nil _).symm
    · cases assigned
  | debug | dump | list | raw =>
    simp only [assign] at assigned
    split at assigned
    · cases assigned
      exact (List.append_nil _).symm
    · cases assigned

theorem inputs_mark (flag : Flag) (request : Request) :
    (flag.mark request).inputs = request.inputs := by
  unfold mark
  split <;> rfl

end Flag

namespace Request

/-- The files of the flags after the first one follow the file of that one, if it names a file. -/
theorem inputs_of_assigned {request changed : Request} {arguments later : List Bytes} {flag : Flag}
    {value : Bytes} {inputs : List Bytes} (assigned : flag.assign value request = .ok changed)
    (first : Flag.assignments arguments = (flag, value) :: Flag.assignments later)
    (rest : inputs = (flag.mark changed).inputs ++ Flag.values .input later) :
    inputs = request.inputs ++ Flag.values .input arguments := by
  rw [rest, Flag.inputs_mark, Flag.inputs_assign assigned, Flag.values_of_cons first,
    List.append_assoc]

/-- Flags that can be read leave the input files in the order of the command line. -/
theorem inputs_readFlags {request : Request} {arguments : List Bytes}
    (readable : (request.readFlags Flag.all arguments).problem = none) :
    (request.readFlags Flag.all arguments).request.inputs =
      request.inputs ++ Flag.values .input arguments := by
  fun_induction readFlags Flag.all request arguments with
  | case1 request => exact (List.append_nil _).symm
  | case2 request argument rest plain => simp [Flag.values, Flag.assignments, plain]
  | case3 request argument rest ends => simp [Flag.values, Flag.assignments, ends]
  | case6 request argument rest name value argued flag found switch changed assigned hypothesis =>
    refine inputs_of_assigned assigned ?_ (hypothesis readable)
    simp [Flag.assignments, argued, Flag.ofName?, found, switch]
  | case8 request argument name flag found valued value rest changed assigned argued hypothesis =>
    refine inputs_of_assigned assigned ?_ (hypothesis readable)
    simp [Flag.assignments, argued, Flag.ofName?, found, valued]
  | case10 request argument name flag found valued value others changed assigned argued
      hypothesis =>
    refine inputs_of_assigned assigned ?_ (hypothesis readable)
    simp [Flag.assignments, argued, Flag.ofName?, found, valued]
  | case4 | case5 | case7 | case9 | case11 | case12 => cases readable

end Request

/-! ## Readers in order -/

/-- The readers of texts of files, in order, and last the one of standard input, which alone has the
name 0. -/
def Input.Holds (input : Input) (texts : List Bytes) (stdin : Bytes) : Prop :=
  ∃ files, input.readers = files ++ [⟨0, false, .ofText stdin .exhausted⟩] ∧
    files.map Reader.feed = texts.map (Feed.ofText · .exhausted) ∧
    ∀ reader ∈ files, reader.name ≠ 0

namespace Input.Holds

variable {input : Input} {texts : List Bytes} {stdin : Bytes}

/-- What is pending are the characters of one text after another. Each text is decoded by itself. -/
theorem pending_eq (holds : input.Holds texts stdin) :
    input.pending = (texts ++ [stdin]).flatMap Utf8.characters := by
  obtain ⟨files, readers, feeds, _⟩ := holds
  have runes : ∀ text, (Feed.ofText text .exhausted).runes = Utf8.characters text :=
    fun text => Feed.runes_glyphs _ _
  calc input.pending
      = (input.readers.map Reader.feed).flatMap Feed.runes := (List.flatMap_map ..).symm
    _ = ((texts ++ [stdin]).map (Feed.ofText · .exhausted)).flatMap Feed.runes := by
      rw [readers, List.map_append, feeds, List.map_append]
      rfl
    _ = (texts ++ [stdin]).flatMap Utf8.characters := by simp only [List.flatMap_map, runes]

theorem exhausts (holds : input.Holds texts stdin) : input.Exhausts := by
  obtain ⟨files, readers, feeds, _⟩ := holds
  intro reader member
  rw [readers, List.mem_append, List.mem_singleton] at member
  rcases member with file | rfl
  · have held : reader.feed ∈ texts.map (Feed.ofText · .exhausted) :=
      feeds ▸ List.mem_map_of_mem file
    obtain ⟨text, _, same⟩ := List.mem_map.mp held
    rw [← same]
    rfl
  · rfl

end Input.Holds

/-- There is a file with this text at a path. -/
def FileTree.HasFile (tree : FileTree) (path : Bytes) (text : Bytes) : Prop :=
  tree.lookup path = .ok (.file text)

/-- Files are there to be opened. -/
theorem FileTree.opens_of_files {tree : FileTree} {paths texts : List Bytes}
    (files : List.Forall₂ tree.HasFile paths texts) : ∀ path ∈ paths, tree.Opens path := by
  induction files with
  | nil => exact List.forall_mem_nil _
  | cons found _ hypothesis => exact List.forall_mem_cons.mpr ⟨⟨_, found⟩, hypothesis⟩

/-- The texts of input files with what is appended to each of them until it is read. -/
def Invocation.grown (invocation : Invocation) (texts : List Bytes) : List Bytes :=
  texts.mapIdx fun place text => text ++ invocation.appended place

theorem Invocation.grown_concat (invocation : Invocation) (texts : List Bytes) (text : Bytes) :
    invocation.grown (texts ++ [text]) =
      invocation.grown texts ++ [text ++ invocation.appended texts.length] :=
  List.mapIdx_concat

/-- Files to which nothing is appended keep their texts. -/
theorem Invocation.grown_eq {invocation : Invocation}
    (still : ∀ place, invocation.appended place = []) (texts : List Bytes) :
    invocation.grown texts = texts := by
  simp [grown, still, List.mapIdx_eq_iff]

namespace Session

/-- Files have readers of their texts, with what is appended to them. -/
theorem exists_readersOf_files {invocation : Invocation} {tree : FileTree}
    {paths texts : List Bytes} (files : List.Forall₂ tree.HasFile paths texts) :
    ∃ readers, readersOf tree invocation.appended paths = .ok readers ∧
      readers.reverse.map Reader.feed =
        (invocation.grown texts.reverse).map (Feed.ofText · .exhausted) ∧
      ∀ reader ∈ readers, reader.name ≠ 0 := by
  induction files with
  | nil => exact ⟨[], rfl, rfl, List.forall_mem_nil _⟩
  | @cons path text paths texts found files hypothesis =>
    obtain ⟨readers, read, feeds, names⟩ := hypothesis
    have first : readerOf tree invocation.appended paths.length path =
        .ok ⟨paths.length + 1, true,
          .ofText (text ++ invocation.appended paths.length) .exhausted⟩ := by
      rw [readerOf, show tree.lookup path = .ok (.file text) from found]
    refine ⟨_, by rw [readersOf, first, read], ?_,
      List.forall_mem_cons.mpr ⟨Nat.succ_ne_zero _, names⟩⟩
    rw [List.reverse_cons, List.map_append, feeds, List.reverse_cons, Invocation.grown_concat,
      List.map_append, List.length_reverse, files.length_eq]
    rfl

/-- Standard input may be supplied later: its reader is the only one that is given a text. -/
theorem holds_supply {machine : Machine} {texts : List Bytes} {earlier : Bytes}
    (holds : machine.input.Holds texts earlier) (stdin : Bytes) :
    (supply stdin machine).input.Holds texts stdin := by
  obtain ⟨files, readers, feeds, names⟩ := holds
  have supplied : (supply stdin machine).input.readers =
      machine.input.readers.map (supplyReader stdin) := by
    simp only [supply]
    cases machine.input <;> rfl
  have kept : files.map (supplyReader stdin) = files :=
    (List.map_congr_left fun reader member => if_neg (names reader member)).trans (List.map_id _)
  refine ⟨files, ?_, feeds, names⟩
  rw [supplied, readers, List.map_append, kept]
  rfl

end Session

/-! ## Reading along a run -/

namespace Stream

/-- What the read instruction at a place, counted from 0, makes of the letters of a stream: the code
of the letter there, or -1 beyond the last one. -/
def delivery (letters : List Char) (place : Nat) : Number :=
  match letters[place]? with
  | some letter => .ofChar letter
  | none => .ofInt (-1)

/-- The next number of a stream is its first delivery. -/
theorem next_eq_delivery (pending : List Char) :
    (next pending).1 = delivery (letters pending) 0 := by
  rcases next_cases pending with ⟨none, nothing⟩ | ⟨letter, left, first, taken⟩
  · rw [none, nothing]
    rfl
  · rw [first, taken]
    rfl

/-- The deliveries after it are those of what it leaves. -/
theorem delivery_next (pending : List Char) (place : Nat) :
    delivery (letters (next pending).2) place = delivery (letters pending) (place + 1) := by
  rcases next_cases pending with ⟨none, nothing⟩ | ⟨letter, left, first, taken⟩
  · rw [none, nothing]
    rfl
  · rw [first, taken]
    rfl

end Stream

namespace Machine

/-- The read instructions of every run of a machine, under whatever context, complete one after
another, each with its delivery of these letters on the stack, and change nothing else but the
readers. -/
def Reads (machine : Machine) (letters : List Char) : Prop :=
  ∀ (contexts : List Bool) (place : Nat) (head : Machine),
    ((machine.executed contexts).filter awaitsInput)[place]? = some head →
    ∃ input closed, head.step head.symbol =
      .done ({ head with input, closed }.push (Stream.delivery letters place))

theorem awaitsInput_iff (machine : Machine) :
    machine.awaitsInput = true ↔
      machine.takesLiterally machine.symbol = false ∧
        Instruction.ofSymbol? machine.symbol = some .readCharacter := by
  simp [awaitsInput]

/-- A head that does not read leaves the input as it is. -/
theorem input_act_of_not_awaits {machine : Machine} (other : machine.awaitsInput = false) :
    machine.act.machine.input = machine.input := by
  rw [input_act]
  apply machine.input_step
  rw [← Bool.not_eq_true, awaitsInput_iff, not_and_or, Bool.not_eq_false] at other
  exact other

/-- A head that reads takes the next number of the stream. -/
theorem step_of_awaits {machine : Machine} (awaits : machine.awaitsInput = true)
    (exhausts : machine.input.Exhausts) :
    ∃ input closed, machine.step machine.symbol =
        .done ({ machine with input, closed }.push (Stream.next machine.input.pending).1) ∧
      input.pending = (Stream.next machine.input.pending).2 ∧ input.Exhausts := by
  obtain ⟨executed, found⟩ := machine.awaitsInput_iff.mp awaits
  obtain ⟨input, closed, read, left, kept⟩ := execute_readCharacter exhausts
  refine ⟨input, machine.closed ++ closed, ?_, left, kept⟩
  rw [← read]
  simp only [step, executed, found]
  rfl

/-- Readers that end by exhaustion are read through, letter by letter. -/
theorem reads_of_exhausts {machine : Machine} (exhausts : machine.input.Exhausts) :
    machine.Reads (Stream.letters machine.input.pending) := by
  intro contexts
  revert exhausts
  refine executed_induction ?idle ?acts machine contexts
    (motive := fun machine heads _ => machine.input.Exhausts → ∀ (place : Nat) (head : Machine),
      (heads.filter awaitsInput)[place]? = some head →
      ∃ input closed, head.step head.symbol = .done ({ head with input, closed }.push
        (Stream.delivery (Stream.letters machine.input.pending) place)))
  case idle =>
    intro machine _ place head found
    cases found
  case acts =>
    intro machine heads final later exhausts place head found
    cases awaits : machine.awaitsInput with
    | false =>
      rw [List.filter_cons_of_neg (by simp [awaits])] at found
      rw [input_act_of_not_awaits awaits] at later
      exact later exhausts place head found
    | true =>
      rw [List.filter_cons_of_pos awaits] at found
      obtain ⟨input, closed, stepped, left, kept⟩ := step_of_awaits awaits exhausts
      have reached : machine.act.machine.input = input := by
        rw [input_act, stepped]
        rfl
      cases place with
      | zero =>
        cases found
        rw [← Stream.next_eq_delivery]
        exact ⟨input, closed, stepped⟩
      | succ place =>
        rw [reached, left] at later
        rw [← Stream.delivery_next]
        exact later kept place head found

/-- A run that has not read yet has left the input as it was. -/
theorem input_of_unread {machine : Machine} {contexts : List Bool}
    (unread : ∀ head ∈ machine.executed contexts, head.awaitsInput = false) :
    (machine.runUnder contexts).machine.input = machine.input := by
  revert unread
  refine executed_induction ?idle ?acts machine contexts
    (motive := fun machine heads final =>
      (∀ head ∈ heads, head.awaitsInput = false) → final.input = machine.input)
  case idle => exact fun _ _ => rfl
  case acts =>
    intro machine heads final later unread
    obtain ⟨first, rest⟩ := List.forall_mem_cons.mp unread
    exact (later rest).trans (input_act_of_not_awaits first)

/-- A machine that holds texts and standard input reads their letters. -/
theorem reads_of_holds {machine : Machine} {texts : List Bytes} {stdin : Bytes}
    (holds : machine.input.Holds texts stdin) :
    machine.Reads (Stream.letters ((texts ++ [stdin]).flatMap Utf8.characters)) :=
  holds.pending_eq ▸ reads_of_exhausts holds.exhausts

end Machine

/-! ## The input of a command -/

namespace Invocation

/-- What a command loads does not depend on its standard input. -/
theorem loads_with_stdin {invocation : Invocation} {settings : Settings} {tree : FileTree}
    {script : Bytes} {box : CodeBox} (loads : invocation.Loads settings tree script box)
    (stdin : Bytes) : { invocation with stdin }.Loads settings tree script box := by
  obtain ⟨⟨configures, alone, logs⟩, loaded⟩ := loads
  exact ⟨⟨configures, alone, logs⟩, loaded⟩

/-- A command that runs its script has a machine that holds the texts of its input files, in the
order of the command line, and standard input. -/
theorem exists_prepared (invocation : Invocation) {settings : Settings} {tree : FileTree}
    {script : Bytes} {box : CodeBox} {texts : List Bytes}
    (readable : invocation.reckoning.problem = none)
    (loads : invocation.Loads settings tree script box)
    (runs : invocation.request.list = false) (allowed : 0 ≤ settings.maxSteps)
    (files : List.Forall₂ tree.HasFile (Flag.values .input invocation.arguments) texts) :
    ∃ session, invocation.prepare = .ok session ∧
      session.machine.input.Holds (invocation.grown texts) invocation.stdin := by
  have inputs : invocation.request.inputs = Flag.values .input invocation.arguments :=
    Request.inputs_readFlags readable
  rw [← inputs] at files
  obtain ⟨readers, reads, feeds, names⟩ :=
    Session.exists_readersOf_files (List.rel_reverse files)
  obtain ⟨machine, created⟩ := Session.exists_machine loads.present allowed
  have opens := FileTree.opens_of_files files
  refine ⟨_, prepare_of_readies readable (.intro loads runs opens allowed reads created),
    readers.reverse, Session.readers_create created, ?_, fun reader member =>
      names reader (List.mem_reverse.mp member)⟩
  rw [feeds, List.reverse_reverse]

/-- A command that runs its script reads the files that its flags name, in the order of the command
line, and then standard input: whatever the program and the context of its run, the read
instruction at each place gets the character at that place of all texts in a row, each decoded by
itself and line feeds left out, and -1 beyond the last. The text of a file is what it holds when the
log has been opened, with what is appended to it until it is read, which is nothing unless someone
writes to it. It makes no difference whether standard input is there from the beginning or is
supplied before the first read instruction. -/
theorem command_reads_files_before_standard_input (invocation : Invocation) {settings : Settings}
    {tree : FileTree} {script : Bytes} {box : CodeBox} {texts : List Bytes}
    (readable : invocation.reckoning.problem = none)
    (loads : invocation.Loads settings tree script box)
    (runs : invocation.request.list = false) (allowed : 0 ≤ settings.maxSteps)
    (files : List.Forall₂ tree.HasFile (Flag.values .input invocation.arguments) texts) :
    ((∀ place, invocation.appended place = []) → invocation.grown texts = texts) ∧
    (∃ session, invocation.prepare = .ok session ∧ session.machine.Reads
      (Stream.letters ((invocation.grown texts ++ [invocation.stdin]).flatMap
        Utf8.characters))) ∧
    ∃ waiting, { invocation with stdin := [] }.prepare = .ok waiting ∧
      ∀ contexts head, waiting.machine.runUnder contexts = .going head →
        (∀ earlier ∈ waiting.machine.executed contexts, earlier.awaitsInput = false) →
        (Session.supply invocation.stdin head).Reads
          (Stream.letters ((invocation.grown texts ++ [invocation.stdin]).flatMap
            Utf8.characters)) := by
  refine ⟨fun still => grown_eq still texts, ?_, ?_⟩
  · obtain ⟨session, prepared, holds⟩ :=
      invocation.exists_prepared readable loads runs allowed files
    exact ⟨session, prepared, Machine.reads_of_holds holds⟩
  · obtain ⟨waiting, prepared, holds⟩ := exists_prepared { invocation with stdin := [] } readable
      (loads_with_stdin loads []) runs allowed files
    refine ⟨waiting, prepared, fun contexts head going unread => ?_⟩
    have untouched : head.input = waiting.machine.input := by
      rw [← Machine.input_of_unread unread, going]
      rfl
    rw [← untouched] at holds
    exact Machine.reads_of_holds (Session.holds_supply holds invocation.stdin)

/-- A file that ends in the middle of a character is read twice, with the file of the log in
between, and standard input begins with the byte that would complete the character. The file of the
log is made when the log is opened, and has a line in it when it is read. The program has two read
instructions more than there are letters. -/
theorem command_of_eight_reads :
    ∃ invocation : Invocation,
      invocation =
        ⟨["-log", "log", "-verbose=1", "-input", "cut", "--input=log", "-input", "cut",
            "script"].map Utf8.ofString, .standard,
          ⟨[], [(Utf8.ofString "script", .file (Utf8.ofString "iiiiiiiii;")),
            (Utf8.ofString "cut", .file [0x41, 0x0A, 0xC3])]⟩, [0xA9, 0x0A, 0x42], 0, none,
          fun place => if place = 1 then Utf8.ofString "a\n" else []⟩ ∧
      ∃ session, invocation.prepare = .ok session ∧
        session.machine.Reads ['A', '\uFFFD', 'a', 'A', '\uFFFD', '\uFFFD', 'B'] ∧
        ((session.machine.executed (List.replicate 10 false)).filter
          Machine.awaitsInput).length = 9 := by
  generalize known : (⟨["-log", "log", "-verbose=1", "-input", "cut", "--input=log", "-input",
      "cut", "script"].map Utf8.ofString, .standard,
    ⟨[], [(Utf8.ofString "script", .file (Utf8.ofString "iiiiiiiii;")),
      (Utf8.ofString "cut", .file [0x41, 0x0A, 0xC3])]⟩, [0xA9, 0x0A, 0x42], 0, none,
    fun place => if place = 1 then Utf8.ofString "a\n" else []⟩ : Invocation) = invocation
  generalize named : Utf8.ofString "script" = script
  generalize set : (⟨0, false, 0, false, false, 1, Utf8.ofString "log"⟩ : Settings) = settings
  generalize made : (⟨[([Utf8.ofString "log"], .file [])], invocation.tree.elsewhere⟩ : FileTree) =
    tree
  obtain ⟨readable, runs, alone, configures, allowed, logs, values, loaded, counted⟩ :
      invocation.reckoning.problem = none ∧ invocation.request.list = false ∧
        invocation.reckoning.rest = [script] ∧ invocation.configured = (none, settings) ∧
        0 ≤ settings.maxSteps ∧ invocation.opened settings = .ok tree ∧
        Flag.values .input invocation.arguments = ["cut", "log", "cut"].map Utf8.ofString ∧
        (tree.loadScript script).toOption.isSome = true ∧
        (invocation.prepare.toOption.map fun session =>
          ((session.machine.executed (List.replicate 10 false)).filter
            Machine.awaitsInput).length) = some 9 := by
    subst made known named set
    decide +kernel
  obtain ⟨cut, log, stdin, grown⟩ :
      tree.lookup (Utf8.ofString "cut") = .ok (.file [0x41, 0x0A, 0xC3]) ∧
        tree.lookup (Utf8.ofString "log") = .ok (.file []) ∧
        invocation.stdin = [0xA9, 0x0A, 0x42] ∧
        invocation.grown [[0x41, 0x0A, 0xC3], [], [0x41, 0x0A, 0xC3]] =
          [[0x41, 0x0A, 0xC3], [0x61, 0x0A], [0x41, 0x0A, 0xC3]] := by
    subst made known
    decide +kernel
  obtain ⟨box, boxed⟩ : ∃ box, tree.loadScript script = .ok box := by
    cases found : tree.loadScript script with
    | ok box => exact ⟨box, rfl⟩
    | error problem => simp [found, Except.toOption] at loaded
  have loads : invocation.Loads settings tree script box := ⟨⟨configures, alone, logs⟩, boxed⟩
  have files : List.Forall₂ tree.HasFile (Flag.values .input invocation.arguments)
      [[0x41, 0x0A, 0xC3], [], [0x41, 0x0A, 0xC3]] := by
    rw [values]
    exact .cons cut (.cons log (.cons cut .nil))
  obtain ⟨_, ⟨session, prepared, reads⟩, _⟩ := command_reads_files_before_standard_input invocation
    readable loads runs allowed files
  rw [stdin, grown] at reads
  rw [prepared] at counted
  exact ⟨invocation, rfl, session, prepared, reads, Option.some.inj counted⟩

end Invocation

end Aquarium
