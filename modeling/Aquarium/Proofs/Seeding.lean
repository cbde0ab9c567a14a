import Aquarium.Proofs.InputFiles

/-!
# The initial stack of a command

`Series.Holds` says how the fields of a series stand between its separators, and a series is read
field by field up to the first that is no number. So a separator of seven bits cuts a series in two
that are read one after the other (`Series.read_append`), whatever bytes stand next to it.
`Flag.Seeds` says what a flag puts on the initial stack. Reading goes from one flag of the command
line to the next (`readFlags_of_assignments`), and the main statement collects what they put there.
-/

namespace Aquarium

/-! ## Fields of a series -/

namespace Series

/-- The fields of a series: as long as they can be, with at least one separator between two of
them, and with any number of separators elsewhere. -/
inductive Holds : List Glyph → List (List Glyph) → Prop where
  | nothing : Holds [] []
  | skip {glyph : Glyph} {rest : List Glyph} {fields : List (List Glyph)}
      (apart : isSeparator glyph = true) (later : Holds rest fields) : Holds (glyph :: rest) fields
  | last {field : List Glyph} (present : field ≠ [])
      (whole : ∀ glyph ∈ field, isSeparator glyph = false) : Holds field [field]
  | field {field rest : List Glyph} {glyph : Glyph} {fields : List (List Glyph)}
      (present : field ≠ []) (whole : ∀ glyph ∈ field, isSeparator glyph = false)
      (apart : isSeparator glyph = true) (later : Holds rest fields) :
      Holds (field ++ glyph :: rest) (field :: fields)

/-- Every text has fields. -/
theorem exists_holds (glyphs : List Glyph) : ∃ fields, Holds glyphs fields := by
  induction glyphs with
  | nil => exact ⟨[], .nothing⟩
  | cons first rest hypothesis =>
    obtain ⟨fields, holds⟩ := hypothesis
    cases apart : isSeparator first with
    | true => exact ⟨fields, .skip apart holds⟩
    | false =>
      -- The first glyph lengthens the first field if that begins the rest, or else is one itself.
      have alone : ∀ glyph ∈ [first], isSeparator glyph = false := by simp [apart]
      cases holds with
      | nothing => exact ⟨_, .last (List.cons_ne_nil _ _) alone⟩
      | skip after later => exact ⟨_, .field (List.cons_ne_nil _ _) alone after later⟩
      | last present whole =>
        exact ⟨_, .last (List.cons_ne_nil _ _) (List.forall_mem_cons.mpr ⟨apart, whole⟩)⟩
      | field present whole after later =>
        exact ⟨_, .field (List.cons_ne_nil _ _) (List.forall_mem_cons.mpr ⟨apart, whole⟩) after
          later⟩

/-- The splitter finds the fields. -/
theorem eq_of_holds {glyphs : List Glyph} {fields : List (List Glyph)}
    (holds : Holds glyphs fields) :
    (glyphs.splitOnP isSeparator).filter (fun piece => !piece.isEmpty) = fields := by
  induction holds with
  | nothing => rfl
  | @skip glyph rest fields apart later hypothesis =>
    have cut := List.splitOnP_append_cons [] rest apart
    rw [List.nil_append] at cut
    rw [cut, List.filter_append, hypothesis]
    rfl
  | last present whole =>
    rw [List.splitOnP_eq_singleton whole]
    simp [present]
  | field present whole apart later hypothesis =>
    rw [List.splitOnP_append_cons_of_forall_mem whole _ apart,
      List.filter_cons_of_pos (by simp [present]), hypothesis]

theorem holds_iff {text : Bytes} {pieces : List (List Glyph)} :
    Holds (Glyph.read text) pieces ↔ fields text = pieces := by
  refine ⟨eq_of_holds, ?_⟩
  rintro rfl
  obtain ⟨pieces, holds⟩ := exists_holds (Glyph.read text)
  rw [fields, eq_of_holds holds]
  exact holds

/-- The separators of seven bits: white space and the comma. -/
def separators : Bytes :=
  [0x09, 0x0A, 0x0B, 0x0C, 0x0D, 0x20, 0x2C]

/-- A separator cuts a text in two, whatever bytes stand next to it. -/
theorem fields_append (left right : Bytes) {separator : UInt8} (listed : separator ∈ separators) :
    fields (left ++ separator :: right) = fields left ++ fields right := by
  have known : ∀ byte ∈ separators, byte.toNat < 0x80 ∧
      isSeparator (.character (Char.ofNat byte.toNat)) = true := by decide +kernel
  obtain ⟨small, apart⟩ := known separator listed
  have alone := Glyph.read_encode (Char.ofNat separator.toNat) right
  rw [Utf8.encode_ofNat small, List.singleton_append] at alone
  unfold fields
  rw [Glyph.read_append left right small, alone, List.splitOnP_append_cons _ _ apart,
    List.filter_append]

/-! ## Reading field by field -/

/-- Fields are numbers, one by one. -/
theorem mapM_readField_eq_ok_iff {pieces : List (List Glyph)} {series : List Number} :
    pieces.mapM readField = .ok series ↔
      List.Forall₂ (fun field number => readField field = .ok number) pieces series := by
  induction pieces generalizing series with
  | nil => cases series <;> simp [pure, Except.pure]
  | cons field pieces hypothesis =>
    rw [List.mapM_cons, List.forall₂_cons_left_iff]
    cases first : readField field with
    | error refusal => simp [bind, Except.bind]
    | ok number =>
      simp only [← hypothesis]
      cases pieces.mapM readField with
      | error refusal => simp [bind, Except.bind]
      | ok later => simp [bind, Except.bind, pure, Except.pure, eq_comm]

/-- The first field that is no number decides why fields are none. -/
theorem mapM_readField_eq_error_iff {pieces : List (List Glyph)} {refusal : Refusal} :
    pieces.mapM readField = .error refusal ↔
      ∃ earlier field later, pieces = earlier ++ field :: later ∧
        (∀ other ∈ earlier, ∃ number, readField other = .ok number) ∧
        readField field = .error refusal := by
  induction pieces with
  | nil => simp [pure, Except.pure]
  | cons piece pieces hypothesis =>
    rw [List.mapM_cons]
    cases first : readField piece with
    | error own =>
      constructor
      · intro failed
        cases failed
        exact ⟨[], piece, pieces, rfl, List.forall_mem_nil _, first⟩
      · rintro ⟨_ | ⟨other, earlier⟩, field, later, split, numbers, failed⟩ <;> cases split
        · rw [first] at failed
          cases failed
          rfl
        · obtain ⟨number, read⟩ := numbers piece List.mem_cons_self
          rw [first] at read
          cases read
    | ok number =>
      have rest : (do return (← Except.ok number) :: (← pieces.mapM readField)) =
          Except.error refusal ↔ pieces.mapM readField = .error refusal := by
        cases pieces.mapM readField <;> simp [bind, Except.bind, pure, Except.pure]
      refine rest.trans (hypothesis.trans ?_)
      constructor
      · rintro ⟨earlier, field, later, rfl, numbers, failed⟩
        exact ⟨piece :: earlier, field, later, rfl,
          List.forall_mem_cons.mpr ⟨⟨number, first⟩, numbers⟩, failed⟩
      · rintro ⟨_ | ⟨other, earlier⟩, field, later, split, numbers, failed⟩ <;> cases split
        · rw [first] at failed
          cases failed
        · exact ⟨earlier, field, later, rfl, (List.forall_mem_cons.mp numbers).2, failed⟩

/-- What is said of a field that is no number names its bytes. -/
theorem field_of_refused {field : List Glyph} {refusal : Refusal}
    (refused : readField field = .error refusal) :
    refusal.field = field.flatMap Glyph.bytes := by
  unfold readField at refused
  split at refused
  · cases refused
  · cases refused
    rfl

/-- A series is read in two, one part after the other. -/
theorem read_append (left right : Bytes) {separator : UInt8} (listed : separator ∈ separators) :
    read (left ++ separator :: right) = do return (← read left) ++ (← read right) := by
  unfold read
  rw [fields_append left right listed, List.mapM_append]

/-- Every field of a series is a number. -/
def Readable (text : Bytes) : Prop :=
  ∃ series, read text = .ok series

end Series

/-! ## Flags that seed the stack -/

namespace Flag

/-- What a flag with a value puts on the initial stack. -/
inductive Seeds : Flag × Bytes → List Number → Prop where
  | numbers {value : Bytes} {series : List Number}
      (read : Series.read value = .ok series) : Seeds (.numbers, value) series
  | string (value : Bytes) : Seeds (.string, value) (Series.ofText value)
  | other {flag : Flag} {value : Bytes} (noNumbers : flag ≠ .numbers) (noString : flag ≠ .string) :
      Seeds (flag, value) []

/-- The value decides what a flag puts on the initial stack. -/
theorem Seeds.unique {given : Flag × Bytes} {numbers others : List Number}
    (seeds : Seeds given numbers) (again : Seeds given others) : numbers = others := by
  cases seeds with
  | numbers read =>
    cases again with
    | numbers same => exact Except.ok.inj (read.symm.trans same)
    | other noNumbers _ => exact absurd rfl noNumbers
  | string value =>
    cases again with
    | string _ => rfl
    | other _ noString => exact absurd rfl noString
  | other noNumbers noString =>
    cases again with
    | numbers _ => exact absurd rfl noNumbers
    | string _ => exact absurd rfl noString
    | other _ _ => rfl

/-- Whether a flag takes a value does not depend on the flags before it. -/
def Admits (given : Flag × Bytes) : Prop :=
  ∃ changed, given.1.assign given.2 .plain = .ok changed

theorem admits_iff {flag : Flag} {value : Bytes} (request : Request) :
    Admits (flag, value) ↔ ∃ changed, flag.assign value request = .ok changed := by
  cases flag with
  | config | input | log | string => exact iff_of_true ⟨_, rfl⟩ ⟨_, rfl⟩
  | numbers =>
    simp only [Admits, assign, Request.pushSeries_eq]
    cases Series.read value <;> simp [Except.map]
  | seed | maxSteps | verbose =>
    simp only [Admits, assign, integer]
    cases Literal.read (Utf8.characters value) <;> simp [bind, Except.bind, pure, Except.pure]
  | debug | dump | list | raw =>
    simp only [Admits, assign]
    cases boolean? value <;> simp

/-- The flag of numbers takes every series that can be read. -/
theorem admits_numbers_iff {value : Bytes} :
    Admits (.numbers, value) ↔ Series.Readable value := by
  simp only [Admits, assign, Request.pushSeries_eq, Series.Readable]
  cases Series.read value <;> simp [Except.map]

/-- A flag that takes its value puts on the initial stack what the value seeds. -/
theorem exists_seeds_of_assign {flag : Flag} {value : Bytes} {request changed : Request}
    (assigned : flag.assign value request = .ok changed) :
    ∃ numbers, Seeds (flag, value) numbers ∧ changed.stack = request.stack ++ numbers := by
  cases flag with
  | string =>
    cases assigned
    exact ⟨_, .string value, rfl⟩
  | numbers =>
    simp only [assign, Request.pushSeries_eq] at assigned
    cases read : Series.read value with
    | ok series =>
      simp only [read, Except.map] at assigned
      cases assigned
      exact ⟨series, .numbers read, rfl⟩
    | error refusal =>
      simp only [read, Except.map] at assigned
      cases assigned
  | config | input | log =>
    cases assigned
    exact ⟨[], .other (by decide) (by decide), (List.append_nil _).symm⟩
  | seed | maxSteps | verbose =>
    refine ⟨[], .other (by decide) (by decide), ?_⟩
    simp only [assign, integer] at assigned
    split at assigned
    · cases assigned
      exact (List.append_nil _).symm
    · cases assigned
  | debug | dump | list | raw =>
    refine ⟨[], .other (by decide) (by decide), ?_⟩
    simp only [assign] at assigned
    split at assigned
    · cases assigned
      exact (List.append_nil _).symm
    · cases assigned

/-- Noting a flag and putting numbers on the initial stack do not disturb each other. -/
theorem mark_withStack (flag : Flag) (request : Request) (stack : List Number) :
    flag.mark { request with stack } = { flag.mark request with stack } := by
  unfold mark
  dsimp only
  split <;> rfl

theorem stack_mark (flag : Flag) (request : Request) :
    (flag.mark request).stack = request.stack := by
  have kept := congrArg Request.stack (flag.mark_withStack request request.stack)
  exact kept

/-- A flag is noted once. -/
theorem mark_mark (flag : Flag) (request : Request) :
    flag.mark (flag.mark request) = flag.mark request := by
  have noted : (flag.mark request).given.contains flag = true := by
    unfold mark
    split
    · assumption
    · simp
  rw [mark, if_pos noted]

end Flag

namespace Request

open Aquarium.Flag (assignments)

/-- A stack is that of a request with what some flags seed behind it, in their order. -/
def Seeded (request : Request) (flags : List (Flag × Bytes)) (stack : List Number) : Prop :=
  ∃ pieces, List.Forall₂ Flag.Seeds flags pieces ∧ stack = request.stack ++ pieces.flatten

/-- The flags decide what the stack is. -/
theorem Seeded.unique {request : Request} {flags : List (Flag × Bytes)}
    {stack other : List Number} (seeded : request.Seeded flags stack)
    (again : request.Seeded flags other) : stack = other := by
  obtain ⟨pieces, seeds, rfl⟩ := seeded
  obtain ⟨others, same, rfl⟩ := again
  have determined : Relator.RightUnique Flag.Seeds := fun _ _ _ => Flag.Seeds.unique
  rw [determined.forall₂ seeds same]

/-- Reading takes the first flag with its value and goes on with the others, unless the flag does
not take the value. -/
theorem readFlags_of_assignments {arguments : List Bytes} {flag : Flag} {value : Bytes}
    {later : List (Flag × Bytes)} (first : assignments arguments = (flag, value) :: later) :
    ∃ remaining, assignments remaining = later ∧ ∀ request : Request,
      request.readFlags Flag.all arguments =
        match flag.assign value request with
        | .ok changed => (flag.mark changed).readFlags Flag.all remaining
        | .error problem => ⟨request, remaining, some problem⟩ := by
  cases arguments with
  | nil => cases first
  | cons argument rest =>
    unfold assignments Flag.ofName? at first
    split at first
    · rename_i name given argued
      split at first
      · rename_i found known
        split at first
        · rename_i switch
          cases first
          exact ⟨rest, rfl, fun request => by
            rw [readFlags]
            simp only [argued, known, switch]
            rfl⟩
        · rename_i valued
          split at first
          · cases first
            exact ⟨_, rfl, fun request => by
            rw [readFlags]
            simp only [argued, known, valued]
            rfl⟩
          · cases first
            exact ⟨_, rfl, fun request => by
            rw [readFlags]
            simp only [argued, known, valued]
            rfl⟩
          · cases first
      · cases first
    · cases first

/-- A command line without flags leaves the request as it is. -/
theorem request_readFlags_of_no_assignments {arguments : List Bytes}
    (none : assignments arguments = []) (request : Request) :
    (request.readFlags Flag.all arguments).request = request := by
  cases arguments with
  | nil => rfl
  | cons argument rest =>
    unfold assignments Flag.ofName? at none
    rw [readFlags]
    split at none
    · rename_i name given argued
      split at none
      · rename_i found known
        split at none
        · cases none
        · rename_i valued
          split at none
          · cases none
          · cases none
          · simp [argued, known, valued]
      · rename_i unknown
        simp [argued, unknown]
    · split <;> simp_all

/-- Flags that take their values put on the initial stack, one after another, what these seed. -/
theorem exists_readFlags_of_admitted {arguments : List Bytes}
    {earlier later : List (Flag × Bytes)} (split : assignments arguments = earlier ++ later)
    (admitted : ∀ given ∈ earlier, Flag.Admits given) (request : Request) :
    ∃ (remaining : List Bytes) (changed : Request), assignments remaining = later ∧
      request.readFlags Flag.all arguments = changed.readFlags Flag.all remaining ∧
      request.Seeded earlier changed.stack := by
  induction earlier generalizing arguments request with
  | nil => exact ⟨arguments, request, split, rfl, [], .nil, (List.append_nil _).symm⟩
  | cons given earlier hypothesis =>
    obtain ⟨flag, value⟩ := given
    obtain ⟨first, rest⟩ := List.forall_mem_cons.mp admitted
    obtain ⟨changed, assigned⟩ := (Flag.admits_iff request).mp first
    obtain ⟨numbers, seeds, stack⟩ := Flag.exists_seeds_of_assign assigned
    obtain ⟨others, left, reads⟩ := readFlags_of_assignments split
    obtain ⟨remaining, final, reached, read, pieces, seeded, whole⟩ :=
      hypothesis left rest (flag.mark changed)
    refine ⟨remaining, final, reached, ?_, numbers :: pieces, .cons seeds seeded, ?_⟩
    · rw [reads, assigned, ← read]
    · rw [whole, Flag.stack_mark, stack, List.flatten_cons, List.append_assoc]

/-- Flags that can be read take their values. -/
theorem admits_of_readable {request : Request} {arguments : List Bytes}
    (readable : (request.readFlags Flag.all arguments).problem = none) :
    ∀ given ∈ assignments arguments, Flag.Admits given := by
  generalize listed : assignments arguments = flags
  induction flags generalizing arguments request with
  | nil => exact List.forall_mem_nil _
  | cons given flags hypothesis =>
    obtain ⟨flag, value⟩ := given
    obtain ⟨remaining, left, reads⟩ := readFlags_of_assignments listed
    rw [reads] at readable
    cases assigned : flag.assign value request with
    | error problem =>
      rw [assigned] at readable
      cases readable
    | ok changed =>
      rw [assigned] at readable
      exact List.forall_mem_cons.mpr
        ⟨(Flag.admits_iff request).mpr ⟨changed, assigned⟩, hypothesis readable left⟩

/-- A flag whose value is no series ends the reading, and puts nothing on the initial stack. -/
theorem readFlags_of_refused {arguments : List Bytes} {value : Bytes}
    {later : List (Flag × Bytes)} {refusal : Series.Refusal}
    (first : assignments arguments = (.numbers, value) :: later)
    (refused : Series.read value = .error refusal) (request : Request) :
    (request.readFlags Flag.all arguments).request = request ∧
      (request.readFlags Flag.all arguments).problem =
        some (.badValue .numbers value (String.intercalate ": " refusal.layers)) := by
  obtain ⟨remaining, _, reads⟩ := readFlags_of_assignments first
  rw [reads, Flag.assign, pushSeries_eq, refused]
  exact ⟨rfl, rfl⟩

/-- The flag of numbers takes the argument behind it, whatever it is. -/
theorem readFlags_numbers (request : Request) (value : Bytes) (rest : List Bytes) :
    request.readFlags Flag.all (Utf8.ofString "-v" :: value :: rest) =
      match Series.read value with
      | .ok series =>
        (Flag.numbers.mark { request with stack := request.stack ++ series }).readFlags Flag.all
          rest
      | .error refusal =>
        ⟨request, rest,
          some (.badValue .numbers value (String.intercalate ": " refusal.layers))⟩ := by
  have argued : Argument.of (Utf8.ofString "-v") = .flag (Utf8.ofString "v") none := by decide
  have known : Flag.all.find? (fun flag => flag.label = Utf8.ofString "v") = some .numbers := by
    decide
  have valued : Flag.numbers.isSwitch = false := rfl
  rw [readFlags]
  simp only [argued, known, valued, Flag.assign, pushSeries_eq]
  cases Series.read value <;> rfl

/-- Two flags of numbers put on the initial stack what one of both series does. -/
theorem readFlags_two_series (request : Request) {left right : Bytes} {separator : UInt8}
    (listed : separator ∈ Series.separators) {before after : List Number}
    (first : Series.read left = .ok before) (second : Series.read right = .ok after)
    (rest : List Bytes) :
    request.readFlags Flag.all (Utf8.ofString "-v" :: left :: Utf8.ofString "-v" :: right :: rest) =
      request.readFlags Flag.all (Utf8.ofString "-v" :: (left ++ separator :: right) :: rest) := by
  have both : Series.read (left ++ separator :: right) = .ok (before ++ after) := by
    rw [Series.read_append _ _ listed, first, second]
    rfl
  rw [readFlags_numbers, readFlags_numbers, first, both]
  simp only [readFlags_numbers, second, Flag.mark_withStack, Flag.mark_mark, List.append_assoc]

/-- If one of two series cannot be read, neither two flags nor one can. -/
theorem problem_of_unreadable_series (request : Request) {left right : Bytes} {separator : UInt8}
    (listed : separator ∈ Series.separators)
    (unreadable : ¬(Series.Readable left ∧ Series.Readable right)) (rest : List Bytes) :
    (request.readFlags Flag.all
        (Utf8.ofString "-v" :: left :: Utf8.ofString "-v" :: right :: rest)).problem ≠ none ∧
      (request.readFlags Flag.all
        (Utf8.ofString "-v" :: (left ++ separator :: right) :: rest)).problem ≠ none := by
  have both := Series.read_append left right listed
  rw [readFlags_numbers, readFlags_numbers, both]
  cases first : Series.read left with
  | error refusal => simp [bind, Except.bind]
  | ok before =>
    cases second : Series.read right with
    | error refusal => simp [bind, Except.bind, readFlags_numbers, second]
    | ok after => exact absurd ⟨⟨before, first⟩, after, second⟩ unreadable

/-- The flags of a command line seed the initial stack in their order, with the numbers of each
series and the codes of the characters of each text. One whose value is no series ends the reading,
and the stack holds what the flags before it seed, and nothing else. A series that is cut at a
separator, whatever bytes stand next to it, is read if both parts are, as the numbers of one behind
those of the other; the first field that is no number is named, and no number is read then. So two
flags of numbers do the same as one with a comma or another separator between their series, or
neither can be read. -/
theorem stack_flags_seed_in_order (request : Request) (arguments : List Bytes) :
    let reckoning := request.readFlags Flag.all arguments
    (reckoning.problem = none →
      request.Seeded (assignments arguments) reckoning.request.stack) ∧
    (∀ earlier value later refusal, assignments arguments = earlier ++ (.numbers, value) :: later →
      (∀ given ∈ earlier, Flag.Admits given) →
      Series.read value = .error refusal →
      request.Seeded earlier reckoning.request.stack ∧ reckoning.problem =
        some (.badValue .numbers value (String.intercalate ": " refusal.layers))) ∧
    (∀ left right : Bytes, ∀ separator ∈ Series.separators,
      (∀ series, Series.read (left ++ separator :: right) = .ok series ↔
        ∃ before after, Series.read left = .ok before ∧ Series.read right = .ok after ∧
          series = before ++ after) ∧
      request.pushSeries (left ++ separator :: right) =
        (do (← request.pushSeries left).pushSeries right)) ∧
    (∀ text series, Series.read text = .ok series ↔
      ∃ fields, Series.Holds (Glyph.read text) fields ∧
        List.Forall₂ (fun field number => Series.readField field = .ok number) fields series) ∧
    (∀ text refusal, Series.read text = .error refusal ↔
      ∃ earlier field later, Series.Holds (Glyph.read text) (earlier ++ field :: later) ∧
        (∀ other ∈ earlier, ∃ number, Series.readField other = .ok number) ∧
        Series.readField field = .error refusal ∧ refusal.field = field.flatMap Glyph.bytes) ∧
    ∀ left right rest, ∀ separator ∈ Series.separators,
      let twice := request.readFlags Flag.all
        (Utf8.ofString "-v" :: left :: Utf8.ofString "-v" :: right :: rest)
      let once := request.readFlags Flag.all
        (Utf8.ofString "-v" :: (left ++ separator :: right) :: rest)
      Series.Readable left ∧ Series.Readable right ∧ twice = once ∨
        twice.problem ≠ none ∧ once.problem ≠ none := by
  intro reckoning
  refine ⟨?whole, ?stops, ?cut, ?numbers, ?names, ?pairs⟩
  case whole =>
    intro readable
    obtain ⟨remaining, changed, ended, read, seeded⟩ := exists_readFlags_of_admitted
      (List.append_nil _).symm (admits_of_readable readable) request
    rwa [show reckoning = _ from read, request_readFlags_of_no_assignments ended]
  case stops =>
    intro earlier value later refusal split admitted refused
    obtain ⟨remaining, changed, first, read, seeded⟩ :=
      exists_readFlags_of_admitted split admitted request
    obtain ⟨kept, problem⟩ := readFlags_of_refused first refused changed
    rw [show reckoning = _ from read, kept]
    exact ⟨seeded, problem⟩
  case cut =>
    intro left right separator listed
    simp only [pushSeries_eq, Series.read_append left right listed]
    cases Series.read left with
    | error refusal => simp [bind, Except.bind, Except.map]
    | ok before =>
      cases Series.read right with
      | error refusal => simp [bind, Except.bind, Except.map]
      | ok after => simp [bind, Except.bind, Except.map, pure, Except.pure, eq_comm]
  case numbers =>
    intro text series
    simp only [Series.holds_iff, exists_eq_left', Series.read, Series.mapM_readField_eq_ok_iff]
  case names =>
    intro text refusal
    rw [Series.read, Series.mapM_readField_eq_error_iff]
    simp only [Series.holds_iff]
    constructor
    · rintro ⟨earlier, field, later, split, numbers, failed⟩
      exact ⟨earlier, field, later, split, numbers, failed, Series.field_of_refused failed⟩
    · rintro ⟨earlier, field, later, split, numbers, failed, _⟩
      exact ⟨earlier, field, later, split, numbers, failed⟩
  case pairs =>
    intro left right rest separator listed
    by_cases readable : Series.Readable left ∧ Series.Readable right
    · obtain ⟨⟨before, first⟩, after, second⟩ := readable
      exact .inl ⟨⟨before, first⟩, ⟨after, second⟩,
        readFlags_two_series request listed first second rest⟩
    · exact .inr (problem_of_unreadable_series request listed readable rest)

/-- A series, a text that ends in a stray byte, a series with its value behind an equals sign, and
then one with a word in it, which ends the reading. -/
theorem stack_seeded_before_refused_series :
    ∃ arguments text refusal, text = [0x61, 0xC3, 0xA9, 0xFF] ∧
      arguments = [Utf8.ofString "-v", Utf8.ofString "1, 2.5", Utf8.ofString "-s", text,
        Utf8.ofString "--v=,-3,", Utf8.ofString "-v", Utf8.ofString "7,,x", Utf8.ofString "-s",
        Utf8.ofString "b", Utf8.ofString "script"] ∧
      assignments arguments =
        [(.numbers, Utf8.ofString "1, 2.5"), (.string, text), (.numbers, Utf8.ofString ",-3,")] ++
          (.numbers, Utf8.ofString "7,,x") :: [(.string, Utf8.ofString "b")] ∧
      (∀ given ∈ [(.numbers, Utf8.ofString "1, 2.5"), (.string, text),
        (.numbers, Utf8.ofString ",-3,")], Flag.Admits given) ∧
      Series.read (Utf8.ofString "7,,x") = .error refusal ∧
      (plain.readFlags Flag.all arguments).request.stack =
        [1, Number.div 5 2, 97, 233, 65533, .ofInt (-3)] ∧
      (plain.readFlags Flag.all arguments).problem = some (.badValue .numbers (Utf8.ofString "7,,x")
        "invalid number \"x\": strconv.ParseFloat: parsing \"x\": invalid syntax") := by
  obtain ⟨text, stray⟩ : ∃ text : Bytes, text = [0x61, 0xC3, 0xA9, 0xFF] := ⟨_, rfl⟩
  obtain ⟨arguments, line⟩ : ∃ arguments, arguments =
      [Utf8.ofString "-v", Utf8.ofString "1, 2.5", Utf8.ofString "-s", text,
        Utf8.ofString "--v=,-3,", Utf8.ofString "-v", Utf8.ofString "7,,x", Utf8.ofString "-s",
        Utf8.ofString "b", Utf8.ofString "script"] := ⟨_, rfl⟩
  have first : Series.read (Utf8.ofString "1, 2.5") = .ok [1, Number.div 5 2] := by decide +kernel
  have second : Series.ofText text = [97, 233, 65533] := by
    subst stray
    decide +kernel
  have third : Series.read (Utf8.ofString ",-3,") = .ok [.ofInt (-3)] := by decide +kernel
  have refused : Series.read (Utf8.ofString "7,,x") = .error ⟨[0x78], .malformed⟩ := by
    decide +kernel
  have listed : assignments arguments =
      [(.numbers, Utf8.ofString "1, 2.5"), (.string, text), (.numbers, Utf8.ofString ",-3,")] ++
        (.numbers, Utf8.ofString "7,,x") :: [(.string, Utf8.ofString "b")] := by
    subst stray line
    decide +kernel
  have admitted : ∀ given ∈ [(.numbers, Utf8.ofString "1, 2.5"), (.string, text),
      (.numbers, Utf8.ofString ",-3,")], Flag.Admits given := by
    simp only [List.forall_mem_cons]
    exact ⟨Flag.admits_numbers_iff.mpr ⟨_, first⟩, ⟨_, rfl⟩,
      Flag.admits_numbers_iff.mpr ⟨_, third⟩, List.forall_mem_nil _⟩
  obtain ⟨_, stops, _⟩ := stack_flags_seed_in_order .plain arguments
  obtain ⟨seeded, problem⟩ := stops _ _ _ _ listed admitted refused
  refine ⟨arguments, text, _, stray, line, listed, admitted, refused, ?_,
    problem.trans (by decide +kernel)⟩
  exact seeded.unique ⟨[[1, Number.div 5 2], [97, 233, 65533], [.ofInt (-3)]],
    .cons (.numbers first) (.cons (second ▸ .string text) (.cons (.numbers third) .nil)), rfl⟩

end Request

end Aquarium
