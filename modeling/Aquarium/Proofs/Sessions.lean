import Aquarium.Command.Session
import Aquarium.Proofs.Contexts
import Aquarium.Proofs.FaultConditions
import Aquarium.Proofs.History
import Aquarium.Proofs.Literals

/-!
# The sessions of a command

From a script that has been loaded it is one step to a machine that is ready to run: all files of
input must open, and the limit must not be negative. The machine then has the readers of the files
before that of standard input (`readers_create`). Every read from them comes back, a directory's
with an error, so no run of such a machine gets stuck (`ne_stuck_of_answers`).
-/

namespace Aquarium

/-! ## Scripts -/

/-- A source that gives a box has a cell. -/
theorem CodeBox.present_of_ofSource {text : Bytes} {interruption : Option Bytes} {box : CodeBox}
    (made : ofSource text interruption = .ok box) : ¬(box.height = 0 ∨ box.width = 0) := by
  unfold ofSource at made
  cases interruption with
  | some cause => cases made
  | none =>
    unfold ofSource? at made
    by_cases empty : (ofRows (Source.rows text)).height = 0 ∨ (ofRows (Source.rows text)).width = 0
    · simp [empty] at made
    · simp only [empty, if_false] at made
      cases made
      exact empty

namespace FileTree

/-- Whether there is something to open at a path. -/
def Opens (tree : FileTree) (path : Bytes) : Prop :=
  ∃ entry, tree.lookup path = .ok entry

/-- A script that loads has a cell. -/
theorem present_of_loadScript {tree : FileTree} {name : Bytes} {box : CodeBox}
    (loaded : tree.loadScript name = .ok box) : ¬(box.height = 0 ∨ box.width = 0) := by
  unfold loadScript at loaded
  split at loaded
  · cases loaded
  · cases loaded
  · rename_i contents _
    cases made : CodeBox.ofSource contents none with
    | error problem =>
      rw [made] at loaded
      cases loaded
    | ok other =>
      rw [made] at loaded
      cases loaded
      exact CodeBox.present_of_ofSource made

end FileTree

/-! ## Runs that answer -/

namespace Input

/-- To read past line feeds comes back as well, and leaves readers that answer. -/
theorem answers_readVisible {input : Input} (answers : input.Answers) :
    input.readVisible.1 ≠ .ended .stuck ∧ input.readVisible.2.1.Answers := by
  unfold readVisible
  generalize input.size = attempts
  induction attempts generalizing input with
  | zero => exact answers_read answers
  | succ attempts hypothesis =>
    have first := answers_read answers
    rcases delivered : input.read with ⟨reading, left, closed⟩
    rw [delivered] at first
    simp only [readPast, delivered]
    split
    · exact hypothesis first.2
    · exact first

end Input

namespace Machine

/-- A turn that nothing holds up ends with the input that its step leaves. -/
theorem input_act (machine : Machine) :
    machine.act.machine.input = (machine.step machine.symbol).machine.input :=
  view_act (fun _ _ _ _ => rfl) machine

/-- A step leaves readers that answer. -/
theorem answers_step {machine : Machine} (answers : machine.input.Answers) (symbol : Int) :
    (machine.step symbol).machine.input.Answers := by
  rcases machine.step_reads_or_keeps symbol with ⟨_, _, reads⟩ | ⟨kept, _⟩
  · rw [reads, machine.input_closed_readCharacter.1]
    exact (Input.answers_readVisible answers).2
  · rw [kept]
    exact answers

/-- A turn leaves readers that answer. -/
theorem answers_turn (machine : Machine) (cancelled : Bool) (answers : machine.input.Answers) :
    (machine.turn cancelled).machine.input.Answers := by
  rcases machine.turn_held_or_acts cancelled with ⟨_, held, _⟩ | ⟨_, _, _, acts⟩
  · rw [held]
    exact answers
  · rw [acts, input_act]
    exact answers_step answers machine.symbol

/-- A run whose readers answer does not get stuck. -/
theorem Ends.ne_stuck_of_answers {machine final : Machine} {stop : Stop}
    (ends : machine.Ends stop final) (answers : machine.input.Answers) : stop ≠ .stuck := by
  obtain ⟨turns, stopped⟩ := ends
  obtain ⟨_, head, _, going, turned⟩ := exists_head_of_stopped stopped
  have answered := (turns_of_going going).keeps answers_turn answers
  rcases head.turn_held_or_acts false with ⟨reason, held, _, other⟩ | ⟨_, _, _, acts⟩
  · rw [held] at turned
    cases turned
    exact other
  · rw [acts] at turned
    rintro rfl
    rcases head.act_cases with ⟨_, _, _, went⟩ | ⟨_, _, _, went⟩ | ⟨_, _, _, went⟩ | ⟨_, stuck, _⟩
    · rw [went] at turned
      cases turned
    · rw [went] at turned
      cases turned
    · rw [went] at turned
      cases turned
    · obtain ⟨_, _, ceases⟩ := exists_step_stuck_iff.mp ⟨_, stuck⟩
      exact Input.not_ceases_stuck answered ceases

/-- No run is cancelled without a signal. -/
theorem Ends.ne_cancelled {machine final : Machine} {stop : Stop}
    (ends : machine.Ends stop final) : stop ≠ .cancelled := by
  obtain ⟨turns, stopped⟩ := ends
  obtain ⟨_, head, _, _, turned⟩ := Machine.exists_head_of_stopped stopped
  rintro rfl
  rcases head.turn_cases false with ⟨_, held⟩ | ⟨_, polled, _⟩ | ⟨_, _, _, held⟩ | ⟨_, _, _, acts⟩
  · rw [held] at turned
    cases turned
  · cases polled
  · rw [held] at turned
    cases turned
  · rw [acts] at turned
    rcases Machine.act_stop turned with other | ⟨_, other⟩ | other <;> cases other

end Machine

/-! ## Readers of a machine -/

/-- The reader that an adjustment puts before all others. -/
def Adjustment.reader? : Adjustment → Option Reader
  | .input reader => some reader
  | _ => none

namespace Machine

/-- An adjustment changes the input only by its reader, if that is there. -/
theorem readers_adjust {machine adjusted : Machine} {adjustment : Adjustment}
    (present : ∀ name, adjustment ≠ .missing name)
    (made : machine.adjust adjustment = .ok adjusted) :
    adjusted.input.readers = adjustment.reader?.toList ++ machine.input.readers := by
  cases adjustment with
  | input reader =>
    cases made
    exact Input.readers_push _ _
  | missing name => exact absurd rfl (present name)
  | limit steps =>
    simp only [adjust] at made
    split at made
    · cases made
    · cases made
      rfl
  | trace wanted =>
    cases wanted <;> cases made
    rfl
  | push | compass | output =>
    cases made
    rfl

/-- Readers come to stand in front of each other, the last one first. -/
theorem readers_adjustAll {machine final : Machine} {adjustments : List Adjustment}
    (present : ∀ adjustment ∈ adjustments, ∀ name, adjustment ≠ .missing name)
    (made : machine.adjustAll adjustments = (none, final)) :
    final.input.readers =
      (adjustments.filterMap Adjustment.reader?).reverse ++ machine.input.readers := by
  induction adjustments generalizing machine with
  | nil =>
    cases made
    rfl
  | cons adjustment rest hypothesis =>
    obtain ⟨here, later⟩ := List.forall_mem_cons.mp present
    cases first : machine.adjust adjustment with
    | error problem => simp [adjustAll, first] at made
    | ok adjusted =>
      simp only [adjustAll, first] at made
      rw [hypothesis later made, readers_adjust here first, List.filterMap_cons]
      cases adjustment.reader? <;> simp

end Machine

namespace Session

/-! ## Readers of files -/

section Files

variable {tree : FileTree} {appended : Nat → Bytes}

theorem readerOf_eq_error_iff {place : Nat} {path : Bytes} {problem : FileProblem} :
    readerOf tree appended place path = .error problem ↔ tree.lookup path = .error problem := by
  unfold readerOf
  cases tree.lookup path with
  | error other => simp
  | ok entry => cases entry <;> simp

theorem exists_readerOf {path : Bytes} (opens : tree.Opens path) (place : Nat) :
    ∃ reader, readerOf tree appended place path = .ok reader := by
  obtain ⟨entry, found⟩ := opens
  unfold readerOf
  rw [found]
  cases entry with
  | directory => exact ⟨_, rfl⟩
  | file contents => exact ⟨_, rfl⟩

/-- Files that can be opened have readers. -/
theorem exists_readersOf (appended : Nat → Bytes) {paths : List Bytes}
    (opens : ∀ path ∈ paths, tree.Opens path) :
    ∃ readers, readersOf tree appended paths = .ok readers := by
  induction paths with
  | nil => exact ⟨[], rfl⟩
  | cons path earlier hypothesis =>
    obtain ⟨reader, first⟩ := exists_readerOf (opens path List.mem_cons_self) earlier.length
    obtain ⟨readers, rest⟩ :=
      hypothesis fun other member => opens other (List.mem_cons_of_mem _ member)
    exact ⟨reader :: readers, by rw [readersOf, first, rest]⟩

/-- The first file that cannot be opened is reported. -/
theorem readersOf_of_unopened (appended : Nat → Bytes) {before : List Bytes} {path : Bytes}
    {problem : FileProblem} (opens : ∀ other ∈ before, tree.Opens other)
    (unopened : tree.lookup path = .error problem) (after : List Bytes) :
    readersOf tree appended (before ++ path :: after) = .error (path, problem) := by
  induction before with
  | nil => rw [List.nil_append, readersOf, readerOf_eq_error_iff.mpr unopened]
  | cons first others hypothesis =>
    obtain ⟨reader, made⟩ :=
      exists_readerOf (opens first List.mem_cons_self) (others ++ path :: after).length
    have rest := hypothesis fun other member => opens other (List.mem_cons_of_mem _ member)
    rw [List.cons_append, readersOf, made, rest]

/-- The reader of a file ends by exhaustion, and that of a directory with an error. -/
theorem ending_of_readerOf {place : Nat} {path : Bytes} {reader : Reader}
    (made : readerOf tree appended place path = .ok reader) : reader.feed.ending ≠ .stuck := by
  unfold readerOf at made
  split at made
  · cases made
  · cases made
    exact Ending.noConfusion
  · cases made
    exact Ending.noConfusion

theorem ending_of_readersOf {paths : List Bytes} {readers : List Reader}
    (made : readersOf tree appended paths = .ok readers) :
    ∀ reader ∈ readers, reader.feed.ending ≠ .stuck := by
  induction paths generalizing readers with
  | nil =>
    cases made
    exact List.forall_mem_nil _
  | cons path earlier hypothesis =>
    rw [readersOf] at made
    cases first : readerOf tree appended earlier.length path with
    | error problem => simp [first] at made
    | ok reader =>
      cases rest : readersOf tree appended earlier with
      | error problem => simp [first, rest] at made
      | ok others =>
        simp only [first, rest] at made
        cases made
        exact List.forall_mem_cons.mpr ⟨ending_of_readerOf first, hypothesis rest⟩

/-- Either all files can be opened, or there is a first one that cannot. -/
theorem opens_or_exists_unopened (tree : FileTree) (paths : List Bytes) :
    (∀ path ∈ paths, tree.Opens path) ∨
      ∃ before path after problem, paths = before ++ path :: after ∧
        (∀ other ∈ before, tree.Opens other) ∧ tree.lookup path = .error problem := by
  induction paths with
  | nil => exact .inl (List.forall_mem_nil _)
  | cons path rest hypothesis =>
    cases found : tree.lookup path with
    | error problem => exact .inr ⟨[], path, rest, problem, rfl, List.forall_mem_nil _, found⟩
    | ok entry =>
      have opens : tree.Opens path := ⟨entry, found⟩
      rcases hypothesis with all | ⟨before, other, after, problem, rfl, opened, unopened⟩
      · exact .inl (List.forall_mem_cons.mpr ⟨opens, all⟩)
      · exact .inr ⟨path :: before, other, after, problem, rfl,
          List.forall_mem_cons.mpr ⟨opens, opened⟩, unopened⟩

end Files

/-! ## Machines -/

section Machines

variable {library : Library} {request : Request} {settings : Settings} {stdin : Bytes}
  {readers : List Reader} {box : CodeBox} {compass : Compass} {machine : Machine}

/-- The adjustments of a command can be made if the limit is not negative, and none of them makes a
place for a reader that is not there. -/
theorem possible_of_mem_adjustments {adjustment : Adjustment}
    (member : adjustment ∈ adjustments library request settings stdin readers) :
    (0 ≤ settings.maxSteps → adjustment.isPossible) ∧ ∀ name, adjustment ≠ .missing name := by
  simp only [adjustments, List.mem_append, List.mem_cons, List.mem_map, List.not_mem_nil, or_false]
    at member
  rcases member with ((rfl | rfl | rfl | rfl) | seeded) | rfl | ⟨reader, _, rfl⟩
  · exact ⟨fun _ => rfl, nofun⟩
  · exact ⟨fun _ => rfl, nofun⟩
  · exact ⟨fun _ => rfl, nofun⟩
  · exact ⟨decide_eq_true, nofun⟩
  · split at seeded
    · rw [List.mem_singleton.mp seeded]
      exact ⟨fun _ => rfl, nofun⟩
    · cases seeded
  · exact ⟨fun _ => rfl, nofun⟩
  · exact ⟨fun _ => rfl, nofun⟩

/-- A limit that is not negative leaves nothing to go wrong with a machine. -/
theorem exists_machine (present : ¬(box.height = 0 ∨ box.width = 0))
    (allowed : 0 ≤ settings.maxSteps) :
    ∃ machine, Machine.create (some box) compass
      (adjustments library request settings stdin readers) = .ok machine :=
  Machine.exists_create present compass fun _ member =>
    (possible_of_mem_adjustments member).1 allowed

/-- A negative limit is all that can go wrong with a machine. -/
theorem create_of_negative (present : ¬(box.height = 0 ∨ box.width = 0))
    (negative : settings.maxSteps < 0) :
    Machine.create (some box) compass (adjustments library request settings stdin readers) =
      .error (.negativeLimit settings.maxSteps) := by
  simp [Machine.create, present, adjustments, Machine.adjustAll, Machine.adjust, negative]

/-- A machine begins with the readers of the files, put up from the last to the first, over that of
standard input. -/
theorem readers_create
    (created : Machine.create (some box) compass
      (adjustments library request settings stdin readers) = .ok machine) :
    machine.input.readers = readers.reverse ++ [⟨0, false, .ofText stdin .exhausted⟩] := by
  have files : (readers.map Adjustment.input).filterMap Adjustment.reader? = readers := by
    rw [List.filterMap_map]
    exact List.filterMap_some
  have all : (adjustments library request settings stdin readers).filterMap Adjustment.reader? =
      ⟨0, false, .ofText stdin .exhausted⟩ :: readers := by
    unfold adjustments
    cases settings.seedGiven with
    | false => exact congrArg (List.cons _) files
    | true => exact congrArg (List.cons _) files
  unfold Machine.create at created
  dsimp only at created
  split at created
  · cases created
  · rcases made : (Machine.start box compass).adjustAll
      (adjustments library request settings stdin readers) with ⟨_ | problem, final⟩
    · rw [made] at created
      cases created
      rw [Machine.readers_adjustAll (fun _ member => (possible_of_mem_adjustments member).2) made,
        all, List.reverse_cons]
      exact List.append_nil _
    · rw [made] at created
      cases created

/-- The readers of a command answer. -/
theorem answers_create (ending : ∀ reader ∈ readers, reader.feed.ending ≠ .stuck)
    (created : Machine.create (some box) compass
      (adjustments library request settings stdin readers) = .ok machine) :
    machine.input.Answers := by
  intro reader member
  rw [readers_create created, List.mem_append, List.mem_reverse, List.mem_singleton] at member
  rcases member with file | rfl
  · exact ending reader file
  · exact Ending.noConfusion

end Machines

end Session

end Aquarium
