import Aquarium.CodeBox.Source
import Aquarium.Proofs.Contexts
import Aquarium.Proofs.Rounding
import Mathlib.Data.List.Forall2

/-!
# Numbers beneath a program

Instructions work on the top of the active stack. Only four of them look at all of it: its length,
its reversal and its two shifts. So a program runs the same with numbers put beneath those of its
lowest stack, as long as it does not execute one of the four while that stack is its only one.
`Executes.bedded` says so of an instruction that completes, by the rules, and `runUnder_bedded` of a
run. The count of a new stack is compared with the length of the active one, and
`Number.canTakeFrom_mono` says that a longer stack allows it too.
-/

namespace Aquarium

/-! ## Stacks and towers -/

/-- A stack with numbers put beneath its own, given the bottom one first. -/
def Stack.bedded (stack : Stack) (extra : List Number) : Stack :=
  { stack with values := stack.values ++ extra.reverse }

namespace Tower

/-- A tower with numbers put beneath those of its lowest stack. -/
def bedded (tower : Tower) (extra : List Number) : Tower :=
  match tower.beneath with
  | [] => { tower with active := tower.active.bedded extra }
  | below :: others =>
    { tower with
      beneath := (below :: others).modify others.length fun lowest => lowest.bedded extra }

/-- What the active stack has beneath its numbers then: all of it if it is the only stack. -/
def bed (tower : Tower) (extra : List Number) : List Number :=
  if tower.beneath = [] then extra.reverse else []

theorem bed_of_nested {tower : Tower} (nested : tower.size ≠ 1) (extra : List Number) :
    tower.bed extra = [] := by
  refine if_neg fun alone => nested ?_
  simp [size, alone]

theorem values_bedded (tower : Tower) (extra : List Number) :
    (tower.bedded extra).active.values = tower.active.values ++ tower.bed extra := by
  cases under : tower.beneath <;> simp [bedded, bed, under, Stack.bedded]

@[simp] theorem register_bedded (tower : Tower) (extra : List Number) :
    (tower.bedded extra).active.register = tower.active.register := by
  cases under : tower.beneath <;> simp [bedded, under, Stack.bedded]

/-- The last of some stacks is the first of them seen from the other end. -/
theorem reverse_modify_last (change : Stack → Stack) (below : Stack) (others : List Stack) :
    ((below :: others).modify others.length change).reverse =
      (below :: others).reverse.modifyHead change := by
  induction others generalizing below with
  | nil => rfl
  | cons next rest hypothesis =>
    have turned : (below :: next :: rest).reverse = (next :: rest).reverse ++ [below] :=
      List.reverse_cons
    rw [List.length_cons, List.modify_succ_cons, List.reverse_cons, hypothesis, turned]
    cases reversed : (next :: rest).reverse with
    | nil => simp at reversed
    | cons lowest upper => rfl

/-- Seen from the bottom, the first stack has the numbers beneath its own. -/
theorem toList_bedded (tower : Tower) (extra : List Number) :
    (tower.bedded extra).toList = tower.toList.modifyHead fun lowest => lowest.bedded extra := by
  cases under : tower.beneath with
  | nil => simp [bedded, toList, under]
  | cons below others =>
    have lowest := reverse_modify_last (fun lowest => lowest.bedded extra) tower.active
      (below :: others)
    rw [List.length_cons, List.modify_succ_cons] at lowest
    simp only [bedded, toList, under]
    exact lowest

/-- Changing the active stack does not disturb what is beneath. -/
theorem bedded_active (tower : Tower) (active : Stack) (extra : List Number) :
    { tower with active }.bedded extra =
      { tower.bedded extra with
        active := ⟨active.values ++ tower.bed extra, active.register⟩ } := by
  cases under : tower.beneath <;> simp [bedded, bed, under, Stack.bedded]

theorem withValues_bedded (tower : Tower) (values extra : List Number) :
    (tower.bedded extra).withValues (values ++ tower.bed extra) =
      (tower.withValues values).bedded extra := by
  have changed := tower.bedded_active ⟨values, tower.active.register⟩ extra
  simp only [withValues, register_bedded]
  exact changed.symm

theorem push_bedded (tower : Tower) (number : Number) (extra : List Number) :
    (tower.bedded extra).push number = (tower.push number).bedded extra := by
  have changed := tower.bedded_active (tower.active.push number) extra
  simp only [push, Stack.push, values_bedded, register_bedded]
  exact changed.symm

/-- A new stack takes its numbers from above. -/
theorem openStack_bedded {tower : Tower} {count : Nat} (enough : count ≤ tower.active.values.length)
    (extra : List Number) :
    (tower.bedded extra).openStack count = (tower.openStack count).bedded extra := by
  cases under : tower.beneath with
  | nil =>
    simp [openStack, bedded, under, Stack.bedded, List.take_append_of_le_length enough,
      List.drop_append_of_le_length enough]
  | cons below others => simp [openStack, bedded, under]

/-- Dropping a stack puts its numbers above. -/
theorem closeStack?_bedded {tower merged : Tower} (dropped : tower.closeStack? = some merged)
    (extra : List Number) : (tower.bedded extra).closeStack? = some (merged.bedded extra) := by
  unfold closeStack? at dropped
  split at dropped
  · cases dropped
  · rename_i below others under
    cases dropped
    cases others with
    | nil => simp [closeStack?, bedded, under, Stack.bedded]
    | cons next rest => simp [closeStack?, bedded, under]

end Tower

/-! ## Instructions -/

namespace Instruction

/-- Whether an instruction works on the whole of the active stack. -/
def spans : Instruction → Bool
  | length => true
  | reverse => true
  | shiftLeft => true
  | shiftRight => true
  | _ => false

/-- A change of the active stack that does not work on the whole of it does the same with numbers
beneath. -/
theorem reshape_bedded {instruction : Instruction} {change : Stack → Option Stack}
    (shape : instruction.reshape? = some change) {stack active : Stack}
    (changed : change stack = some active) {bed : List Number}
    (clear : instruction.spans = false ∨ bed = []) :
    change ⟨stack.values ++ bed, stack.register⟩ =
      some ⟨active.values ++ bed, active.register⟩ := by
  rcases clear with partly | rfl
  · obtain ⟨values, register⟩ := stack
    cases instruction <;> simp only [reshape?, Option.some.injEq, reduceCtorEq] at shape <;>
      subst shape
    case duplicate =>
      cases values <;> cases changed
      rfl
    case discard =>
      cases values <;> cases changed
      rfl
    case swap =>
      rcases values with _ | ⟨top, _ | ⟨second, rest⟩⟩ <;> cases changed
      rfl
    case rotate =>
      rcases values with _ | ⟨top, _ | ⟨second, _ | ⟨third, rest⟩⟩⟩ <;> cases changed
      rfl
    case register =>
      cases register <;> cases values <;> cases changed <;> rfl
    all_goals cases partly
  · simpa using changed

end Instruction

namespace Machine

/-- A machine with numbers put beneath those of its lowest stack. Its journal may be another one,
since a trace shows the numbers. -/
def bedded (machine : Machine) (extra : List Number) (journal : List String) : Machine :=
  { machine with tower := machine.tower.bedded extra, journal }

variable {machine after : Machine} {extra : List Number} {journal : List String}

theorem values_bedded {values : List Number} (held : machine.values = values) :
    (machine.bedded extra journal).values = values ++ machine.tower.bed extra := by
  subst held
  exact machine.tower.values_bedded extra

theorem withValues_bedded (machine : Machine) (values : List Number) :
    (machine.withValues values).bedded extra journal =
      (machine.bedded extra journal).withValues (values ++ machine.tower.bed extra) := by
  simp only [bedded, withValues, Tower.withValues_bedded]

theorem push_bedded (machine : Machine) (number : Number) :
    (machine.push number).bedded extra journal =
      (machine.bedded extra journal).push number := by
  simp only [bedded, push, Tower.push_bedded]

end Machine

/-- An instruction that completes does the same with numbers beneath, unless it works on the whole
of the only stack. -/
theorem Executes.bedded {machine after : Machine} {instruction : Instruction}
    (rule : Executes machine instruction (.done after))
    (clear : instruction.spans = false ∨ machine.tower.size ≠ 1) (extra : List Number)
    (journal : List String) :
    Executes (machine.bedded extra journal) instruction (.done (after.bedded extra journal)) := by
  cases rule with
  | rest => exact .rest
  | face heading => exact .face heading
  | wander drawn => exact .wander drawn
  | reflect mirror => exact .reflect mirror
  | skip => exact .skip
  | @skipped condition rest held zero =>
    show Executes _ _ (.done ((machine.withValues rest).bedded extra journal).advance)
    rw [Machine.withValues_bedded]
    exact .skipped (Machine.values_bedded held) zero
  | notSkipped held nonzero =>
    rw [Machine.withValues_bedded]
    exact .notSkipped (Machine.values_bedded held) nonzero
  | @jump column row rest held =>
    show Executes _ _ (.done { (machine.withValues rest).bedded extra journal with
      cursor := ⟨row.toInt, column.toInt⟩ })
    rw [Machine.withValues_bedded]
    exact .jump (Machine.values_bedded held)
  | literal digit =>
    rw [Machine.push_bedded]
    exact .literal digit
  | combine held applied =>
    rw [Machine.withValues_bedded]
    exact .combine (Machine.values_bedded held) applied
  | toggle quote => exact .toggle quote
  | @reshape _ change active shape changed =>
    have bare : instruction.spans = false ∨ machine.tower.bed extra = [] :=
      clear.imp_right fun nested => Tower.bed_of_nested nested extra
    have same := Instruction.reshape_bedded shape changed bare
    have whole : (machine.tower.bedded extra).active =
        ⟨machine.tower.active.values ++ machine.tower.bed extra,
          machine.tower.active.register⟩ := by
      rw [← Tower.values_bedded, ← Tower.register_bedded machine.tower extra]
    rw [← whole] at same
    have rule := @Executes.reshape (machine.bedded extra journal) _ _ _ shape same
    show Executes _ _ (.done { machine.bedded extra journal with
      tower := Tower.bedded { machine.tower with active } extra })
    rw [Tower.bedded_active]
    exact rule
  | length =>
    have alone := Tower.bed_of_nested (clear.resolve_left (by simp [Instruction.spans])) extra
    have same : (machine.bedded extra journal).values = machine.values := by
      rw [Machine.values_bedded rfl, alone, List.append_nil]
    rw [Machine.push_bedded, ← same]
    exact .length
  | @openStack count rest held enough =>
    have fits : count.toInt.toNat ≤ (machine.withValues rest).tower.active.values.length := by
      simp only [Number.canTakeFrom, Bool.and_eq_true, decide_eq_true_eq] at enough
      exact enough.2
    have more : count.canTakeFrom (rest ++ machine.tower.bed extra).length = true :=
      Number.canTakeFrom_mono (by simp) enough
    have under : (machine.bedded extra journal).values =
        count :: (rest ++ machine.tower.bed extra) := Machine.values_bedded held
    have rule := Executes.openStack under more
    rw [← Machine.withValues_bedded] at rule
    show Executes _ _ (.done { (machine.withValues rest).bedded extra journal with
      tower := ((machine.withValues rest).tower.openStack count.toInt.toNat).bedded extra })
    rw [← Tower.openStack_bedded fits]
    exact rule
  | closeStack merged => exact .closeStack (Tower.closeStack?_bedded merged extra)
  | @write instruction number rest piece output held prints taken =>
    show Executes _ _ (.done { (machine.withValues rest).bedded extra journal with output })
    rw [Machine.withValues_bedded]
    exact .write (Machine.values_bedded held) prints taken
  | readRune reading =>
    rw [Machine.push_bedded]
    exact .readRune reading
  | readNothing reading intact answered =>
    rw [Machine.push_bedded]
    exact .readNothing reading intact answered
  | fetch held =>
    rw [Machine.withValues_bedded]
    exact .fetch (Machine.values_bedded held)
  | @store row column number rest held =>
    show Executes _ _ (.done { (machine.withValues rest).bedded extra journal with
      box := machine.box.set ⟨row.toInt, column.toInt⟩ number })
    rw [Machine.withValues_bedded]
    exact .store (Machine.values_bedded held)
  | finish => exact .finish

namespace Machine

/-! ## Steps and turns -/

/-- Whether the step at a head executes an instruction that works on the whole of the only stack. -/
def SpansOnly (machine : Machine) : Prop :=
  machine.tower.size = 1 ∧
    (machine.Meets 'l' ∨ machine.Meets 'r' ∨ machine.Meets '{' ∨ machine.Meets '}')

instance (machine : Machine) : Decidable machine.SpansOnly := by
  unfold SpansOnly
  infer_instance

/-- An instruction that works on the whole of the only stack is one of the four. -/
theorem spansOnly_of_spans {machine : Machine} {instruction : Instruction}
    (whole : instruction.spans = true) (read : machine.takesLiterally machine.symbol = false)
    (found : Instruction.ofSymbol? machine.symbol = some instruction)
    (alone : machine.tower.size = 1) : machine.SpansOnly := by
  have acts : instruction ≠ .rest := by
    rintro rfl
    cases whole
  have meets := (machine.meets_iff instruction acts).mpr ⟨read, found⟩
  refine ⟨alone, ?_⟩
  cases instruction
  case length => exact .inl meets
  case reverse => exact .inr (.inl meets)
  case shiftLeft => exact .inr (.inr (.inl meets))
  case shiftRight => exact .inr (.inr (.inr meets))
  all_goals cases whole

/-- A step that completes does the same with numbers beneath. -/
theorem step_bedded {machine after : Machine} (stepped : machine.step machine.symbol = .done after)
    (clear : ¬ machine.SpansOnly) (extra : List Number) (journal : List String) :
    (machine.bedded extra journal).step machine.symbol = .done (after.bedded extra journal) := by
  have same : (machine.bedded extra journal).takesLiterally machine.symbol =
      machine.takesLiterally machine.symbol := rfl
  rcases machine.step_cases machine.symbol with
    ⟨literal, pushed⟩ | ⟨instruction, read, found, executed⟩ | ⟨_, _, invalid⟩
  · rw [pushed] at stepped
    cases stepped
    rw [push_bedded]
    exact if_pos (same.trans literal)
  · have partly : instruction.spans = false ∨ machine.tower.size ≠ 1 := by
      cases whole : instruction.spans with
      | false => exact .inl rfl
      | true => exact .inr fun alone => clear (spansOnly_of_spans whole read found alone)
    have rule := executes_iff.mpr (executed.symm.trans stepped)
    have underneath := executes_iff.mp (rule.bedded partly extra journal)
    simp only [step, same, read, found]
    exact underneath
  · rw [invalid] at stepped
    cases stepped

/-- A turn that completes its step does the same with numbers beneath. Without a trace, the journal
is the same too. -/
theorem act_bedded {machine : Machine} (completed : machine.completes = true)
    (clear : ¬ machine.SpansOnly) (extra : List Number) (journal : List String) :
    ∃ later, (machine.bedded extra journal).act = machine.act.map (·.bedded extra later) ∧
      (machine.tracing = false → journal = machine.journal →
        later = machine.act.machine.journal) := by
  obtain ⟨after, stepped⟩ := completes_iff.mp completed
  have underneath := step_bedded stepped clear extra journal
  have acted := (machine.bedded extra journal).act_eq
  rw [show (machine.bedded extra journal).symbol = machine.symbol from rfl, underneath] at acted
  refine ⟨((machine.bedded extra journal).settled (after.bedded extra journal)).journal, ?_, ?_⟩
  · rw [acted, act_eq, stepped]
    by_cases running : after.status = .running
    · simp only [running, if_true]
      exact if_pos running
    · simp only [running, if_false]
      exact if_neg running
  · intro untraced same
    have kept : machine.act.machine.journal = (machine.settled after).journal := by
      rw [act_eq, stepped]
      dsimp only
      split <;> rfl
    have unwritten : (machine.bedded extra journal).tracing = false := untraced
    simp only [kept, settled, untraced, unwritten]
    exact same

theorem turn_bedded {machine : Machine} {cancelled : Bool}
    (fine : machine.Fetches cancelled → machine.completes = true ∧ ¬ machine.SpansOnly)
    (extra : List Number) (journal : List String) :
    ∃ later, (machine.bedded extra journal).turn cancelled =
        (machine.turn cancelled).map (·.bedded extra later) ∧
      (machine.tracing = false → journal = machine.journal →
        later = (machine.turn cancelled).machine.journal) := by
  by_cases fetches : machine.Fetches cancelled
  · obtain ⟨completed, clear⟩ := fine fetches
    have fetched : (machine.bedded extra journal).Fetches cancelled := fetches
    rw [turn_eq_act fetches.1 fetches.2.1 fetches.2.2,
      turn_eq_act fetched.1 fetched.2.1 fetched.2.2]
    exact act_bedded completed clear extra journal
  · obtain ⟨stop, turned, underneath⟩ :=
      turns_of_not_fetches fetches (machine.bedded extra journal) rfl rfl rfl
    rw [turned, underneath]
    exact ⟨journal, rfl, fun _ same => same⟩

/-- A turn that goes on keeps the wish for a trace. -/
theorem tracing_of_turn_next {cancelled : Bool} {machine after : Machine}
    (turned : machine.turn cancelled = .next after) : after.tracing = machine.tracing := by
  obtain ⟨_, _, acted⟩ := act_of_turn_next turned
  obtain ⟨_, _, _, rfl⟩ := step_of_act_next acted
  rfl

/-! ## Runs -/

/-- Whether two heads differ in the numbers beneath and the journal, and the step at the second
completes. -/
def BeddedHead (extra : List Number) (head other : Machine) : Prop :=
  other.completes = true ∧ ∃ journal, other = head.bedded extra journal

theorem beddedHead {machine : Machine} (completed : machine.completes = true)
    (clear : ¬ machine.SpansOnly) (extra : List Number) (journal : List String) :
    machine.BeddedHead extra (machine.bedded extra journal) := by
  obtain ⟨after, stepped⟩ := completes_iff.mp completed
  exact ⟨completes_iff.mpr ⟨_, step_bedded stepped clear extra journal⟩, journal, rfl⟩

/-- A run whose steps complete goes the same way with numbers beneath, from head to head. -/
theorem runUnder_bedded {machine : Machine} {contexts : List Bool}
    (fine : ∀ head ∈ machine.executed contexts, head.completes = true ∧ ¬ head.SpansOnly)
    (extra : List Number) (journal : List String) :
    ∃ later, (machine.bedded extra journal).runUnder contexts =
        (machine.runUnder contexts).map (·.bedded extra later) ∧
      (machine.tracing = false → journal = machine.journal →
        later = (machine.runUnder contexts).machine.journal) ∧
      List.Forall₂ (BeddedHead extra) (machine.executed contexts)
        ((machine.bedded extra journal).executed contexts) := by
  induction contexts generalizing machine journal with
  | nil => exact ⟨journal, rfl, fun _ same => same, .nil⟩
  | cons cancelled contexts hypothesis =>
    have first := fun fetches => fine machine (mem_executed_of_fetches fetches contexts)
    obtain ⟨later, lifted, kept⟩ := turn_bedded first extra journal
    cases turned : machine.turn cancelled with
    | stop stop after =>
      rw [turned] at lifted kept
      rw [runUnder_of_stop turned, runUnder_of_stop lifted, executed_of_stop turned,
        executed_of_stop lifted]
      refine ⟨later, rfl, kept, ?_⟩
      by_cases fetches : machine.Fetches cancelled
      · have fetched : (machine.bedded extra journal).Fetches cancelled := fetches
        rw [if_pos fetches, if_pos fetched]
        exact .cons (beddedHead (first fetches).1 (first fetches).2 extra journal) .nil
      · have held : ¬ (machine.bedded extra journal).Fetches cancelled := fetches
        rw [if_neg fetches, if_neg held]
        exact .nil
    | next after =>
      rw [turned] at lifted kept
      rw [executed_of_next turned] at fine
      obtain ⟨last, same, keeps, heads⟩ :=
        hypothesis (fun head member => fine head (List.mem_cons_of_mem _ member)) later
      rw [runUnder_of_next turned, runUnder_of_next lifted, executed_of_next turned,
        executed_of_next lifted]
      refine ⟨last, same, fun untraced equal => ?_, .cons ?_ heads⟩
      · exact keeps ((tracing_of_turn_next turned).trans untraced) (kept untraced equal)
      · obtain ⟨completed, clear⟩ := fine machine List.mem_cons_self
        exact beddedHead completed clear extra journal

/-! ## Main statement -/

/-- Numbers put beneath those of the lowest stack do not disturb a program, whatever its context
does, if every step that it executes completes and none of them works on the whole of the only
stack. With them the run executes as many steps, each from the same head but for them, completes
every one, and comes to the same machine but for them, for the same reason if it stops. What it
reads and writes is a part of that machine. A trace shows the numbers, so the journal may differ if
one is wanted. -/
theorem numbers_beneath_leave_program_undisturbed {machine : Machine} {contexts : List Bool}
    (fine : ∀ head ∈ machine.executed contexts, head.completes = true ∧ ¬ head.SpansOnly)
    (extra : List Number) :
    (∃ journal, (machine.bedded extra machine.journal).runUnder contexts =
        (machine.runUnder contexts).map (·.bedded extra journal) ∧
      (machine.tracing = false → journal = (machine.runUnder contexts).machine.journal)) ∧
    List.Forall₂ (BeddedHead extra) (machine.executed contexts)
      ((machine.bedded extra machine.journal).executed contexts) ∧
    (machine.bedded extra machine.journal).tower.toList =
      machine.tower.toList.modifyHead fun lowest =>
        ⟨lowest.values ++ extra.reverse, lowest.register⟩ := by
  obtain ⟨journal, same, kept, heads⟩ := runUnder_bedded fine extra machine.journal
  exact ⟨⟨journal, same, fun untraced => kept untraced rfl⟩, heads,
    machine.tower.toList_bedded extra⟩

/-- A program that measures a stack of its own, adds what it finds to a number and prints the sum,
with two other numbers beneath. -/
theorem adding_program_undisturbed_by_two_numbers :
    ∃ machine : Machine,
      machine = { start (.ofRows ["1[l]+n;".toList]) (.ofDraws [0]) with
        tower := ⟨⟨[5], none⟩, []⟩
        output := ⟨some ⟨none, "", true, true, none⟩, [], 0⟩ } ∧
      (∀ head ∈ machine.executed (List.replicate 7 false),
        head.completes = true ∧ ¬ head.SpansOnly) ∧
      (machine.run false 7).machine.status = .halted ∧
      (machine.run false 7).machine.output.text = "6" ∧
      (machine.bedded [8, 9] machine.journal).run false 7 =
        (machine.run false 7).map (·.bedded [8, 9] (machine.run false 7).machine.journal) := by
  refine ⟨_, rfl, ?_⟩
  generalize known : { start (.ofRows ["1[l]+n;".toList]) (.ofDraws [0]) with
    tower := ⟨⟨[5], none⟩, []⟩
    output := ⟨some ⟨none, "", true, true, none⟩, [], 0⟩ } = machine
  obtain ⟨fine, untraced, halted, printed⟩ :
      (∀ head ∈ machine.executed (List.replicate 7 false),
        head.completes = true ∧ ¬ head.SpansOnly) ∧ machine.tracing = false ∧
      (machine.run false 7).machine.status = .halted ∧
      (machine.run false 7).machine.output.text = "6" := by
    subst known
    decide +kernel
  obtain ⟨⟨journal, same, kept⟩, _⟩ := numbers_beneath_leave_program_undisturbed fine [8, 9]
  rw [kept untraced, ← run_eq_runUnder, ← run_eq_runUnder] at same
  exact ⟨fine, halted, printed, same⟩

end Machine

end Aquarium
