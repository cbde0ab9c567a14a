import Aquarium.CodeBox.Source
import Aquarium.Proofs.Running
import Aquarium.Proofs.Symbols

/-!
# What a failed step leaves behind

A step that fails has checked before it changes anything. All that it may have done is take numbers
from the active stack, and `Failure.cost` says how many by the failure alone. `Machine.Spared` lists
what it leaves as it was, and the main statement places such a step in a run: the run ends there,
and a run that ends with a failure ends there.
-/

namespace Aquarium

/-- How many numbers are gone from the active stack after a step that failed, given the symbol and
how many numbers there were. The count of a new stack is taken before it is found too large. -/
def Failure.cost (symbol : Int) (held : Nat) : Failure → Nat
  | fault .divisionByZero => 2
  | fault .notACharacter => 1
  | writing _ => 1
  | fault .underflow => if symbol = '['.toNat ∧ 0 < held then 1 else 0
  | fault .invalidInstruction => 0
  | fault .lastStack => 0
  | reading _ => 0

namespace Machine

/-- What is the same in two machines of which the second is the first after a failed step, and by
how many numbers its active stack is shorter. -/
structure Spared (before after : Machine) (lost : Nat) : Prop where
  cursor : after.cursor = before.cursor
  heading : after.heading = before.heading
  quoting : after.quoting = before.quoting
  count : after.count = before.count
  box : after.box = before.box
  compass : after.compass = before.compass
  output : after.output = before.output
  depth : after.tower.size = before.tower.size
  beneath : after.tower.beneath = before.tower.beneath
  register : after.tower.active.register = before.tower.active.register
  shorter : ∃ gone, gone.length = lost ∧
    before.tower.active.toList = after.tower.active.toList ++ gone

/-- A machine without some of its numbers is otherwise the same. -/
theorem spared_withValues {machine : Machine} {gone rest : List Number}
    (held : machine.values = gone ++ rest) :
    machine.Spared (machine.withValues rest) gone.length where
  cursor := rfl
  heading := rfl
  quoting := rfl
  count := rfl
  box := rfl
  compass := rfl
  output := rfl
  depth := rfl
  beneath := rfl
  register := rfl
  shorter := by
    refine ⟨gone.reverse, by simp, ?_⟩
    have stack : machine.tower.active.values = gone ++ rest := held
    simp [Stack.toList, stack, withValues, Tower.withValues]

/-- A machine that has only read is otherwise the same. -/
theorem spared_of_read (machine : Machine) (input : Input) (closed : List Nat) :
    machine.Spared { machine with input, closed } 0 where
  cursor := rfl
  heading := rfl
  quoting := rfl
  count := rfl
  box := rfl
  compass := rfl
  output := rfl
  depth := rfl
  beneath := rfl
  register := rfl
  shorter := ⟨[], rfl, by simp⟩

/-- Numbers are missing at the bracket only if there are none. -/
theorem cost_of_lacking {machine : Machine} {instruction : Instruction} {symbol : Int}
    (stands : Instruction.ofSymbol? symbol = some instruction)
    (lacking : machine.values.length < instruction.demand machine.tower.active) :
    (Failure.fault .underflow).cost symbol machine.values.length = 0 := by
  unfold Failure.cost
  rw [if_neg]
  rintro ⟨rfl, present⟩
  have bracket : Instruction.ofSymbol? '['.toNat = some .openStack := by decide
  rw [bracket] at stands
  cases stands
  simp only [Instruction.demand] at lacking
  omega

/-- What a failed instruction leaves behind. -/
theorem spared_of_execute_failed {machine after : Machine} {instruction : Instruction}
    {failure : Failure} {symbol : Int} (stands : Instruction.ofSymbol? symbol = some instruction)
    (failed : machine.execute instruction = .failed failure after) :
    machine.Spared after (failure.cost symbol machine.values.length) := by
  cases executes_iff.mpr failed with
  | underflow lacking =>
    rw [cost_of_lacking stands lacking]
    exact machine.spared_of_read machine.input machine.closed
  | @countTooLarge count rest held short =>
    have bracket := Instruction.ofSymbol?_eq_some_iff.mp stands
    have cost : (Failure.fault .underflow).cost symbol machine.values.length = 1 := by
      rcases bracket with code | ⟨_, other⟩
      · simp [Failure.cost, held, code, Instruction.character]
      · cases other
    rw [cost]
    exact spared_withValues (show machine.values = [count] ++ rest from held)
  | @divideByZero operator right left rest held undefined =>
    exact spared_withValues (show machine.values = [right, left] ++ rest from held)
  | lastStack alone => exact machine.spared_of_read machine.input machine.closed
  | @notACharacter number rest held foreign =>
    exact spared_withValues (show machine.values = [number] ++ rest from held)
  | @refuse _ number rest piece cause held prints refused =>
    exact spared_withValues (show machine.values = [number] ++ rest from held)
  | readBroken reading => exact machine.spared_of_read _ _

/-- What a failed step leaves behind. -/
theorem spared_of_step_failed {machine after : Machine} {failure : Failure} {symbol : Int}
    (failed : machine.step symbol = .failed failure after) :
    machine.Spared after (failure.cost symbol machine.values.length) := by
  rcases machine.step_cases symbol with
    ⟨_, stepped⟩ | ⟨instruction, _, stands, stepped⟩ | ⟨_, _, stepped⟩
  · rw [stepped] at failed
    cases failed
  · rw [stepped] at failed
    exact spared_of_execute_failed stands failed
  · rw [stepped] at failed
    cases failed
    exact machine.spared_of_read machine.input machine.closed

/-- Marking the machine as faulted, with the step written down, changes none of this. -/
theorem Spared.faulted {before after : Machine} {lost : Nat} (spared : before.Spared after lost) :
    before.Spared { after.withLedger before.noted with status := .faulted } lost where
  cursor := spared.cursor
  heading := spared.heading
  quoting := spared.quoting
  count := rfl
  box := spared.box
  compass := spared.compass
  output := spared.output
  depth := spared.depth
  beneath := spared.beneath
  register := spared.register
  shorter := spared.shorter

/-- Whether a run that has come to a head fetches the symbol there: nothing holds its turn up. -/
def Fetches (machine : Machine) (cancelled : Bool) : Prop :=
  machine.status = .running ∧ machine.polls cancelled = false ∧ machine.atLimit = false

/-- A turn that stops for a failure has fetched the symbol and failed at it. -/
theorem step_failed_of_turn {cancelled : Bool} {machine after : Machine} {site : Site}
    {failure : Failure} (turned : machine.turn cancelled = .stop (.failed site failure) after) :
    machine.Fetches cancelled ∧ site = machine.site machine.symbol ∧
      ∃ left, machine.step machine.symbol = .failed failure left ∧
        after = { left.withLedger machine.noted with status := .faulted } := by
  rcases machine.turn_held_or_acts cancelled with
    ⟨_, held, intact⟩ | ⟨running, unpolled, below, acted⟩
  · rw [held] at turned
    cases turned
    exact absurd rfl (intact.1 site failure)
  · rw [acted] at turned
    rcases machine.act_cases with
      ⟨_, _, _, went⟩ | ⟨_, _, _, halted⟩ | ⟨_, left, failed, stopped⟩ | ⟨_, _, stuck⟩
    · rw [went] at turned
      cases turned
    · rw [halted] at turned
      cases turned
    · rw [stopped] at turned
      cases turned
      exact ⟨⟨running, unpolled, below⟩, rfl, left, failed, rfl⟩
    · rw [stuck] at turned
      cases turned

/-- A turn that fetches a symbol and fails at it stops. -/
theorem turn_of_step_failed {cancelled : Bool} {machine left : Machine} {failure : Failure}
    (fetches : machine.Fetches cancelled)
    (failed : machine.step machine.symbol = .failed failure left) :
    machine.turn cancelled = .stop (.failed (machine.site machine.symbol) failure)
      { left.withLedger machine.noted with status := .faulted } := by
  obtain ⟨running, unpolled, below⟩ := fetches
  rw [turn_eq_act running unpolled below]
  rcases machine.act_cases with ⟨_, done, _⟩ | ⟨_, done, _⟩ | ⟨_, _, again, stopped⟩ | ⟨_, waits, _⟩
  · rw [failed] at done
    cases done
  · rw [failed] at done
    cases done
  · rw [failed] at again
    cases again
    exact stopped
  · rw [failed] at waits
    cases waits

/-- At every head of a run, whatever its context: if the symbol fetched there fails, the run ends
with the machine faulted and otherwise spared, its active stack shorter by exactly what the failure
costs. And every run that ends with a failure ends so, at its last head. -/
theorem failing_step_spares_machine (machine : Machine) (cancelled : Bool) :
    (∀ turns before failure left, machine.run cancelled turns = .going before →
      before.Fetches cancelled → before.step before.symbol = .failed failure left →
      ∃ after,
        (∀ more, machine.run cancelled (turns + 1 + more) =
          .stopped (.failed (before.site before.symbol) failure) after) ∧
        after.status = .faulted ∧
        before.Spared after (failure.cost before.symbol before.values.length)) ∧
    ∀ turns site failure after,
      machine.run cancelled turns = .stopped (.failed site failure) after →
      ∃ earlier before left, earlier < turns ∧ machine.run cancelled earlier = .going before ∧
        before.Fetches cancelled ∧ before.step before.symbol = .failed failure left ∧
        site = before.site before.symbol ∧ after.status = .faulted ∧
        before.Spared after (failure.cost before.symbol before.values.length) := by
  constructor
  · intro turns before failure left going fetches failed
    have turned := turn_of_step_failed fetches failed
    refine ⟨_, fun more => ?_, rfl, (spared_of_step_failed failed).faulted⟩
    rw [Nat.add_assoc, run_add_of_going going, Nat.add_comm 1 more]
    exact run_of_stop turned more
  · intro turns site failure after stopped
    obtain ⟨earlier, before, bound, going, turned⟩ := exists_head_of_stopped stopped
    obtain ⟨fetches, rfl, left, failed, rfl⟩ := step_failed_of_turn turned
    exact ⟨earlier, before, left, bound, going, fetches, failed, rfl, rfl,
      (spared_of_step_failed failed).faulted⟩

/-- A division by zero ends a run and costs both numbers. -/
theorem failing_division_spares_machine :
    ∃ machine after site,
      machine = (start (.ofRows [[',']]) (.ofDraws [0])).withValues [0, 1] ∧
        machine.Fetches false ∧
        machine.run false 1 = .stopped (.failed site (.fault .divisionByZero)) after ∧
        after.status = .faulted ∧ machine.Spared after 2 := by
  refine ⟨(start (.ofRows [[',']]) (.ofDraws [0])).withValues [0, 1], ?_⟩
  generalize known : (start (.ofRows [[',']]) (.ofDraws [0])).withValues [0, 1] = machine
  have fetches : machine.Fetches false := by
    subst known
    exact ⟨rfl, rfl, rfl⟩
  have failed : machine.step machine.symbol =
      .failed (.fault .divisionByZero) (machine.withValues []) := by
    have symbol : machine.symbol = 44 := by
      subst known
      decide +kernel
    rw [symbol]
    subst known
    rfl
  obtain ⟨after, stopped, faulted, spared⟩ :=
    (failing_step_spares_machine machine false).1 0 machine _ _ rfl fetches failed
  have two : machine.Spared after 2 := spared
  exact ⟨after, _, rfl, fetches, stopped 0, faulted, two⟩

end Machine

end Aquarium
