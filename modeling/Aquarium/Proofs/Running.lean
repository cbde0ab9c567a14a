import Aquarium.Machine.Run
import Aquarium.Proofs.Execution

/-!
# Turns and runs

A turn that is not held up by the status, a cancellation or the limit comes down to `Machine.act`:
fetch the symbol, execute it, count it and move on. `act_cases` expresses it by the step that is
executed, and `Machine.Ends` is a run that is never cancelled, seen from outside: it stops after
some number of turns.

`Turns` is the path of a run whatever its context does: each turn may find the context cancelled or
not. Its states are the heads of the loop.
-/

namespace Aquarium

/-- The same turn with other machines. -/
def Turn.map (change : Machine → Machine) : Turn → Turn
  | .stop reason machine => .stop reason (change machine)
  | .next machine => .next (change machine)

namespace Machine

/-! ## One turn -/

/-- A turn that nothing holds up: the symbol under the cursor is executed. -/
def act (machine : Machine) : Turn :=
  match (machine.noteStep machine.symbol).step machine.symbol with
  | .done after => after.complete
  | .failed failure after =>
    .stop (.failed (machine.site machine.symbol) failure) { after with status := .faulted }
  | .stuck after => .stop .stuck after

/-- Whether a turn finds out that the run is cancelled. -/
def polls (machine : Machine) (cancelled : Bool) : Bool :=
  cancelled && machine.count % pollInterval = 0

theorem turn_eq (cancelled : Bool) (machine : Machine) :
    machine.turn cancelled =
      if machine.status ≠ .running then .stop (.notRunning machine.status) machine
      else if machine.polls cancelled then .stop .cancelled machine
      else if machine.atLimit then .stop .limitReached machine
      else machine.act := rfl

/-- What may hold a turn up, in the order in which it is looked at. -/
theorem turn_cases (cancelled : Bool) (machine : Machine) :
    machine.status ≠ .running ∧
        machine.turn cancelled = .stop (.notRunning machine.status) machine ∨
      machine.status = .running ∧ machine.polls cancelled = true ∧
        machine.turn cancelled = .stop .cancelled machine ∨
      machine.status = .running ∧ machine.polls cancelled = false ∧ machine.atLimit = true ∧
        machine.turn cancelled = .stop .limitReached machine ∨
      machine.status = .running ∧ machine.polls cancelled = false ∧ machine.atLimit = false ∧
        machine.turn cancelled = machine.act := by
  rw [turn_eq]
  by_cases running : machine.status = .running
  · cases polled : machine.polls cancelled with
    | true => exact .inr (.inl ⟨running, rfl, by simp [running]⟩)
    | false =>
      cases limited : machine.atLimit with
      | true => exact .inr (.inr (.inl ⟨running, rfl, rfl, by simp [running]⟩))
      | false => exact .inr (.inr (.inr ⟨running, rfl, rfl, by simp [running]⟩))
  · exact .inl ⟨running, by simp [running]⟩

/-- A turn that is held up leaves the machine as it is, does not fail and is not stuck. -/
theorem turn_held_or_acts (cancelled : Bool) (machine : Machine) :
    (∃ stop, machine.turn cancelled = .stop stop machine ∧
        (∀ site failure, stop ≠ .failed site failure) ∧ stop ≠ .stuck) ∨
      machine.status = .running ∧ machine.polls cancelled = false ∧ machine.atLimit = false ∧
        machine.turn cancelled = machine.act := by
  rcases machine.turn_cases cancelled with ⟨_, held⟩ | ⟨_, _, held⟩ | ⟨_, _, _, held⟩ | acts
  · exact .inl ⟨_, held, by simp⟩
  · exact .inl ⟨_, held, by simp⟩
  · exact .inl ⟨_, held, by simp⟩
  · exact .inr acts

/-- A turn of a machine that is running, not cancelled and below its limit. -/
theorem turn_eq_act {cancelled : Bool} {machine : Machine} (running : machine.status = .running)
    (unpolled : machine.polls cancelled = false) (below : machine.atLimit = false) :
    machine.turn cancelled = machine.act := by
  rcases machine.turn_cases cancelled with
    ⟨stopped, _⟩ | ⟨_, polled, _⟩ | ⟨_, _, limited, _⟩ | ⟨_, _, _, acted⟩
  · exact absurd running stopped
  · rw [unpolled] at polled
    cases polled
  · rw [below] at limited
    cases limited
  · exact acted

/-- A turn that goes on was held up by nothing. -/
theorem act_of_turn_next {cancelled : Bool} {machine after : Machine}
    (turned : machine.turn cancelled = .next after) :
    machine.status = .running ∧ machine.atLimit = false ∧ machine.act = .next after := by
  rcases machine.turn_held_or_acts cancelled with ⟨_, held, _⟩ | ⟨running, _, below, acted⟩
  · rw [held] at turned
    cases turned
  · exact ⟨running, below, acted ▸ turned⟩

/-- The ledger with the step about to be executed written down. -/
def noted (machine : Machine) : Ledger where
  count := machine.count
  limit := machine.limit
  tracing := machine.tracing
  journal :=
    if machine.tracing then machine.stepNote machine.symbol :: machine.journal
    else machine.journal

/-- The ledger with a completed step counted, and the stack it left written down. -/
def settled (machine after : Machine) : Ledger where
  count := machine.count + 1
  limit := machine.limit
  tracing := machine.tracing
  journal :=
    if machine.tracing then
      after.stackNote :: machine.stepNote machine.symbol :: machine.journal
    else machine.journal

/-- Writing the step down changes nothing about it. -/
theorem step_noteStep (machine : Machine) :
    (machine.noteStep machine.symbol).step machine.symbol =
      (machine.step machine.symbol).map (·.withLedger machine.noted) := by
  have written : machine.noteStep machine.symbol = machine.withLedger machine.noted := by
    unfold noteStep
    split
    · rename_i wanted
      simp only [withLedger, noted, if_pos wanted]
    · rename_i unwanted
      simp only [withLedger, noted, if_neg unwanted]
  rw [written, step_withLedger]

/-- A completed step ends the turn with the program, or with the next cell. -/
theorem complete_withLedger_noted (machine after : Machine) :
    (after.withLedger machine.noted).complete =
      if after.status = .running then .next (after.withLedger (machine.settled after)).advance
      else .stop .halted (after.withLedger (machine.settled after)) := by
  have counted : { (after.withLedger machine.noted).noteStack with
      count := machine.count + 1 } = after.withLedger (machine.settled after) := by
    cases tracing : machine.tracing <;>
      simp [noteStack, noted, settled, withLedger, stackNote, tracing]
  unfold complete
  rw [show (after.withLedger machine.noted).count = machine.count from rfl, counted]
  rfl

/-- What a turn that nothing holds up does with the end of its step. -/
theorem act_eq (machine : Machine) :
    machine.act =
      match machine.step machine.symbol with
      | .done after =>
        if after.status = .running then .next (after.withLedger (machine.settled after)).advance
        else .stop .halted (after.withLedger (machine.settled after))
      | .failed failure after =>
        .stop (.failed (machine.site machine.symbol) failure)
          { after.withLedger machine.noted with status := .faulted }
      | .stuck after => .stop .stuck (after.withLedger machine.noted) := by
  unfold act
  rw [step_noteStep]
  cases machine.step machine.symbol with
  | done after => exact machine.complete_withLedger_noted after
  | failed failure after => rfl
  | stuck after => rfl

/-- What a turn that nothing holds up does, by how its step ends. -/
theorem act_cases (machine : Machine) :
    (∃ after, machine.step machine.symbol = .done after ∧ after.status = .running ∧
        machine.act = .next (after.withLedger (machine.settled after)).advance) ∨
      (∃ after, machine.step machine.symbol = .done after ∧ after.status ≠ .running ∧
        machine.act = .stop .halted (after.withLedger (machine.settled after))) ∨
      (∃ failure after, machine.step machine.symbol = .failed failure after ∧
        machine.act = .stop (.failed (machine.site machine.symbol) failure)
          { after.withLedger machine.noted with status := .faulted }) ∨
      ∃ after, machine.step machine.symbol = .stuck after ∧
        machine.act = .stop .stuck (after.withLedger machine.noted) := by
  have acted := machine.act_eq
  cases stepped : machine.step machine.symbol with
  | done after =>
    rw [stepped] at acted
    by_cases running : after.status = .running
    · exact .inl ⟨after, rfl, running, acted.trans (if_pos running)⟩
    · exact .inr (.inl ⟨after, rfl, running, acted.trans (if_neg running)⟩)
  | failed failure after =>
    rw [stepped] at acted
    exact .inr (.inr (.inl ⟨failure, after, rfl, acted⟩))
  | stuck after =>
    rw [stepped] at acted
    exact .inr (.inr (.inr ⟨after, rfl, acted⟩))

/-- A turn that goes on counts one step, and leaves the machine running under the same limit. -/
theorem act_next {machine after : Machine} (acted : machine.act = .next after) :
    after.count = machine.count + 1 ∧ after.limit = machine.limit ∧ after.status = .running := by
  rcases machine.act_cases with
    ⟨done, _, running, went⟩ | ⟨done, _, _, halted⟩ | ⟨_, _, _, failed⟩ | ⟨_, _, stuck⟩
  · rw [went] at acted
    cases acted
    exact ⟨rfl, rfl, running⟩
  · rw [halted] at acted
    cases acted
  · rw [failed] at acted
    cases acted
  · rw [stuck] at acted
    cases acted

/-- A turn that nothing holds up stops for the program only, or in a read. -/
theorem act_stop {machine after : Machine} {stop : Stop} (acted : machine.act = .stop stop after) :
    stop = .halted ∨ (∃ failure, stop = .failed (machine.site machine.symbol) failure) ∨
      stop = .stuck := by
  rcases machine.act_cases with
    ⟨done, _, _, went⟩ | ⟨done, _, _, halted⟩ | ⟨failure, _, _, failed⟩ | ⟨_, _, stuck⟩
  · rw [went] at acted
    cases acted
  · rw [halted] at acted
    cases acted
    exact .inl rfl
  · rw [failed] at acted
    cases acted
    exact .inr (.inl ⟨failure, rfl⟩)
  · rw [stuck] at acted
    cases acted
    exact .inr (.inr rfl)

/-! ## Runs -/

theorem run_of_stop {cancelled : Bool} {machine after : Machine} {stop : Stop}
    (turned : machine.turn cancelled = .stop stop after) (turns : Nat) :
    machine.run cancelled (turns + 1) = .stopped stop after := by
  simp only [run, turned]

theorem run_of_next {cancelled : Bool} {machine after : Machine}
    (turned : machine.turn cancelled = .next after) (turns : Nat) :
    machine.run cancelled (turns + 1) = after.run cancelled turns := by
  simp only [run, turned]

/-- A run goes on from the head that it has come to. -/
theorem run_add_of_going {cancelled : Bool} {machine head : Machine} {turns : Nat}
    (going : machine.run cancelled turns = .going head) (more : Nat) :
    machine.run cancelled (turns + more) = head.run cancelled more := by
  induction turns generalizing machine with
  | zero =>
    cases going
    rw [Nat.zero_add]
  | succ turns hypothesis =>
    rw [show turns + 1 + more = turns + more + 1 by omega]
    cases turned : machine.turn cancelled with
    | stop stop after =>
      rw [run_of_stop turned] at going
      cases going
    | next after =>
      rw [run_of_next turned] at going ⊢
      exact hypothesis going

/-- One head later, a run has taken one turn more. -/
theorem run_succ_eq_going_iff {cancelled : Bool} {machine head : Machine} {turns : Nat} :
    machine.run cancelled (turns + 1) = .going head ↔
      ∃ earlier, machine.run cancelled turns = .going earlier ∧
        earlier.turn cancelled = .next head := by
  constructor
  · intro going
    induction turns generalizing machine with
    | zero =>
      cases turned : machine.turn cancelled with
      | stop stop after =>
        rw [run_of_stop turned] at going
        cases going
      | next after =>
        rw [run_of_next turned] at going
        cases going
        exact ⟨machine, rfl, turned⟩
    | succ turns hypothesis =>
      cases turned : machine.turn cancelled with
      | stop stop after =>
        rw [run_of_stop turned] at going
        cases going
      | next after =>
        rw [run_of_next turned] at going ⊢
        exact hypothesis going
  · rintro ⟨earlier, going, turned⟩
    rw [run_add_of_going going, run_of_next turned]
    rfl

/-- A run that is still going has counted each turn, and goes on under the same limit. -/
theorem count_of_going {cancelled : Bool} {machine head : Machine} {turns : Nat}
    (running : machine.status = .running)
    (going : machine.run cancelled turns = .going head) :
    head.count = machine.count + turns ∧ head.limit = machine.limit ∧
      head.status = .running := by
  induction turns generalizing head with
  | zero =>
    cases going
    exact ⟨rfl, rfl, running⟩
  | succ turns hypothesis =>
    obtain ⟨earlier, went, turned⟩ := run_succ_eq_going_iff.mp going
    obtain ⟨counted, kept, _⟩ := hypothesis went
    obtain ⟨_, _, acted⟩ := act_of_turn_next turned
    obtain ⟨next, limited, stillRunning⟩ := act_next acted
    exact ⟨by omega, limited.trans kept, stillRunning⟩

/-- A run that has stopped does not change any more. -/
theorem run_add_of_stopped {cancelled : Bool} {machine after : Machine} {stop : Stop} {turns : Nat}
    (stopped : machine.run cancelled turns = .stopped stop after) (more : Nat) :
    machine.run cancelled (turns + more) = .stopped stop after := by
  induction turns generalizing machine with
  | zero => cases stopped
  | succ turns hypothesis =>
    rw [show turns + 1 + more = turns + more + 1 by omega]
    cases turned : machine.turn cancelled with
    | stop stop after =>
      rw [run_of_stop turned] at stopped ⊢
      exact stopped
    | next after =>
      rw [run_of_next turned] at stopped ⊢
      exact hypothesis stopped

/-- A run that has stopped did so at the last head it had come to. -/
theorem exists_head_of_stopped {cancelled : Bool} {machine after : Machine} {stop : Stop}
    {turns : Nat} (stopped : machine.run cancelled turns = .stopped stop after) :
    ∃ earlier head, earlier < turns ∧ machine.run cancelled earlier = .going head ∧
      head.turn cancelled = .stop stop after := by
  induction turns generalizing machine with
  | zero => cases stopped
  | succ turns hypothesis =>
    cases turned : machine.turn cancelled with
    | stop reason last =>
      rw [run_of_stop turned] at stopped
      cases stopped
      exact ⟨0, machine, by omega, rfl, turned⟩
    | next next =>
      rw [run_of_next turned] at stopped
      obtain ⟨earlier, head, bound, going, ended⟩ := hypothesis stopped
      exact ⟨earlier + 1, head, by omega, by rw [run_of_next turned]; exact going, ended⟩

/-- A run under a context that is never cancelled goes no further, for a reason and with a
machine. -/
def Ends (machine : Machine) (stop : Stop) (after : Machine) : Prop :=
  ∃ turns, machine.run false turns = .stopped stop after

theorem Ends.of_stop {machine after : Machine} {stop : Stop}
    (turned : machine.turn false = .stop stop after) : machine.Ends stop after :=
  ⟨1, run_of_stop turned 0⟩

theorem Ends.of_next {machine next after : Machine} {stop : Stop}
    (turned : machine.turn false = .next next) (ended : next.Ends stop after) :
    machine.Ends stop after := by
  obtain ⟨turns, stopped⟩ := ended
  exact ⟨turns + 1, (run_of_next turned turns).trans stopped⟩

/-- A run ends as it does from any head that it comes to. -/
theorem ends_iff_of_going {machine head after : Machine} {stop : Stop} {turns : Nat}
    (going : machine.run false turns = .going head) :
    machine.Ends stop after ↔ head.Ends stop after := by
  constructor
  · rintro ⟨total, stopped⟩
    have later := run_add_of_stopped stopped turns
    rw [Nat.add_comm, run_add_of_going going] at later
    exact ⟨total, later⟩
  · rintro ⟨more, stopped⟩
    exact ⟨turns + more, (run_add_of_going going more).trans stopped⟩

/-- A run ends in one way only. -/
theorem Ends.unique {machine first second : Machine} {stop reason : Stop}
    (left : machine.Ends stop first) (right : machine.Ends reason second) :
    stop = reason ∧ first = second := by
  obtain ⟨few, stopped⟩ := left
  obtain ⟨many, again⟩ := right
  have both := run_add_of_stopped stopped many
  rw [Nat.add_comm, run_add_of_stopped again few] at both
  cases both
  exact ⟨rfl, rfl⟩

/-! ## Heads of the loop -/

/-- A run comes from one machine to another by turns that go on. The context of a run may be
cancelled at any time, so each turn looks at it anew. -/
inductive Turns (machine : Machine) : Machine → Prop where
  | start : Turns machine machine
  | next {head after : Machine} {cancelled : Bool} (earlier : Turns machine head)
      (turned : head.turn cancelled = .next after) : Turns machine after

/-- A run under a context that does not change comes to its heads by turns. -/
theorem turns_of_going {cancelled : Bool} {machine head : Machine} {turns : Nat}
    (going : machine.run cancelled turns = .going head) : Turns machine head := by
  induction turns generalizing head with
  | zero =>
    cases going
    exact .start
  | succ turns hypothesis =>
    obtain ⟨earlier, went, turned⟩ := run_succ_eq_going_iff.mp going
    exact .next (hypothesis went) turned

end Machine

end Aquarium
