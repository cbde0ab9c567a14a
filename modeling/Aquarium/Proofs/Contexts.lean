import Aquarium.Proofs.Failing
import Aquarium.Proofs.History

/-!
# Runs under a changing context

The context of a run may be cancelled at any time. `Machine.runUnder` tells each turn whether it
would find the context cancelled, so a run under any context is a run under a list of answers.
`Machine.executed` lists the heads at which such a run executes a symbol, whether the step completes
or not: what a run has done is said by that list, or by what is noted at its heads.
`executed_induction` lifts what one turn does to a run and that list.
-/

namespace Aquarium

namespace Progress

/-- The machine that a run has come to. -/
def machine : Progress → Machine
  | .stopped _ machine => machine
  | .going machine => machine

/-- Whether a run is still going. -/
def isGoing : Progress → Bool
  | .stopped _ _ => false
  | .going _ => true

theorem isGoing_iff {progress : Progress} :
    progress.isGoing = true ↔ ∃ machine, progress = .going machine := by
  cases progress <;> simp [isGoing]

/-- The same progress with another machine. -/
def map (change : Machine → Machine) : Progress → Progress
  | .stopped stop machine => .stopped stop (change machine)
  | .going machine => .going (change machine)

end Progress

namespace Machine

/-- A run under a context that may be cancelled at any time: each turn is told whether it would find
the context cancelled. -/
def runUnder : List Bool → Machine → Progress
  | [], machine => .going machine
  | cancelled :: later, machine =>
    match machine.turn cancelled with
    | .stop stop after => .stopped stop after
    | .next after => runUnder later after

/-- A run under a context that does not change. -/
theorem run_eq_runUnder (cancelled : Bool) (turns : Nat) (machine : Machine) :
    machine.run cancelled turns = machine.runUnder (List.replicate turns cancelled) := by
  induction turns generalizing machine with
  | zero => rfl
  | succ turns hypothesis =>
    rw [List.replicate_succ, run, runUnder]
    cases machine.turn cancelled with
    | stop stop after => rfl
    | next after => exact hypothesis after

/-- A run of one turn has come to what the turn leaves. -/
theorem machine_runUnder_singleton (machine : Machine) (cancelled : Bool) :
    (machine.runUnder [cancelled]).machine = (machine.turn cancelled).machine := by
  simp only [runUnder]
  cases machine.turn cancelled <;> rfl

theorem runUnder_of_stop {cancelled : Bool} {machine after : Machine} {stop : Stop}
    (turned : machine.turn cancelled = .stop stop after) (later : List Bool) :
    machine.runUnder (cancelled :: later) = .stopped stop after := by
  simp only [runUnder, turned]

theorem runUnder_of_next {cancelled : Bool} {machine after : Machine}
    (turned : machine.turn cancelled = .next after) (later : List Bool) :
    machine.runUnder (cancelled :: later) = after.runUnder later := by
  simp only [runUnder, turned]

/-- A run goes on from the head that it has come to. -/
theorem runUnder_append_of_going {machine head : Machine} {contexts : List Bool}
    (going : machine.runUnder contexts = .going head) (later : List Bool) :
    machine.runUnder (contexts ++ later) = head.runUnder later := by
  induction contexts generalizing machine with
  | nil =>
    cases going
    rfl
  | cons cancelled contexts hypothesis =>
    cases turned : machine.turn cancelled with
    | stop stop after =>
      rw [runUnder_of_stop turned] at going
      cases going
    | next after =>
      rw [runUnder_of_next turned] at going
      rw [List.cons_append, runUnder_of_next turned]
      exact hypothesis going

/-! ## The symbol at a head -/

/-- Whether the step at a head executes the instruction of a character. -/
def Meets (machine : Machine) (character : Char) : Prop :=
  machine.takesLiterally machine.symbol = false ∧ machine.symbol = character.toNat

instance (machine : Machine) (character : Char) : Decidable (machine.Meets character) := by
  unfold Meets
  infer_instance

/-- The instruction that does nothing stands for an empty cell too, every other one only for its
character. -/
theorem meets_iff (machine : Machine) (instruction : Instruction) (acts : instruction ≠ .rest) :
    machine.Meets instruction.character ↔
      machine.takesLiterally machine.symbol = false ∧
        Instruction.ofSymbol? machine.symbol = some instruction := by
  simp [Meets, Instruction.ofSymbol?_eq_some_iff, acts]

theorem step_of_meets {machine : Machine} (instruction : Instruction) (acts : instruction ≠ .rest)
    (meets : machine.Meets instruction.character) :
    machine.step machine.symbol = machine.execute instruction := by
  obtain ⟨executed, found⟩ := (machine.meets_iff instruction acts).mp meets
  simp only [step, executed, found]
  rfl

/-! ## The heads that execute a symbol -/

instance (machine : Machine) (cancelled : Bool) : Decidable (machine.Fetches cancelled) := by
  unfold Fetches
  infer_instance

/-- The heads at which a run executes the symbol under the cursor, in order. The last of them may be
one where the program ends or the step fails. -/
def executed : List Bool → Machine → List Machine
  | [], _ => []
  | cancelled :: later, machine =>
    match machine.turn cancelled with
    | .stop _ _ => if machine.Fetches cancelled then [machine] else []
    | .next after => machine :: executed later after

/-- Whether the step at a head completes. -/
def completes (machine : Machine) : Bool :=
  match machine.step machine.symbol with
  | .done _ => true
  | .failed _ _ => false
  | .stuck _ => false

theorem completes_iff {machine : Machine} :
    machine.completes = true ↔ ∃ after, machine.step machine.symbol = .done after := by
  unfold completes
  cases machine.step machine.symbol with
  | done after => exact ⟨fun _ => ⟨after, rfl⟩, fun _ => rfl⟩
  | failed failure after => simp
  | stuck after => simp

/-- A turn that goes on has completed its step. -/
theorem step_of_act_next {machine after : Machine} (acted : machine.act = .next after) :
    ∃ done, machine.step machine.symbol = .done done ∧ done.status = .running ∧
      after = (done.withLedger (machine.settled done)).advance := by
  rcases machine.act_cases with
    ⟨done, stepped, running, went⟩ | ⟨_, _, _, halted⟩ | ⟨_, _, _, failed⟩ | ⟨_, _, stuck⟩
  · rw [went] at acted
    cases acted
    exact ⟨done, stepped, running, rfl⟩
  · rw [halted] at acted
    cases acted
  · rw [failed] at acted
    cases acted
  · rw [stuck] at acted
    cases acted

/-- A view of a machine that does not show the cursor, the status or the ledger is after a turn what
the step of that turn has left. -/
theorem view_act {α : Type} {view : Machine → α}
    (blind : ∀ (machine : Machine) (ledger : Ledger) (cursor : Position) (status : Status),
      view { machine.withLedger ledger with cursor, status } = view machine) (machine : Machine) :
    view machine.act.machine = view (machine.step machine.symbol).machine := by
  rw [act_eq]
  cases machine.step machine.symbol with
  | failed failure after => exact blind after machine.noted after.cursor .faulted
  | stuck after => exact blind after machine.noted after.cursor after.status
  | done after =>
    dsimp only
    split
    · exact blind after (machine.settled after) _ after.status
    · exact blind after (machine.settled after) after.cursor after.status

theorem executed_of_next {cancelled : Bool} {machine after : Machine}
    (turned : machine.turn cancelled = .next after) (later : List Bool) :
    machine.executed (cancelled :: later) = machine :: after.executed later := by
  simp only [executed, turned]

theorem executed_of_stop {cancelled : Bool} {machine after : Machine} {stop : Stop}
    (turned : machine.turn cancelled = .stop stop after) (later : List Bool) :
    machine.executed (cancelled :: later) =
      if machine.Fetches cancelled then [machine] else [] := by
  simp only [executed, turned]

/-- A turn fetches the symbol and acts, or is held up and leaves the machine as it is. -/
theorem turn_of_fetches_or_held (cancelled : Bool) (machine : Machine) :
    machine.Fetches cancelled ∧ machine.turn cancelled = machine.act ∨
      ¬ machine.Fetches cancelled ∧
        ∃ stop, machine.turn cancelled = .stop stop machine ∧ stop ≠ .halted ∧
          (∀ site failure, stop ≠ .failed site failure) ∧ stop ≠ .stuck := by
  unfold Fetches
  rcases machine.turn_cases cancelled with
    ⟨stopped, held⟩ | ⟨_, polled, held⟩ | ⟨_, _, reached, held⟩ | ⟨running, unpolled, below, acted⟩
  · exact .inr ⟨fun fetches => stopped fetches.1, _, held, by simp, by simp, by simp⟩
  · exact .inr ⟨fun fetches => by simp [polled] at fetches, _, held, by simp, by simp, by simp⟩
  · exact .inr ⟨fun fetches => by simp [reached] at fetches, _, held, by simp, by simp, by simp⟩
  · exact .inl ⟨⟨running, unpolled, below⟩, acted⟩

/-- What holds of a run that executes nothing, and of one that executes a head if it holds of the
run from there, holds of every run and the heads that it executes. -/
theorem executed_induction {motive : Machine → List Machine → Machine → Prop}
    (idle : ∀ machine, motive machine [] machine)
    (acts : ∀ machine heads final, motive machine.act.machine heads final →
      motive machine (machine :: heads) final) (machine : Machine) (contexts : List Bool) :
    motive machine (machine.executed contexts) (machine.runUnder contexts).machine := by
  induction contexts generalizing machine with
  | nil => exact idle machine
  | cons cancelled later hypothesis =>
    cases turned : machine.turn cancelled with
    | next after =>
      obtain ⟨_, _, acted⟩ := act_of_turn_next turned
      rw [executed_of_next turned, runUnder_of_next turned]
      apply acts
      rw [acted]
      exact hypothesis after
    | stop stop after =>
      rw [executed_of_stop turned, runUnder_of_stop turned]
      rcases machine.turn_of_fetches_or_held cancelled with
        ⟨fetches, acted⟩ | ⟨unfetched, _, held, _⟩
      · rw [if_pos fetches]
        apply acts
        rw [← acted, turned]
        exact idle after
      · rw [held] at turned
        cases turned
        rw [if_neg unfetched]
        exact idle machine

/-- A turn that goes on has fetched the symbol. -/
theorem fetches_of_next {cancelled : Bool} {machine after : Machine}
    (turned : machine.turn cancelled = .next after) : machine.Fetches cancelled := by
  rcases machine.turn_of_fetches_or_held cancelled with ⟨fetches, _⟩ | ⟨_, _, held, _⟩
  · exact fetches
  · rw [held] at turned
    cases turned

/-- Machines with the same status, count and limit are held up for the same reason. -/
theorem turns_of_not_fetches {machine : Machine} {cancelled : Bool}
    (held : ¬ machine.Fetches cancelled) (other : Machine) (status : other.status = machine.status)
    (count : other.count = machine.count) (limit : other.limit = machine.limit) :
    ∃ stop, machine.turn cancelled = .stop stop machine ∧
      other.turn cancelled = .stop stop other := by
  have polls : other.polls cancelled = machine.polls cancelled := by
    simp only [Machine.polls, count]
  have limits : other.atLimit = machine.atLimit := by simp only [atLimit, limit, count]
  rcases machine.turn_cases cancelled with
    ⟨stopped, ended⟩ | ⟨running, polled, ended⟩ | ⟨running, unpolled, reached, ended⟩ |
      ⟨running, unpolled, below, _⟩
  · refine ⟨_, ended, ?_⟩
    rw [turn_eq, status, if_pos stopped]
  · refine ⟨_, ended, ?_⟩
    rw [turn_eq, status, polls, if_neg (not_not_intro running), if_pos polled]
  · refine ⟨_, ended, ?_⟩
    rw [turn_eq, status, polls, limits, if_neg (not_not_intro running), unpolled, if_pos reached]
    rfl
  · exact absurd ⟨running, unpolled, below⟩ held

/-- The head that a turn fetches at is one that executes a symbol. -/
theorem mem_executed_of_fetches {machine : Machine} {cancelled : Bool}
    (fetches : machine.Fetches cancelled) (later : List Bool) :
    machine ∈ machine.executed (cancelled :: later) := by
  cases turned : machine.turn cancelled with
  | stop stop after => simp [executed_of_stop turned, fetches]
  | next after => simp [executed_of_next turned]

/-! ## What a run leaves on record -/

/-- What is noted at the heads at which a run executes a symbol, in order. -/
def logged {α : Type} (note : Machine → Option α) (contexts : List Bool) (machine : Machine) :
    List α :=
  (machine.executed contexts).filterMap note

theorem logged_of_next {α : Type} {note : Machine → Option α} {cancelled : Bool}
    {machine after : Machine} (turned : machine.turn cancelled = .next after) (later : List Bool) :
    machine.logged note (cancelled :: later) =
      (note machine).toList ++ after.logged note later := by
  unfold logged
  rw [executed_of_next turned, List.filterMap_cons]
  cases note machine <;> rfl

theorem logged_of_stop {α : Type} {note : Machine → Option α} {cancelled : Bool}
    {machine after : Machine} {stop : Stop} (turned : machine.turn cancelled = .stop stop after)
    (later : List Bool) :
    machine.logged note (cancelled :: later) =
      if machine.Fetches cancelled then (note machine).toList else [] := by
  unfold logged
  rw [executed_of_stop turned]
  split
  · rw [List.filterMap_cons]
    cases note machine <;> rfl
  · rfl

/-- The head at which a note is taken, with all that was noted before. -/
theorem exists_head_of_logged {α : Type} {note : Machine → Option α} {machine : Machine}
    {contexts : List Bool} {count : Nat} (more : count < (machine.logged note contexts).length) :
    ∃ earlier cancelled later head, contexts = earlier ++ cancelled :: later ∧
      machine.runUnder earlier = .going head ∧ head.Fetches cancelled ∧
      (note head).isSome = true ∧
      machine.logged note earlier = (machine.logged note contexts).take count := by
  induction contexts generalizing machine count with
  | nil => exact absurd more (Nat.not_lt_zero _)
  | cons cancelled later hypothesis =>
    cases turned : machine.turn cancelled with
    | stop stop after =>
      rw [logged_of_stop turned] at more ⊢
      by_cases fetches : machine.Fetches cancelled
      · rw [if_pos fetches] at more ⊢
        cases taken : note machine with
        | none => simp [taken] at more
        | some entry =>
          have first : count = 0 := by simpa [taken] using more
          subst first
          exact ⟨[], cancelled, later, machine, rfl, rfl, fetches, by simp [taken], rfl⟩
      · simp [fetches] at more
    | next after =>
      -- Either the note is taken at this head, or the run comes to its head from the next one.
      have onwards : ∀ rest, rest < (after.logged note later).length →
          (note machine).toList.length + rest = count →
          ∃ earlier context others head, cancelled :: later = earlier ++ context :: others ∧
            machine.runUnder earlier = .going head ∧ head.Fetches context ∧
            (note head).isSome = true ∧ machine.logged note earlier =
              (machine.logged note (cancelled :: later)).take count := by
        intro rest within sum
        obtain ⟨earlier, context, others, head, rfl, going, fetched, noted, same⟩ :=
          hypothesis within
        refine ⟨cancelled :: earlier, context, others, head, rfl, ?_, fetched, noted, ?_⟩
        · rw [runUnder_of_next turned, going]
        · rw [logged_of_next turned, logged_of_next turned, same, ← sum,
            List.take_length_add_append]
      rw [logged_of_next turned, List.length_append] at more
      cases taken : note machine with
      | none => exact onwards count (by simpa [taken] using more) (by simp [taken])
      | some entry =>
        cases count with
        | zero =>
          exact ⟨[], cancelled, later, machine, rfl, rfl, fetches_of_next turned, by simp [taken],
            rfl⟩
        | succ count =>
          simp only [taken, Option.toList_some, List.length_singleton] at more onwards
          exact onwards count (by omega) (by omega)

end Machine

end Aquarium
