import Aquarium.CodeBox.Source
import Aquarium.Machine.Setup
import Aquarium.Proofs.Running

/-!
# Running in stages

A limit only says where a run stops. `turn_withLimit` gives the turns under every limit by one
`act`, which does not see the limit, so the heads of a run under a limit are heads of the run under
any larger one. From this a run may be cut at any limits and resumed, down to single steps, and ends
as it would have ended at once.
-/

namespace Aquarium

namespace Machine

/-! ## Limits and turns -/

@[simp] theorem status_withLimit (machine : Machine) (limit : Nat) :
    (machine.withLimit limit).status = machine.status := rfl

/-- A machine under a limit is at it when it has counted that far. -/
theorem atLimit_withLimit (machine : Machine) (limit : Nat) :
    (machine.withLimit limit).atLimit = true ↔ 0 < limit ∧ limit ≤ machine.count := by
  by_cases unlimited : limit = 0
  · simp [atLimit, withLimit, unlimited]
  · have positive : 0 < limit := by omega
    simp [atLimit, withLimit, unlimited, positive]

/-- No step looks at the limit. -/
theorem step_withLimit (machine : Machine) (limit : Nat) (symbol : Int) :
    (machine.withLimit limit).step symbol = (machine.step symbol).map (·.withLimit limit) := by
  have changed : machine.withLimit limit = machine.withLedger
      { machine.ledger with limit := if limit = 0 then none else some limit } := rfl
  rw [changed, step_withLedger]
  have kept := machine.ledger_step symbol
  cases stepped : machine.step symbol with
  | done after =>
    rw [stepped] at kept
    simp only [Outcome.map, ← kept]
    rfl
  | failed failure after =>
    rw [stepped] at kept
    simp only [Outcome.map, ← kept]
    rfl
  | stuck after =>
    rw [stepped] at kept
    simp only [Outcome.map, ← kept]
    rfl

/-- A turn that nothing holds up does not look at the limit. -/
theorem act_withLimit (machine : Machine) (limit : Nat) :
    (machine.withLimit limit).act = machine.act.map (·.withLimit limit) := by
  have symbols : (machine.withLimit limit).symbol = machine.symbol := rfl
  have notes : (machine.withLimit limit).noteStep machine.symbol =
      (machine.noteStep machine.symbol).withLimit limit := by
    unfold noteStep
    split
    · rename_i wanted
      rw [if_pos (show machine.tracing = true from wanted)]
      rfl
    · rename_i unwanted
      rw [if_neg (show ¬ machine.tracing = true from unwanted)]
  unfold act
  rw [symbols, notes, step_withLimit]
  cases (machine.noteStep machine.symbol).step machine.symbol with
  | failed failure after => rfl
  | stuck after => rfl
  | done after =>
    simp only [Outcome.map, complete, noteStack]
    by_cases wanted : after.tracing = true <;> by_cases running : after.status = .running <;>
      simp [withLimit, wanted, running, Turn.map, advance, stackNote]

/-- The turns of a machine under every limit. -/
theorem turn_withLimit (machine : Machine) (limit : Nat) :
    (machine.withLimit limit).turn false =
      if machine.status ≠ .running then
        .stop (.notRunning machine.status) (machine.withLimit limit)
      else if 0 < limit ∧ limit ≤ machine.count then
        .stop .limitReached (machine.withLimit limit)
      else machine.act.map (·.withLimit limit) := by
  rw [turn_eq, ← act_withLimit]
  simp only [polls, Bool.false_and, atLimit_withLimit, status_withLimit, Bool.false_eq_true,
    if_false]

/-- Below a limit a turn goes on exactly as it does without one. -/
theorem turn_withLimit_next_iff {machine head : Machine} {limit : Nat} :
    (machine.withLimit limit).turn false = .next head ↔
      machine.status = .running ∧ (0 < limit → machine.count < limit) ∧
        ∃ next, machine.act = .next next ∧ next.withLimit limit = head := by
  rw [turn_withLimit]
  constructor
  · intro turned
    split at turned
    · cases turned
    · rename_i running
      split at turned
      · cases turned
      · rename_i below
        refine ⟨Decidable.not_not.mp running, by omega, ?_⟩
        cases acted : machine.act with
        | stop stop after =>
          rw [acted] at turned
          cases turned
        | next next =>
          rw [acted] at turned
          cases turned
          exact ⟨next, rfl, rfl⟩
  · rintro ⟨running, below, next, acted, rfl⟩
    rw [if_neg (by simp [running]), if_neg (by omega), acted]
    rfl

/-- Under a limit a turn stops at the limit, or exactly as it does without one. -/
theorem turn_withLimit_stop_iff {machine after : Machine} {stop : Stop} {limit : Nat} :
    (machine.withLimit limit).turn false = .stop stop after ↔
      ∃ last, last.withLimit limit = after ∧
        (machine.status ≠ .running ∧ stop = .notRunning machine.status ∧ last = machine ∨
          machine.status = .running ∧ (0 < limit ∧ limit ≤ machine.count) ∧
            stop = .limitReached ∧ last = machine ∨
          machine.status = .running ∧ (0 < limit → machine.count < limit) ∧
            machine.act = .stop stop last) := by
  rw [turn_withLimit]
  constructor
  · intro turned
    split at turned
    · rename_i stopped
      cases turned
      exact ⟨machine, rfl, .inl ⟨stopped, rfl, rfl⟩⟩
    · rename_i running
      have isRunning := Decidable.not_not.mp running
      split at turned
      · rename_i reached
        cases turned
        exact ⟨machine, rfl, .inr (.inl ⟨isRunning, reached, rfl, rfl⟩)⟩
      · rename_i below
        cases acted : machine.act with
        | next next =>
          rw [acted] at turned
          cases turned
        | stop reason last =>
          rw [acted] at turned
          cases turned
          exact ⟨last, rfl, .inr (.inr ⟨isRunning, by omega, rfl⟩)⟩
  · rintro ⟨last, rfl, ⟨stopped, rfl, rfl⟩ | ⟨running, reached, rfl, rfl⟩ |
      ⟨running, below, acted⟩⟩
    · rw [if_pos stopped]
    · rw [if_neg (by simp [running]), if_pos reached]
    · rw [if_neg (by simp [running]), if_neg (by omega), acted]
      rfl

/-- Without a limit no turn is stopped by one. -/
theorem turn_withLimit_zero_ne_limitReached {machine after : Machine} :
    (machine.withLimit 0).turn false ≠ .stop .limitReached after := by
  intro turned
  obtain ⟨_, _, ⟨_, other, _⟩ | ⟨_, reached, _⟩ | ⟨_, _, acted⟩⟩ :=
    turn_withLimit_stop_iff.mp turned
  · cases other
  · omega
  · rcases act_stop acted with other | ⟨_, other⟩ | other <;> cases other

/-! ## Cutting a run -/

/-- The heads of a run under a limit are heads of the run under any larger limit, or none. -/
theorem run_withLimit_of_going {machine head : Machine} {earlier limit turns : Nat}
    (positive : 0 < earlier) (reaches : limit = 0 ∨ earlier ≤ limit)
    (going : (machine.withLimit earlier).run false turns = .going head) :
    (machine.withLimit limit).run false turns = .going (head.withLimit limit) ∧
      head.withLimit earlier = head := by
  induction turns generalizing machine with
  | zero =>
    cases going
    exact ⟨rfl, rfl⟩
  | succ turns hypothesis =>
    cases turned : (machine.withLimit earlier).turn false with
    | stop stop after =>
      rw [run_of_stop turned] at going
      cases going
    | next after =>
      rw [run_of_next turned] at going
      obtain ⟨running, below, next, acted, rfl⟩ := turn_withLimit_next_iff.mp turned
      have under := below positive
      have same : (machine.withLimit limit).turn false = .next (next.withLimit limit) :=
        turn_withLimit_next_iff.mpr ⟨running, by omega, next, acted, rfl⟩
      rw [run_of_next same]
      exact hypothesis going

/-- A run that a limit has stopped is resumed where it was. -/
theorem ends_withLimit_iff_of_limitReached {machine middle final : Machine} {stop : Stop}
    {earlier limit : Nat} (positive : 0 < earlier) (reaches : limit = 0 ∨ earlier ≤ limit)
    (first : (machine.withLimit earlier).Ends .limitReached middle) :
    (machine.withLimit limit).Ends stop final ↔ (middle.withLimit limit).Ends stop final := by
  obtain ⟨_, stopped⟩ := first
  obtain ⟨_, head, _, going, ended⟩ := exists_head_of_stopped stopped
  obtain ⟨larger, same⟩ := run_withLimit_of_going positive reaches going
  rw [← same, turn_withLimit_stop_iff] at ended
  obtain ⟨last, rfl, ⟨_, other, _⟩ | ⟨_, _, _, rfl⟩ | ⟨_, _, acted⟩⟩ := ended
  · cases other
  · exact ends_iff_of_going larger
  · rcases act_stop acted with other | ⟨_, other⟩ | other <;> cases other

/-- A run that ends before it comes to a limit ends so under any larger limit, or none. -/
theorem ends_withLimit_of_ne_limitReached {machine middle : Machine} {stop : Stop}
    {earlier limit : Nat} (positive : 0 < earlier) (reaches : limit = 0 ∨ earlier ≤ limit)
    (first : (machine.withLimit earlier).Ends stop middle) (other : stop ≠ .limitReached) :
    (machine.withLimit limit).Ends stop (middle.withLimit limit) := by
  obtain ⟨_, stopped⟩ := first
  obtain ⟨_, head, _, going, ended⟩ := exists_head_of_stopped stopped
  obtain ⟨larger, same⟩ := run_withLimit_of_going positive reaches going
  rw [ends_iff_of_going larger]
  rw [← same, turn_withLimit_stop_iff] at ended
  apply Ends.of_stop
  rw [turn_withLimit_stop_iff]
  obtain ⟨last, rfl, ⟨notRunning, rfl, rfl⟩ | ⟨_, _, rfl, _⟩ | ⟨running, below, acted⟩⟩ := ended
  · exact ⟨last, rfl, .inl ⟨notRunning, rfl, rfl⟩⟩
  · exact absurd rfl other
  · have under := below positive
    exact ⟨last, rfl, .inr (.inr ⟨running, by omega, acted⟩)⟩

theorem limit_withLimit (machine : Machine) {limit : Nat} (positive : 0 < limit) :
    (machine.withLimit limit).limit = some limit := by
  simp only [withLimit, if_neg (Nat.ne_of_gt positive)]

/-- A run leaves the limit as it is. -/
theorem Ends.withLimit_eq {machine final : Machine} {stop : Stop} {limit : Nat}
    (ended : (machine.withLimit limit).Ends stop final) : final.withLimit limit = final := by
  obtain ⟨turns, stopped⟩ := ended
  induction turns generalizing machine with
  | zero => cases stopped
  | succ turns hypothesis =>
    cases turned : (machine.withLimit limit).turn false with
    | next after =>
      rw [run_of_next turned] at stopped
      obtain ⟨_, _, next, _, rfl⟩ := turn_withLimit_next_iff.mp turned
      exact hypothesis stopped
    | stop reason after =>
      rw [run_of_stop turned] at stopped
      cases stopped
      obtain ⟨last, rfl, _⟩ := turn_withLimit_stop_iff.mp turned
      rfl

/-- A run under a limit ends. -/
theorem exists_ends_of_limit {machine : Machine} {limit : Nat}
    (limited : machine.limit = some limit) : ∃ stop final, machine.Ends stop final := by
  generalize distance : limit - machine.count = left
  induction left generalizing machine with
  | zero =>
    cases turned : machine.turn false with
    | stop stop after => exact ⟨stop, after, .of_stop turned⟩
    | next after =>
      obtain ⟨_, below, _⟩ := act_of_turn_next turned
      simp only [atLimit, limited, decide_eq_false_iff_not] at below
      omega
  | succ left hypothesis =>
    cases turned : machine.turn false with
    | stop stop after => exact ⟨stop, after, .of_stop turned⟩
    | next after =>
      obtain ⟨_, _, acted⟩ := act_of_turn_next turned
      obtain ⟨counted, kept, _⟩ := act_next acted
      obtain ⟨stop, final, ended⟩ := hypothesis (kept.trans limited) (by omega)
      exact ⟨stop, final, .of_next turned ended⟩

/-- A run in stages: under each limit in turn as long as the one before has been reached, and under
a last one. -/
def Staged (limits : List Nat) (limit : Nat) (machine : Machine) (stop : Stop)
    (final : Machine) : Prop :=
  match limits with
  | [] => (machine.withLimit limit).Ends stop final
  | earlier :: others =>
    ∃ reason middle, (machine.withLimit earlier).Ends reason middle ∧
      if reason = .limitReached then middle.Staged others limit stop final
      else stop = reason ∧ final = middle

/-- A run in stages, none of them beyond the last limit, ends as the run under that limit does. -/
theorem ends_iff_staged {limits : List Nat} {limit : Nat}
    (within : ∀ earlier ∈ limits, 0 < earlier ∧ (limit = 0 ∨ earlier ≤ limit))
    (machine : Machine) (stop : Stop) (final : Machine) :
    (machine.withLimit limit).Ends stop final ↔
      ∃ last, machine.Staged limits limit stop last ∧ last.withLimit limit = final := by
  induction limits generalizing machine with
  | nil =>
    constructor
    · intro ended
      exact ⟨final, ended, ended.withLimit_eq⟩
    · rintro ⟨last, ended, rfl⟩
      rw [ended.withLimit_eq]
      exact ended
  | cons earlier others hypothesis =>
    obtain ⟨positive, reaches⟩ := within earlier List.mem_cons_self
    have rest := hypothesis fun other member => within other (List.mem_cons_of_mem _ member)
    constructor
    · intro ended
      obtain ⟨reason, middle, first⟩ :=
        exists_ends_of_limit (limit_withLimit machine positive)
      by_cases reached : reason = .limitReached
      · subst reached
        have resumed :=
          (ends_withLimit_iff_of_limitReached positive reaches first).mp ended
        obtain ⟨last, staged, same⟩ := (rest middle).mp resumed
        exact ⟨last, ⟨_, middle, first, by rw [if_pos rfl]; exact staged⟩, same⟩
      · have direct := ends_withLimit_of_ne_limitReached positive reaches first reached
        obtain ⟨rfl, rfl⟩ := ended.unique direct
        exact ⟨middle, ⟨_, middle, first, by rw [if_neg reached]; exact ⟨rfl, rfl⟩⟩, rfl⟩
    · rintro ⟨last, ⟨reason, middle, first, after⟩, rfl⟩
      by_cases reached : reason = .limitReached
      · rw [if_pos reached] at after
        rw [reached] at first
        exact (ends_withLimit_iff_of_limitReached positive reaches first).mpr
          ((rest middle).mpr ⟨last, after, rfl⟩)
      · rw [if_neg reached] at after
        obtain ⟨rfl, rfl⟩ := after
        exact ends_withLimit_of_ne_limitReached positive reaches first reached

/-! ## Single steps -/

/-- The limit that allows one more step. -/
def paced (machine : Machine) : Machine :=
  machine.withLimit (machine.count + 1)

/-- So many single steps, each of them stopped by its limit. -/
inductive Paces (machine : Machine) : Nat → Machine → Prop where
  | refl : Paces machine 0 machine
  | step {steps current next} (prior : Paces machine steps current)
      (paced : current.paced.Ends .limitReached next) : Paces machine (steps + 1) next

/-- A single step that the program goes on from is stopped by its limit. -/
theorem paced_ends_of_act_next {machine head : Machine} (running : machine.status = .running)
    (acted : machine.act = .next head) :
    machine.paced.Ends .limitReached (head.withLimit (machine.count + 1)) := by
  obtain ⟨counted, _, stillRunning⟩ := act_next acted
  have first : machine.paced.turn false = .next (head.withLimit (machine.count + 1)) :=
    turn_withLimit_next_iff.mpr ⟨running, by omega, head, acted, rfl⟩
  have second : (head.withLimit (machine.count + 1)).turn false =
      .stop .limitReached (head.withLimit (machine.count + 1)) :=
    turn_withLimit_stop_iff.mpr ⟨head, rfl, .inr (.inl ⟨stillRunning, by omega, rfl, rfl⟩)⟩
  exact .of_next first (.of_stop second)

/-- A single step is stopped by its limit, or ends as a turn without limit does. -/
theorem paced_ends_iff {machine last : Machine} {stop : Stop} :
    machine.paced.Ends stop last ↔
      (∃ head, (machine.withLimit 0).turn false = .next head ∧ stop = .limitReached ∧
        head.withLimit (machine.count + 1) = last) ∨
      ∃ final, (machine.withLimit 0).turn false = .stop stop final ∧
        final.withLimit (machine.count + 1) = last := by
  constructor
  · intro ended
    cases turned : machine.paced.turn false with
    | next after =>
      obtain ⟨running, _, head, acted, rfl⟩ := turn_withLimit_next_iff.mp turned
      obtain ⟨rfl, rfl⟩ := ended.unique (paced_ends_of_act_next running acted)
      exact .inl ⟨head.withLimit 0,
        turn_withLimit_next_iff.mpr ⟨running, by omega, head, acted, rfl⟩, rfl, rfl⟩
    | stop reason after =>
      obtain ⟨rfl, rfl⟩ := ended.unique (.of_stop turned)
      obtain ⟨final, rfl, stopped | ⟨_, reached, _⟩ | ⟨running, _, acted⟩⟩ :=
        turn_withLimit_stop_iff.mp turned
      · exact .inr ⟨final.withLimit 0,
          turn_withLimit_stop_iff.mpr ⟨final, rfl, .inl stopped⟩, rfl⟩
      · omega
      · exact .inr ⟨final.withLimit 0,
          turn_withLimit_stop_iff.mpr ⟨final, rfl, .inr (.inr ⟨running, by omega, acted⟩)⟩, rfl⟩
  · rintro (⟨head, turned, rfl, rfl⟩ | ⟨final, turned, rfl⟩)
    · obtain ⟨running, _, next, acted, rfl⟩ := turn_withLimit_next_iff.mp turned
      have ended := paced_ends_of_act_next running acted
      exact ended
    · apply Ends.of_stop
      obtain ⟨last, rfl, stopped | ⟨_, reached, _⟩ | ⟨running, _, acted⟩⟩ :=
        turn_withLimit_stop_iff.mp turned
      · exact turn_withLimit_stop_iff.mpr ⟨last, rfl, .inl stopped⟩
      · omega
      · exact turn_withLimit_stop_iff.mpr
          ⟨last, rfl, .inr (.inr ⟨running, by omega, acted⟩)⟩

/-- Single steps visit exactly the heads of the run without limit. -/
theorem run_eq_going_iff_paces {machine head : Machine} {turns : Nat} :
    (machine.withLimit 0).run false turns = .going head ↔
      ∃ current, machine.Paces turns current ∧ current.withLimit 0 = head := by
  induction turns generalizing head with
  | zero =>
    constructor
    · rintro ⟨⟩
      exact ⟨machine, .refl, rfl⟩
    · rintro ⟨current, ⟨⟩, rfl⟩
      rfl
  | succ turns hypothesis =>
    rw [run_succ_eq_going_iff]
    constructor
    · rintro ⟨earlier, going, turned⟩
      obtain ⟨current, paces, rfl⟩ := hypothesis.mp going
      have next := paced_ends_iff.mpr (.inl ⟨head, turned, rfl, rfl⟩)
      obtain ⟨_, _, after, _, rfl⟩ := turn_withLimit_next_iff.mp turned
      exact ⟨_, .step paces next, rfl⟩
    · rintro ⟨next, paces, rfl⟩
      cases paces with
      | @step _ current _ prior paced =>
        refine ⟨current.withLimit 0, hypothesis.mpr ⟨current, prior, rfl⟩, ?_⟩
        rcases paced_ends_iff.mp paced with ⟨after, turned, _, rfl⟩ | ⟨_, turned, _⟩
        · obtain ⟨_, _, last, _, rfl⟩ := turn_withLimit_next_iff.mp turned
          exact turned
        · exact absurd turned turn_withLimit_zero_ne_limitReached

/-- The run without limit ends exactly as the last of the single steps does. -/
theorem ends_iff_paces {machine final : Machine} {stop : Stop} :
    (machine.withLimit 0).Ends stop final ↔
      ∃ turns current last, machine.Paces turns current ∧ current.paced.Ends stop last ∧
        stop ≠ .limitReached ∧ last.withLimit 0 = final := by
  constructor
  · intro ended
    obtain ⟨_, stopped⟩ := ended
    obtain ⟨turns, head, _, going, turned⟩ := exists_head_of_stopped stopped
    obtain ⟨current, paces, rfl⟩ := run_eq_going_iff_paces.mp going
    have last := paced_ends_iff.mpr (.inr ⟨final, turned, rfl⟩)
    obtain ⟨_, rfl, _⟩ := turn_withLimit_stop_iff.mp turned
    refine ⟨turns, current, _, paces, last, ?_, rfl⟩
    rintro rfl
    exact turn_withLimit_zero_ne_limitReached turned
  · rintro ⟨turns, current, last, paces, ended, other, rfl⟩
    have going := run_eq_going_iff_paces.mpr ⟨current, paces, rfl⟩
    rw [ends_iff_of_going going]
    rcases paced_ends_iff.mp ended with ⟨_, _, reached, _⟩ | ⟨after, turned, rfl⟩
    · exact absurd reached other
    · obtain ⟨_, rfl, _⟩ := turn_withLimit_stop_iff.mp turned
      exact .of_stop turned

/-! ## Main statement -/

/-- Cutting a run changes nothing. A run under a limit ends, and a run in stages, each of which is
resumed only if its limit stopped it, ends exactly as the run under the last limit does, for the
same reason and with the same machine but for the limit it was left with. Single steps visit exactly
the heads of the run without limit, one head each, and end as it ends. -/
theorem staged_run_ends_as_direct_run (machine : Machine) (limits : List Nat) (limit : Nat)
    (within : ∀ earlier ∈ limits, 0 < earlier ∧ (limit = 0 ∨ earlier ≤ limit)) :
    (0 < limit → ∃ stop final, (machine.withLimit limit).Ends stop final) ∧
      (∀ stop final, (machine.withLimit limit).Ends stop final ↔
        ∃ last, machine.Staged limits limit stop last ∧ last.withLimit limit = final) ∧
      (∀ turns head, (machine.withLimit 0).run false turns = .going head ↔
        ∃ current, machine.Paces turns current ∧ current.withLimit 0 = head) ∧
      ∀ stop final, (machine.withLimit 0).Ends stop final ↔
        ∃ turns current last, machine.Paces turns current ∧ current.paced.Ends stop last ∧
          stop ≠ .limitReached ∧ last.withLimit 0 = final := by
  refine ⟨fun positive => ?_, ?_, ?_, ?_⟩
  · exact exists_ends_of_limit (limit_withLimit machine positive)
  · exact ends_iff_staged within machine
  · intro turns head
    exact run_eq_going_iff_paces
  · intro stop final
    exact ends_iff_paces

/-- Three instructions, cut after the first and the second. -/
theorem staged_run_of_three_instructions :
    (∀ earlier ∈ [1, 2], 0 < earlier ∧ (3 = 0 ∨ earlier ≤ 3)) ∧
      ∃ stop final last,
        ((start (.ofRows ["12;".toList]) (.ofDraws [0])).withLimit 3).Ends stop final ∧
          (start (.ofRows ["12;".toList]) (.ofDraws [0])).Staged [1, 2] 3 stop last ∧
          last.withLimit 3 = final := by
  have within : ∀ earlier ∈ [1, 2], 0 < earlier ∧ (3 = 0 ∨ earlier ≤ 3) := by decide
  obtain ⟨ends, staged, _⟩ := staged_run_ends_as_direct_run
    (start (.ofRows ["12;".toList]) (.ofDraws [0])) [1, 2] 3 within
  obtain ⟨stop, final, ended⟩ := ends (by decide)
  obtain ⟨last, inStages, same⟩ := (staged stop final).mp ended
  exact ⟨within, stop, final, last, ended, inStages, same⟩

end Machine

end Aquarium
