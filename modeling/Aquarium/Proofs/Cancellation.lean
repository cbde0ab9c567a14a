import Mathlib.Order.Bounds.Defs
import Aquarium.CodeBox.Source
import Aquarium.Proofs.Running

/-!
# Cancelled runs

A run looks at its context only where its count is a multiple of 256. Between two such looks a
cancelled run is the run that it would have been (`run_true_eq_run_false`), so all that a
cancellation does is to stop it at the next look, at a head of the uncancelled run. From that head
the run can be taken up again as if nothing had happened.
-/

namespace Aquarium

namespace Machine

/-! ## Looks at the context -/

/-- A cancelled run finds out where its count is a multiple of 256. -/
theorem polls_true_iff (machine : Machine) : machine.polls true = true ↔ 256 ∣ machine.count := by
  unfold polls pollInterval
  rw [Bool.true_and, decide_eq_true_eq]
  exact Nat.dvd_iff_mod_eq_zero.symm

/-- Where it does not look at its context, a cancelled run takes the turn that any run takes. -/
theorem turn_true_of_not_dvd {machine : Machine} (between : ¬ 256 ∣ machine.count) :
    machine.turn true = machine.turn false := by
  have unpolled : machine.polls true = false := by
    rw [← Bool.not_eq_true, polls_true_iff]
    exact between
  have never : machine.polls false = false := rfl
  rw [turn_eq, turn_eq, unpolled, never]

/-- Where it looks at its context, a cancelled run stops, whatever its limit. -/
theorem turn_true_of_dvd {machine : Machine} (running : machine.status = .running)
    (due : 256 ∣ machine.count) : machine.turn true = .stop .cancelled machine := by
  rw [turn_eq, if_neg (not_not_intro running), if_pos (machine.polls_true_iff.mpr due)]

/-- Between two looks at its context, a cancelled run is the run that it would have been. -/
theorem run_true_eq_run_false {machine : Machine} {turns : Nat}
    (between : ∀ earlier < turns, ¬ 256 ∣ machine.count + earlier) :
    machine.run true turns = machine.run false turns := by
  induction turns generalizing machine with
  | zero => rfl
  | succ turns hypothesis =>
    have same : machine.turn true = machine.turn false :=
      turn_true_of_not_dvd (between 0 (Nat.succ_pos turns))
    cases turned : machine.turn false with
    | stop stop after => rw [run_of_stop turned, run_of_stop (same.trans turned)]
    | next after =>
      rw [run_of_next turned, run_of_next (same.trans turned)]
      obtain ⟨_, _, acted⟩ := act_of_turn_next turned
      obtain ⟨counted, _, _⟩ := act_next acted
      apply hypothesis
      intro earlier bound
      have later := between (earlier + 1) (Nat.succ_lt_succ bound)
      rw [counted, Nat.add_assoc, Nat.add_comm 1 earlier]
      exact later

/-! ## The end of a cancelled run -/

/-- The ways in which a run ends at a head if its context was cancelled before it began, given the
count at which it looks at the context: the program or the limit ends it before that, or it is stuck
in a read before that, or the look ends it, even where the limit would have. -/
inductive EndsCancelled (poll : Nat) (last : Machine) : Stop → Machine → Prop where
  | program {stop : Stop} {final : Machine} (early : last.count < poll)
      (below : last.atLimit = false) (ended : last.act = .stop stop final)
      (blame : stop = .halted ∨ ∃ site failure, stop = .failed site failure) :
      EndsCancelled poll last stop final
  | stuck {final : Machine} (early : last.count < poll) (below : last.atLimit = false)
      (waits : last.act = .stop .stuck final) : EndsCancelled poll last .stuck final
  | limit {limit : Nat} (early : last.count < poll) (limited : last.limit = some limit)
      (reached : limit ≤ last.count) : EndsCancelled poll last .limitReached last
  | cancelled (due : last.count = poll) : EndsCancelled poll last .cancelled last

/-- A machine is at its limit if it has one and has counted that far. -/
theorem atLimit_iff (machine : Machine) :
    machine.atLimit = true ↔ ∃ limit, machine.limit = some limit ∧ limit ≤ machine.count := by
  unfold atLimit
  cases machine.limit with
  | none => simp
  | some limit => simp

/-- A turn before the next look that stops ends the run for the program or for the limit. -/
theorem endsCancelled_of_turn {poll : Nat} {last final : Machine} {stop : Stop}
    (running : last.status = .running) (early : last.count < poll)
    (turned : last.turn false = .stop stop final) : EndsCancelled poll last stop final := by
  rcases last.turn_cases false with
    ⟨stopped, _⟩ | ⟨_, polled, _⟩ | ⟨_, _, reached, held⟩ | ⟨_, _, below, acted⟩
  · exact absurd running stopped
  · cases polled
  · rw [held] at turned
    cases turned
    obtain ⟨limit, limited, bound⟩ := last.atLimit_iff.mp reached
    exact .limit early limited bound
  · rw [acted] at turned
    rcases act_stop turned with halted | ⟨failure, failed⟩ | rfl
    · exact .program early below turned (.inl halted)
    · exact .program early below turned (.inr ⟨_, failure, failed⟩)
    · exact .stuck early below turned

/-- A head that the run goes on from before the next look does not end it. -/
theorem not_endsCancelled_of_next {poll : Nat} {head next : Machine} (early : head.count < poll)
    (turned : head.turn false = .next next) (stop : Stop) (final : Machine) :
    ¬ EndsCancelled poll head stop final := by
  obtain ⟨_, below, acted⟩ := act_of_turn_next turned
  intro ends
  cases ends with
  | program _ _ ended _ =>
    rw [acted] at ended
    cases ended
  | stuck _ _ waits =>
    rw [acted] at waits
    cases waits
  | limit _ limited reached =>
    have limit := head.atLimit_iff.mpr ⟨_, limited, reached⟩
    rw [below] at limit
    cases limit
  | cancelled due => omega

/-- A cancelled run comes to its end within the distance to the next look, at a head where the
uncancelled run is too. -/
theorem exists_endsCancelled {machine : Machine} {distance : Nat}
    (running : machine.status = .running) (due : 256 ∣ machine.count + distance)
    (near : distance < 256) :
    ∃ executed last stop final, executed ≤ distance ∧
      machine.run false executed = .going last ∧
      EndsCancelled (machine.count + distance) last stop final ∧
      last.turn true = .stop stop final ∧
      (stop ≠ .cancelled → last.turn false = .stop stop final) := by
  have same : machine.run true distance = machine.run false distance :=
    run_true_eq_run_false fun earlier bound => by omega
  cases ran : machine.run false distance with
  | going last =>
    obtain ⟨counted, _, stillRunning⟩ := count_of_going running ran
    exact ⟨distance, last, .cancelled, last, Nat.le_refl _, ran, .cancelled counted,
      turn_true_of_dvd stillRunning (counted ▸ due), absurd rfl⟩
  | stopped stop final =>
    obtain ⟨executed, last, bound, going, turned⟩ := exists_head_of_stopped ran
    obtain ⟨counted, _, stillRunning⟩ := count_of_going running going
    have between : ¬ 256 ∣ last.count := by omega
    exact ⟨executed, last, stop, final, Nat.le_of_lt bound, going,
      endsCancelled_of_turn stillRunning (by omega) turned,
      (turn_true_of_not_dvd between).trans turned, fun _ => turned⟩

/-- The next look is less than 256 instructions away: otherwise the multiple before it would not be
below the count either. -/
theorem lt_of_isLeast {count distance : Nat}
    (least : IsLeast { multiple | 256 ∣ multiple ∧ count ≤ multiple } (count + distance)) :
    distance < 256 := by
  obtain ⟨⟨due, _⟩, lower⟩ := least
  apply Nat.lt_of_not_le
  intro far
  have smaller : count + distance ≤ count + distance - 256 := lower ⟨by omega, by omega⟩
  omega

/-- No head of a run before the one that it has come to ends it, if it has not come past the next
look. -/
theorem not_endsCancelled_of_going {machine last : Machine} {executed distance : Nat}
    (running : machine.status = .running) (going : machine.run false executed = .going last)
    (bound : executed ≤ distance) {earlier : Nat} (before : earlier < executed) :
    ∃ head, machine.run false earlier = .going head ∧
      ∀ reason after, ¬ EndsCancelled (machine.count + distance) head reason after := by
  obtain ⟨later, rfl⟩ := Nat.exists_eq_add_of_lt before
  cases ran : machine.run false earlier with
  | stopped reason after =>
    rw [Nat.add_assoc, run_add_of_stopped ran] at going
    cases going
  | going head =>
    obtain ⟨headCount, _, _⟩ := count_of_going running ran
    rw [Nat.add_assoc, run_add_of_going ran] at going
    refine ⟨head, rfl, ?_⟩
    cases next : head.turn false with
    | stop reason after =>
      rw [run_of_stop next] at going
      cases going
    | next after => exact not_endsCancelled_of_next (by omega) next

/-- A run whose context was cancelled before it began goes through the heads of the uncancelled run
up to the first one where the program or its limit ends it, where it is stuck in a read, or where its
count is the least multiple of 256 that it can be. It ends there: as the uncancelled run does, or
cancelled. If it was
cancelled, it has executed at most 255 instructions, it is still running at a head of the
uncancelled run, and running it again is going on with that run: turn by turn, and with the same
end. -/
theorem cancelled_run_ends_at_next_poll {machine : Machine} {poll : Nat}
    (running : machine.status = .running)
    (least : IsLeast { count | 256 ∣ count ∧ machine.count ≤ count } poll) :
    ∃ executed last stop final,
      (∀ earlier < executed, ∃ head,
        machine.run true earlier = .going head ∧ machine.run false earlier = .going head ∧
          ∀ reason after, ¬ EndsCancelled poll head reason after) ∧
      machine.run true executed = .going last ∧ machine.run false executed = .going last ∧
      last.count = machine.count + executed ∧ last.limit = machine.limit ∧
      EndsCancelled poll last stop final ∧
      (∀ more, machine.run true (executed + 1 + more) = .stopped stop final) ∧
      (stop ≠ .cancelled → machine.Ends stop final) ∧
      (stop = .cancelled →
        final = last ∧ final.status = .running ∧ executed ≤ 255 ∧
          (∀ more, final.run false more = machine.run false (executed + more)) ∧
          ∀ reason after, final.Ends reason after ↔ machine.Ends reason after) := by
  obtain ⟨distance, rfl⟩ := Nat.exists_eq_add_of_le least.1.2
  have due := least.1.1
  have near := lt_of_isLeast least
  obtain ⟨executed, last, stop, final, bound, going, ends, turned, uncancelled⟩ :=
    exists_endsCancelled running due near
  obtain ⟨counted, limited, stillRunning⟩ := count_of_going running going
  have same : ∀ earlier ≤ executed, machine.run true earlier = machine.run false earlier :=
    fun earlier within => run_true_eq_run_false fun before inside => by omega
  have cancelledGoing : machine.run true executed = .going last :=
    (same executed (Nat.le_refl _)).trans going
  refine ⟨executed, last, stop, final, ?heads, cancelledGoing, going, counted, limited, ends,
    ?stops, ?agrees, ?resumes⟩
  case heads =>
    intro earlier before
    obtain ⟨head, ran, unended⟩ := not_endsCancelled_of_going running going bound before
    exact ⟨head, (same earlier (Nat.le_of_lt before)).trans ran, ran, unended⟩
  case stops =>
    intro more
    rw [Nat.add_assoc, run_add_of_going cancelledGoing, Nat.add_comm 1 more]
    exact run_of_stop turned more
  case agrees =>
    intro other
    rw [ends_iff_of_going going]
    exact .of_stop (uncancelled other)
  case resumes =>
    rintro rfl
    cases ends with
    | program _ _ ended _ => rcases act_stop ended with other | ⟨_, other⟩ | other <;> cases other
    | cancelled _ =>
      refine ⟨rfl, stillRunning, by omega, ?_, ?_⟩
      · intro more
        exact (run_add_of_going going more).symm
      · intro reason after
        exact (ends_iff_of_going going).symm

/-- An empty cell for a program: at a count of 250 and with a limit of 256, a cancelled run goes on
to the next look and is stopped by it, not by the limit that it has come to as well. -/
theorem cancelled_run_of_empty_cell :
    ∃ machine executed final,
      machine = { start (.ofRows [[' ']]) (.ofDraws [0]) with count := 250, limit := some 256 } ∧
        machine.status = .running ∧
        IsLeast { count | 256 ∣ count ∧ machine.count ≤ count } 256 ∧
        machine.run true (executed + 1) = .stopped .cancelled final ∧
        final.status = .running ∧ executed ≤ 255 ∧
        ∀ more, final.run false more = machine.run false (executed + more) := by
  refine ⟨{ start (.ofRows [[' ']]) (.ofDraws [0]) with count := 250, limit := some 256 }, ?_⟩
  generalize known :
    { start (.ofRows [[' ']]) (.ofDraws [0]) with count := 250, limit := some 256 } = machine
  have running : machine.status = .running := by
    subst known
    rfl
  have least : IsLeast { count | 256 ∣ count ∧ machine.count ≤ count } 256 := by
    subst known
    refine ⟨⟨Nat.dvd_refl 256, by decide⟩, ?_⟩
    rintro other ⟨due, reached⟩
    have above : 250 ≤ other := reached
    omega
  obtain ⟨after, computed⟩ : ∃ after, machine.run true 7 = .stopped .cancelled after := by
    subst known
    exact ⟨_, rfl⟩
  obtain ⟨executed, last, stop, final, _, _, _, _, _, _, stops, _, resumes⟩ :=
    cancelled_run_ends_at_next_poll running least
  have both := run_add_of_stopped computed (executed + 1)
  rw [Nat.add_comm, stops 7] at both
  cases both
  obtain ⟨_, stillRunning, bound, same, _⟩ := resumes rfl
  exact ⟨executed, after, rfl, running, least, stops 0, stillRunning, bound, same⟩

end Machine

end Aquarium
