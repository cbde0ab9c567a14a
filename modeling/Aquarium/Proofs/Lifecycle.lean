import Aquarium.Proofs.Contexts
import Aquarium.Proofs.WellFormed

/-!
# The life of a machine

A machine that has halted or faulted is done: no run executes anything on it, and nothing else that
its owner may do touches its course. `Touch` lists what an owner may do to a machine apart from
running it, and `Chronicle` is a history that keeps the heads at which its runs executed a symbol.
The count of a machine is the number of those heads whose step completed. `Returned` says what a run
that has stopped did to the status, the cursor and the count, by the reason that it gives.
-/

namespace Aquarium

/-- The status that a machine is left with, by the reason for which its run stopped. -/
def Stop.status : Stop → Status
  | .halted => .halted
  | .limitReached => .running
  | .cancelled => .running
  | .failed _ _ => .faulted
  | .notRunning status => status
  | .stuck => .running

namespace Machine

/-! ## Touching a machine -/

/-- What is the same in two machines that differ in nothing but their numbers, their box and their
world: where the program has come to, and the registers. -/
structure SameCourse (before after : Machine) : Prop where
  status : after.status = before.status
  cursor : after.cursor = before.cursor
  heading : after.heading = before.heading
  quoting : after.quoting = before.quoting
  count : after.count = before.count
  depth : after.tower.size = before.tower.size
  registers : after.tower.toList.map Stack.register = before.tower.toList.map Stack.register

theorem SameCourse.refl (machine : Machine) : machine.SameCourse machine :=
  ⟨rfl, rfl, rfl, rfl, rfl, rfl, rfl⟩

theorem SameCourse.trans {first second third : Machine} (left : first.SameCourse second)
    (right : second.SameCourse third) : first.SameCourse third where
  status := right.status.trans left.status
  cursor := right.cursor.trans left.cursor
  heading := right.heading.trans left.heading
  quoting := right.quoting.trans left.quoting
  count := right.count.trans left.count
  depth := right.depth.trans left.depth
  registers := right.registers.trans left.registers

/-- A machine whose active stack has other numbers is on the same course. -/
theorem sameCourse_active (machine : Machine) {active : Stack}
    (register : active.register = machine.tower.active.register) :
    machine.SameCourse { machine with tower := { machine.tower with active } } where
  status := rfl
  cursor := rfl
  heading := rfl
  quoting := rfl
  count := rfl
  depth := rfl
  registers := by simp [Tower.toList, register]

end Machine

/-- What the owner of a machine may do to it apart from running it. -/
inductive Touch where
  | push (number : Number)
  | pop
  | adjust (adjustments : List Adjustment)
  | pushInput (reader : Reader)
  | pushMissing (name : Nat)
  | flush
  | poke (depth place : Nat) (number : Number)
  | write (position : Position) (number : Number)

namespace Machine

/-- The machine that a touch leaves. -/
def touch (machine : Machine) : Touch → Machine
  | .push number => machine.push number
  | .pop => (machine.pop?.map Prod.snd).getD machine
  | .adjust adjustments => (machine.adjustAll adjustments).2
  | .pushInput reader => machine.pushInput reader
  | .pushMissing name => machine.pushMissing name
  | .flush => machine.flush.2
  | .poke depth place number =>
    { machine with tower := machine.tower.pokeAt depth place number }
  | .write position number => { machine with box := machine.box.set position number }

end Machine

theorem Stack.register_pushAll (stack : Stack) (numbers : List Number) :
    (stack.pushAll numbers).register = stack.register := by
  induction numbers generalizing stack with
  | nil => rfl
  | cons number others hypothesis => exact hypothesis (stack.push number)

theorem Tower.registers_pokeAt (tower : Tower) (depth place : Nat) (number : Number) :
    (tower.pokeAt depth place number).toList.map Stack.register =
      tower.toList.map Stack.register := by
  cases depth with
  | zero => simp [pokeAt, toList, Stack.poke]
  | succ below =>
    have others : (tower.beneath.modify below fun stack => stack.poke place number).map
        Stack.register = tower.beneath.map Stack.register := by
      apply List.ext_getElem?
      intro index
      rw [List.getElem?_map, List.getElem?_map, List.getElem?_modify]
      cases tower.beneath[index]? with
      | none => rfl
      | some stack =>
        simp only [Option.map_eq_map, Option.map_some]
        split <;> rfl
    simp [pokeAt, toList, others]

namespace Machine

/-- No adjustment touches the course of a machine. -/
theorem sameCourse_adjust {before after : Machine} {adjustment : Adjustment}
    (made : before.adjust adjustment = .ok after) : before.SameCourse after := by
  cases adjustment with
  | push numbers =>
    cases made
    exact before.sameCourse_active (Stack.register_pushAll _ _)
  | limit steps =>
    simp only [adjust] at made
    split at made <;> cases made
    exact ⟨rfl, rfl, rfl, rfl, rfl, rfl, rfl⟩
  | compass compass =>
    cases made
    exact ⟨rfl, rfl, rfl, rfl, rfl, rfl, rfl⟩
  | input reader =>
    cases made
    exact ⟨rfl, rfl, rfl, rfl, rfl, rfl, rfl⟩
  | missing name =>
    cases made
    exact ⟨rfl, rfl, rfl, rfl, rfl, rfl, rfl⟩
  | output outlet =>
    cases made
    exact ⟨rfl, rfl, rfl, rfl, rfl, rfl, rfl⟩
  | trace wanted =>
    cases wanted <;> cases made
    exact ⟨rfl, rfl, rfl, rfl, rfl, rfl, rfl⟩

/-- Nothing that an owner does touches the course of a machine. -/
theorem sameCourse_touch (machine : Machine) (touch : Touch) :
    machine.SameCourse (machine.touch touch) := by
  cases touch with
  | push number => exact machine.sameCourse_active rfl
  | pop =>
    cases held : machine.values with
    | nil =>
      have nothing : machine.touch .pop = machine := by simp [touch, pop?, held]
      rw [nothing]
      exact .refl machine
    | cons number rest =>
      have popped : machine.touch .pop = machine.withValues rest := by simp [touch, pop?, held]
      rw [popped]
      exact machine.sameCourse_active rfl
  | adjust adjustments =>
    exact adjustAll_keeps (fun _ _ _ made same => same.trans (sameCourse_adjust made)) adjustments
      (.refl machine)
  | pushInput reader => exact ⟨rfl, rfl, rfl, rfl, rfl, rfl, rfl⟩
  | pushMissing name => exact ⟨rfl, rfl, rfl, rfl, rfl, rfl, rfl⟩
  | flush => exact ⟨rfl, rfl, rfl, rfl, rfl, rfl, rfl⟩
  | poke depth place number =>
    exact ⟨rfl, rfl, rfl, rfl, rfl, machine.tower.size_pokeAt _ _ _,
      machine.tower.registers_pokeAt _ _ _⟩
  | write position number => exact ⟨rfl, rfl, rfl, rfl, rfl, rfl, rfl⟩

/-! ## Runs -/

/-- A step ends the program if and only if it executes the instruction for that. -/
theorem act_halted_iff {machine : Machine} (running : machine.status = .running) :
    (∃ after, machine.act = .stop .halted after) ↔ machine.Meets ';' := by
  constructor
  · rintro ⟨after, halted⟩
    rcases machine.act_cases with
      ⟨_, _, _, went⟩ | ⟨done, stepped, ended, _⟩ | ⟨_, _, _, failed⟩ | ⟨_, _, stuck⟩
    · rw [went] at halted
      cases halted
    · rcases machine.step_cases machine.symbol with
        ⟨_, literal⟩ | ⟨instruction, executed, found, performed⟩ | ⟨_, _, invalid⟩
      · rw [literal] at stepped
        cases stepped
        exact absurd running ended
      · rw [performed] at stepped
        cases executes_iff.mpr stepped with
        | finish => exact (machine.meets_iff .finish (by simp)).mpr ⟨executed, found⟩
        | _ => exact absurd running ended
      · rw [invalid] at stepped
        cases stepped
    · rw [failed] at halted
      cases halted
    · rw [stuck] at halted
      cases halted
  · intro finishes
    have stepped : machine.step machine.symbol = .done { machine with status := .halted } :=
      step_of_meets .finish (by simp) finishes
    exact ⟨_, by rw [act_eq, stepped]; exact if_neg (by simp)⟩

/-- A program that ends leaves the cursor where it was. -/
theorem cursor_of_act_halted {machine after : Machine} (running : machine.status = .running)
    (halted : machine.act = .stop .halted after) :
    after.cursor = machine.cursor ∧ after.status = .halted := by
  rcases machine.act_cases with
    ⟨_, _, _, went⟩ | ⟨done, stepped, ended, stopped⟩ | ⟨_, _, _, failed⟩ | ⟨_, _, stuck⟩
  · rw [went] at halted
    cases halted
  · rw [stopped] at halted
    cases halted
    rw [eq_of_step_halted running stepped ended]
    exact ⟨rfl, rfl⟩
  · rw [failed] at halted
    cases halted
  · rw [stuck] at halted
    cases halted

/-- A turn that is stuck leaves the machine in the middle of its step, apart from the readers as it
was. -/
theorem status_of_act_stuck {machine after : Machine} (stuck : machine.act = .stop .stuck after) :
    after.status = machine.status := by
  rcases machine.act_cases with
    ⟨_, _, _, went⟩ | ⟨_, _, _, halted⟩ | ⟨_, _, _, failed⟩ | ⟨_, stepped, waits⟩
  · rw [went] at stuck
    cases stuck
  · rw [halted] at stuck
    cases stuck
  · rw [failed] at stuck
    cases stuck
  · obtain ⟨_, _, _, _, _, rfl⟩ := exists_of_step_stuck stepped
    rw [waits] at stuck
    cases stuck
    rfl

/-- The status that a turn leaves when it stops. -/
theorem status_of_turn_stop {cancelled : Bool} {machine after : Machine} {stop : Stop}
    (turned : machine.turn cancelled = .stop stop after) : after.status = stop.status := by
  rcases machine.turn_cases cancelled with
    ⟨_, held⟩ | ⟨running, _, held⟩ | ⟨running, _, _, held⟩ | ⟨running, _, _, acted⟩
  · rw [held] at turned
    cases turned
    rfl
  · rw [held] at turned
    cases turned
    exact running
  · rw [held] at turned
    cases turned
    exact running
  · rw [acted] at turned
    rcases act_stop turned with rfl | ⟨failure, rfl⟩ | rfl
    · exact (cursor_of_act_halted running turned).2
    · rw [← acted] at turned
      obtain ⟨_, _, _, _, rfl⟩ := step_failed_of_turn turned
      rfl
    · exact (status_of_act_stuck turned).trans running

/-- A turn that nothing holds up counts its step if it completes. -/
theorem count_act (machine : Machine) :
    machine.act.machine.count = machine.count + if machine.completes then 1 else 0 := by
  rw [act_eq]
  unfold completes
  cases machine.step machine.symbol with
  | failed failure after => rfl
  | stuck after => rfl
  | done after =>
    dsimp only
    split <;> rfl

/-- The count goes up by the steps that are completed. -/
theorem count_runUnder (machine : Machine) (contexts : List Bool) :
    (machine.runUnder contexts).machine.count =
      machine.count + (machine.executed contexts).countP completes := by
  refine executed_induction (motive := fun before heads final =>
    final.count = before.count + heads.countP completes) ?idle ?acts machine contexts
  case idle =>
    intro machine
    rfl
  case acts =>
    intro machine heads final counted
    rw [counted, count_act, List.countP_cons]
    omega

/-- A turn that fetches a symbol is below the limit. -/
theorem count_lt_of_fetches {machine : Machine} {cancelled : Bool} {limit : Nat}
    (limited : machine.limit = some limit) (fetches : machine.Fetches cancelled) :
    machine.count < limit := by
  have below := fetches.2.2
  simp only [atLimit, limited, decide_eq_false_iff_not] at below
  omega

/-- No run takes the count beyond the limit, unless it was beyond it before. -/
theorem count_runUnder_le {machine : Machine} {limit : Nat} (limited : machine.limit = some limit)
    (contexts : List Bool) :
    (machine.runUnder contexts).machine.count ≤ max machine.count limit := by
  induction contexts generalizing machine with
  | nil => exact Nat.le_max_left _ _
  | cons cancelled later hypothesis =>
    rcases machine.turn_of_fetches_or_held cancelled with ⟨fetches, acted⟩ | ⟨_, _, held, _⟩
    · have below := count_lt_of_fetches limited fetches
      cases turned : machine.turn cancelled with
      | next after =>
        obtain ⟨counted, kept, _⟩ := act_next (acted.symm.trans turned)
        have bounded := hypothesis (kept.trans limited)
        rw [runUnder_of_next turned]
        omega
      | stop stop after =>
        have counted := machine.count_act
        rw [← acted, turned] at counted
        rw [runUnder_of_stop turned]
        have once : after.count ≤ machine.count + 1 := by
          rw [show after.count = _ from counted]
          split <;> omega
        show after.count ≤ _
        omega
    · rw [runUnder_of_stop held]
      exact Nat.le_max_left _ _

/-- A run that has stopped did so at its last head. The heads before it went on, and it is the last
that executed a symbol unless it was held up. -/
theorem exists_last_of_stopped {machine after : Machine} {contexts : List Bool} {stop : Stop}
    (stopped : machine.runUnder contexts = .stopped stop after) :
    ∃ earlier last cancelled,
      machine.executed contexts = earlier ++ (if last.Fetches cancelled then [last] else []) ∧
      (∀ head ∈ earlier, ∃ next, head.status = .running ∧ head.act = .next next) ∧
      last.turn cancelled = .stop stop after ∧
      (machine.status = .running → last.status = .running) := by
  induction contexts generalizing machine with
  | nil => cases stopped
  | cons cancelled later hypothesis =>
    cases turned : machine.turn cancelled with
    | stop reason left =>
      rw [runUnder_of_stop turned] at stopped
      cases stopped
      exact ⟨[], machine, cancelled, executed_of_stop turned later, by simp, turned, id⟩
    | next next =>
      rw [runUnder_of_next turned] at stopped
      obtain ⟨running, _, acted⟩ := act_of_turn_next turned
      obtain ⟨earlier, last, context, heads, went, ended, stays⟩ := hypothesis stopped
      obtain ⟨_, _, stillRunning⟩ := act_next acted
      refine ⟨machine :: earlier, last, context, ?_, ?_, ended, fun _ => stays stillRunning⟩
      · rw [executed_of_next turned, heads, List.cons_append]
      · intro head member
        rcases List.mem_cons.mp member with rfl | among
        · exact ⟨next, running, acted⟩
        · exact went head among

/-- What a run that has stopped did to the machine, by the reason that it gives. -/
structure Returned (before : Machine) (contexts : List Bool) (stop : Stop) (after : Machine) :
    Prop where
  status : after.status = stop.status
  moves : after.status = before.status ∨
    before.status = .running ∧ (after.status = .halted ∨ after.status = .faulted)
  halts : stop = .halted ↔ before.status = .running ∧ after.status = .halted
  finishes : stop = .halted ↔
    ∃ last, (before.executed contexts).getLast? = some last ∧ last.Meets ';'
  stays : stop = .halted → ∀ last, (before.executed contexts).getLast? = some last →
    after.cursor = last.cursor
  count : after.count = before.count + (before.executed contexts).countP completes
  limited : ∀ limit, before.limit = some limit → after.count ≤ max before.count limit

/-- A machine that is not running is returned as it is. -/
theorem runUnder_of_not_running {machine : Machine} (ended : machine.status ≠ .running)
    (cancelled : Bool) (later : List Bool) :
    machine.runUnder (cancelled :: later) = .stopped (.notRunning machine.status) machine ∧
      machine.executed (cancelled :: later) = [] := by
  have turned : machine.turn cancelled = .stop (.notRunning machine.status) machine := by
    rw [turn_eq, if_pos ended]
  have held : ¬ machine.Fetches cancelled := fun fetches => ended fetches.1
  exact ⟨runUnder_of_stop turned later, (executed_of_stop turned later).trans (if_neg held)⟩

/-- A turn that ends the program has fetched the symbol for that. -/
theorem act_of_turn_halted {machine after : Machine} {cancelled : Bool}
    (turned : machine.turn cancelled = .stop .halted after) :
    machine.Fetches cancelled ∧ machine.act = .stop .halted after := by
  rcases machine.turn_of_fetches_or_held cancelled with ⟨fetches, acted⟩ | ⟨_, _, held, other, _⟩
  · exact ⟨fetches, acted ▸ turned⟩
  · rw [held] at turned
    cases turned
    exact absurd rfl other

/-- A run of a machine that is running never says that it is not. -/
theorem not_running_of_stopped {machine after : Machine} {contexts : List Bool} {status : Status}
    (stopped : machine.runUnder contexts = .stopped (.notRunning status) after) :
    machine.status ≠ .running := by
  obtain ⟨_, last, cancelled, _, _, turned, stays⟩ := exists_last_of_stopped stopped
  intro running
  rcases last.turn_cases cancelled with
    ⟨ended, _⟩ | ⟨_, _, held⟩ | ⟨_, _, _, held⟩ | ⟨_, _, _, acted⟩
  · exact ended (stays running)
  · rw [held] at turned
    cases turned
  · rw [held] at turned
    cases turned
  · rw [acted] at turned
    rcases act_stop turned with other | ⟨_, other⟩ | other <;> cases other

/-- A run ends the program if and only if the last symbol that it executes is the one for that. -/
theorem halted_iff_last_finishes {machine after : Machine} {contexts : List Bool} {stop : Stop}
    (stopped : machine.runUnder contexts = .stopped stop after) :
    stop = .halted ↔
      ∃ last, (machine.executed contexts).getLast? = some last ∧ last.Meets ';' := by
  obtain ⟨earlier, head, cancelled, heads, went, turned, _⟩ := exists_last_of_stopped stopped
  rw [heads]
  constructor
  · rintro rfl
    obtain ⟨fetches, acted⟩ := act_of_turn_halted turned
    exact ⟨head, by simp [fetches], (act_halted_iff fetches.1).mp ⟨_, acted⟩⟩
  · rintro ⟨last, isLast, finishes⟩
    by_cases fetches : head.Fetches cancelled
    · rw [if_pos fetches, List.getLast?_concat] at isLast
      cases isLast
      obtain ⟨ended, acted⟩ := (act_halted_iff fetches.1).mpr finishes
      rw [turn_eq_act fetches.1 fetches.2.1 fetches.2.2, acted] at turned
      cases turned
      rfl
    · -- A head that went on did not execute the symbol.
      rw [if_neg fetches, List.append_nil] at isLast
      obtain ⟨next, running, acted⟩ := went last (List.mem_of_getLast? isLast)
      obtain ⟨ended, halted⟩ := (act_halted_iff running).mpr finishes
      rw [acted] at halted
      cases halted

/-- A run that ends the program leaves the cursor on its last symbol. -/
theorem cursor_of_halted {machine after last : Machine} {contexts : List Bool}
    (stopped : machine.runUnder contexts = .stopped .halted after)
    (isLast : (machine.executed contexts).getLast? = some last) : after.cursor = last.cursor := by
  obtain ⟨earlier, head, cancelled, heads, _, turned, _⟩ := exists_last_of_stopped stopped
  obtain ⟨fetches, acted⟩ := act_of_turn_halted turned
  rw [heads, if_pos fetches, List.getLast?_concat] at isLast
  cases isLast
  exact (cursor_of_act_halted fetches.1 acted).1

/-- Every run that stops returns so. -/
theorem returned_of_stopped {machine after : Machine} {contexts : List Bool} {stop : Stop}
    (stopped : machine.runUnder contexts = .stopped stop after) :
    machine.Returned contexts stop after := by
  have status : after.status = stop.status := by
    obtain ⟨_, _, _, _, _, turned, _⟩ := exists_last_of_stopped stopped
    exact status_of_turn_stop turned
  have counted := machine.count_runUnder contexts
  rw [stopped] at counted
  -- A run that is given a machine that is not running returns that machine.
  have refused : machine.status ≠ .running →
      stop = .notRunning machine.status ∧ after = machine := by
    intro ended
    cases contexts with
    | nil => cases stopped
    | cons cancelled later =>
      rw [(runUnder_of_not_running ended cancelled later).1] at stopped
      cases stopped
      exact ⟨rfl, rfl⟩
  refine ⟨status, ?moves, ?halts, halted_iff_last_finishes stopped, ?stays, counted, ?limited⟩
  case moves =>
    by_cases running : machine.status = .running
    · rw [running]
      cases after.status <;> simp
    · rw [(refused running).2]
      exact .inl rfl
  case halts =>
    constructor
    · rintro rfl
      refine ⟨Decidable.by_contra fun ended => ?_, status⟩
      cases (refused ended).1
    · rintro ⟨running, halted⟩
      rw [halted] at status
      cases stop with
      | halted => rfl
      | notRunning other => exact absurd running (not_running_of_stopped stopped)
      | limitReached => cases status
      | cancelled => cases status
      | failed site failure => cases status
      | stuck => cases status
  case stays =>
    rintro rfl last isLast
    exact cursor_of_halted stopped isLast
  case limited =>
    intro limit limited
    have bounded := count_runUnder_le limited contexts
    rw [stopped] at bounded
    exact bounded

/-! ## Chronicles -/

/-- A history that keeps the heads at which its runs executed a symbol, in order. -/
inductive Chronicle (machine : Machine) : List Machine → Machine → Prop where
  | start : Chronicle machine [] machine
  | run {heads : List Machine} {before after : Machine} {contexts : List Bool} {stop : Stop}
      (earlier : Chronicle machine heads before)
      (stopped : before.runUnder contexts = .stopped stop after) :
      Chronicle machine (heads ++ before.executed contexts) after
  | touch {heads : List Machine} {before : Machine} (earlier : Chronicle machine heads before)
      (touch : Touch) : Chronicle machine heads (before.touch touch)

/-- A run comes to its heads under some list of contexts. -/
theorem exists_contexts_of_turns {machine head : Machine} (turns : Turns machine head) :
    ∃ contexts, machine.runUnder contexts = .going head := by
  induction turns with
  | start => exact ⟨[], rfl⟩
  | @next head after cancelled earlier turned hypothesis =>
    obtain ⟨contexts, going⟩ := hypothesis
    refine ⟨contexts ++ [cancelled], ?_⟩
    rw [runUnder_append_of_going going, runUnder_of_next turned]
    rfl

/-- A call is a run that has stopped or a touch. -/
theorem run_or_touch_of_call {before after : Machine} (called : Call before after) :
    (∃ contexts stop, before.runUnder contexts = .stopped stop after) ∨
      ∃ touch, before.touch touch = after := by
  cases called with
  | @run last _ cancelled stop turns stopped =>
    obtain ⟨contexts, going⟩ := exists_contexts_of_turns turns
    refine .inl ⟨contexts ++ [cancelled], stop, ?_⟩
    rw [runUnder_append_of_going going, runUnder_of_stop stopped]
  | push number => exact .inr ⟨.push number, rfl⟩
  | pop popped => exact .inr ⟨.pop, by simp [Machine.touch, popped]⟩
  | popNothing empty => exact .inr ⟨.pop, by simp [Machine.touch, empty]⟩
  | adjust adjustments => exact .inr ⟨.adjust adjustments, rfl⟩
  | pushInput reader => exact .inr ⟨.pushInput reader, rfl⟩
  | pushMissing name => exact .inr ⟨.pushMissing name, rfl⟩
  | flush => exact .inr ⟨.flush, rfl⟩
  | poke depth place number => exact .inr ⟨.poke depth place number, rfl⟩
  | write position number => exact .inr ⟨.write position number, rfl⟩

/-- Every history can be chronicled. -/
theorem exists_chronicle {machine after : Machine} (history : History machine after) :
    ∃ heads, Chronicle machine heads after := by
  induction history with
  | start => exact ⟨[], .start⟩
  | call earlier called hypothesis =>
    obtain ⟨heads, chronicle⟩ := hypothesis
    rcases run_or_touch_of_call called with ⟨contexts, stop, stopped⟩ | ⟨touch, rfl⟩
    · exact ⟨_, .run chronicle stopped⟩
    · exact ⟨heads, .touch chronicle touch⟩

/-- The count goes up by the steps that are completed, over all runs. -/
theorem Chronicle.count {machine after : Machine} {heads : List Machine}
    (chronicle : Chronicle machine heads after) :
    after.count = machine.count + heads.countP completes := by
  induction chronicle with
  | start => rfl
  | @run heads before after contexts stop earlier stopped hypothesis =>
    rw [(returned_of_stopped stopped).count, hypothesis, List.countP_append, Nat.add_assoc]
  | touch earlier touch hypothesis => exact (sameCourse_touch _ touch).count.trans hypothesis

/-- A machine that is not running executes nothing any more and stays on its course. -/
theorem Chronicle.of_not_running {machine after : Machine} {heads : List Machine}
    (chronicle : Chronicle machine heads after) (ended : machine.status ≠ .running) :
    heads = [] ∧ machine.SameCourse after := by
  induction chronicle with
  | start => exact ⟨rfl, .refl machine⟩
  | @run heads before after contexts stop earlier stopped hypothesis =>
    obtain ⟨nothing, same⟩ := hypothesis
    have stillEnded : before.status ≠ .running := same.status ▸ ended
    cases contexts with
    | nil => cases stopped
    | cons cancelled later =>
      obtain ⟨returned, idle⟩ := runUnder_of_not_running stillEnded cancelled later
      rw [returned] at stopped
      cases stopped
      exact ⟨by rw [nothing, idle]; rfl, same⟩
  | touch earlier touch hypothesis =>
    exact ⟨hypothesis.1, hypothesis.2.trans (sameCourse_touch _ touch)⟩

/-- A machine that could be set up has executed nothing and is running. -/
theorem sameCourse_of_create {box : CodeBox} {compass : Compass} {adjustments : List Adjustment}
    {machine : Machine} (created : create (some box) compass adjustments = .ok machine) :
    (start box compass).SameCourse machine := by
  unfold create at created
  dsimp only at created
  split at created
  · cases created
  · have same := (start box compass).sameCourse_touch (.adjust adjustments)
    split at created
    · rename_i made
      cases created
      simp only [touch, made] at same
      exact same
    · cases created

/-! ## Main statement -/

/-- Whatever is done to a machine, in whatever order: its count is the number of steps that its runs
have completed, and nothing but a run changes its status. A run that stops returns as `Returned`
says: it leaves the status or ends a running machine, and it ends the program exactly by executing
the symbol for that, on which the cursor stays. A machine that is not running any more refuses every
run without a fault and as it is, executes nothing for ever, and stays on its course. -/
theorem ended_machine_stays_ended_and_count_is_faithful {box : CodeBox} {compass : Compass}
    {adjustments : List Adjustment} {machine after : Machine}
    (created : create (some box) compass adjustments = .ok machine)
    (history : History machine after) :
    (∃ heads, Chronicle machine heads after) ∧
    (∀ heads, Chronicle machine heads after → after.count = heads.countP completes) ∧
    (∀ touch, after.SameCourse (after.touch touch)) ∧
    (∀ contexts stop final, after.runUnder contexts = .stopped stop final →
      after.Returned contexts stop final) ∧
    (after.status ≠ .running →
      (∀ cancelled later, after.runUnder (cancelled :: later) =
        .stopped (.notRunning after.status) after) ∧
      (Stop.notRunning after.status).layers ≠ [] ∧
      (Stop.notRunning after.status).isFault = false ∧
      ∀ heads later, Chronicle after heads later → heads = [] ∧ after.SameCourse later) := by
  refine ⟨exists_chronicle history, ?counts, after.sameCourse_touch, ?runs, ?final⟩
  case counts =>
    intro heads chronicle
    rw [chronicle.count, (sameCourse_of_create created).count]
    exact Nat.zero_add _
  case runs =>
    intro contexts stop final stopped
    exact returned_of_stopped stopped
  case final =>
    intro ended
    refine ⟨fun cancelled later => (runUnder_of_not_running ended cancelled later).1,
      List.cons_ne_nil _ _, rfl, ?_⟩
    intro heads later chronicle
    exact chronicle.of_not_running ended

/-- A program that pushes a number and ends has counted two steps. With another number on its stack
it is refused a second run, as it is, and keeps its count whatever is done to it. -/
theorem ended_program_refuses_second_run :
    ∃ machine ended : Machine,
      create (some (.ofRows [['1', ';']])) (.ofDraws [0]) [.limit 5] = .ok machine ∧
        machine.run false 2 = .stopped .halted ended ∧
        (ended.push 7).count = 2 ∧
        (ended.push 7).runUnder [true] = .stopped (.notRunning .halted) (ended.push 7) ∧
        ∀ heads later, Chronicle (ended.push 7) heads later → heads = [] ∧ later.count = 2 := by
  obtain ⟨machine, created⟩ : ∃ machine,
      create (some (.ofRows [['1', ';']])) (.ofDraws [0]) [.limit 5] = .ok machine := ⟨_, rfl⟩
  obtain ⟨ended, stopped, status, count⟩ : ∃ ended,
      machine.run false 2 = .stopped .halted ended ∧ (ended.push 7).status = .halted ∧
        (ended.push 7).count = 2 := by
    cases created
    exact ⟨_, rfl, rfl, rfl⟩
  have history : History machine (ended.push 7) :=
    .call (.call .start (call_of_stopped stopped)) (.push 7)
  obtain ⟨_, _, _, _, final⟩ :=
    ended_machine_stays_ended_and_count_is_faithful created history
  obtain ⟨refuses, _, _, keeps⟩ := final (by simp [status])
  refine ⟨machine, ended, created, stopped, count, status ▸ refuses true [], ?_⟩
  intro heads later chronicle
  obtain ⟨nothing, same⟩ := keeps heads later chronicle
  exact ⟨nothing, same.count.trans count⟩

end Machine

end Aquarium
