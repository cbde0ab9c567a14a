import Aquarium.Proofs.Contexts

/-!
# Traces

A trace looks on. `Machine.tale` is what a run has to tell: at each head that executes a symbol, the
line before the step and, if the step completes, the line after it. `runUnder_withTrace` says that a
run with a trace is the run without one, with its tale in the journal. `tale_eq` puts the tale in
order: two lines for each completed step, and one more exactly if the run ends with a failing step.
-/

namespace Aquarium

namespace Trace

/-- The line before a step: the symbol fetched, the number of the step and the place of the cursor.
A symbol whose lowest 32 bits are an instruction is shown as a character with the name of the
instruction, any other as a number. -/
def opening (symbol : Int) (number : Nat) (place : Position) : String :=
  let shown := match Instruction.ofSymbol? (symbol.bmod (Nat.pow 2 32)) with
    | some instruction =>
      "instr [" ++ (Machine.symbolCharacter symbol).toString ++ "] " ++ instruction.mnemonic
    | none => "instr [" ++ toString symbol ++ "]"
  shown ++ (" n=" ++ toString number ++ " ip=" ++ toString place.row ++ "," ++
    toString place.column)

/-- The line after a step: the active stack, the bottom number first. -/
def closing (stack : Stack) : String :=
  "stack [" ++ String.intercalate " " (stack.toList.map Number.text) ++ "]"

end Trace

/-- The line of the step that a run has begun and not completed, if it has ended with one. -/
def Progress.unfinished : Progress → List String
  | .stopped (.failed site _) _ => [Trace.opening site.symbol site.step site.position]
  | .stopped .stuck machine =>
    [Trace.opening machine.symbol (machine.count + 1) machine.cursor]
  | _ => []

namespace Machine

/-- A machine with a trace wanted or not, and another journal. -/
def withTrace (machine : Machine) (wanted : Bool) (journal : List String) : Machine :=
  { machine with tracing := wanted, journal }

theorem stepNote_eq (machine : Machine) (symbol : Int) :
    machine.stepNote symbol = Trace.opening symbol (machine.count + 1) machine.cursor := by
  unfold stepNote Trace.opening
  cases Instruction.ofSymbol? (symbol.bmod (Nat.pow 2 32)) <;> simp [String.append_assoc]

theorem stackNote_eq (machine : Machine) :
    machine.stackNote = Trace.closing machine.tower.active := by
  simp [stackNote, stackText, Trace.closing, ← String.append_assoc]

/-! ## What a head has to tell -/

/-- The head and the machine that its step leaves, if the step completes. -/
def feat? (head : Machine) : Option (Machine × Machine) :=
  match head.step head.symbol with
  | .done after => some (head, after)
  | .failed _ _ => none
  | .stuck _ => none

/-- The steps that a run completes, in order: the head of each and the machine that it leaves. -/
def feats (contexts : List Bool) (machine : Machine) : List (Machine × Machine) :=
  machine.logged feat? contexts

/-- The lines of a completed step. -/
def recounted (feat : Machine × Machine) : List String :=
  [Trace.opening feat.1.symbol (feat.1.count + 1) feat.1.cursor,
    Trace.closing feat.2.tower.active]

/-- The lines of the step at a head. -/
def lines (head : Machine) : List String :=
  match head.step head.symbol with
  | .done after => recounted (head, after)
  | .failed _ _ => [Trace.opening head.symbol (head.count + 1) head.cursor]
  | .stuck _ => [Trace.opening head.symbol (head.count + 1) head.cursor]

/-- The lines of all steps that a run begins. -/
def tale (contexts : List Bool) (machine : Machine) : List String :=
  (machine.executed contexts).flatMap lines

/-- The journal after some lines, if a trace is wanted. -/
def journalAfter (wanted : Bool) (told journal : List String) : List String :=
  if wanted then told.reverse ++ journal else journal

@[simp] theorem journalAfter_nil (wanted : Bool) (journal : List String) :
    journalAfter wanted [] journal = journal := by
  cases wanted <;> rfl

theorem journalAfter_append (wanted : Bool) (earlier later journal : List String) :
    journalAfter wanted later (journalAfter wanted earlier journal) =
      journalAfter wanted (earlier ++ later) journal := by
  cases wanted <;> simp [journalAfter]

/-! ## A trace looks on -/

/-- A step does not look at the trace. -/
theorem step_withTrace (machine : Machine) (wanted : Bool) (journal : List String) :
    (machine.withTrace wanted journal).step machine.symbol =
      (machine.step machine.symbol).map (·.withTrace wanted journal) := by
  have stepped := machine.step_withLedger
    ⟨machine.count, machine.limit, wanted, journal⟩ machine.symbol
  have kept := machine.ledger_step machine.symbol
  -- The rest of the ledger is what the step has left there anyway.
  have same : ∀ after : Machine, after.ledger = machine.ledger →
      after.withLedger ⟨machine.count, machine.limit, wanted, journal⟩ =
        after.withTrace wanted journal := by
    intro after equal
    rw [← show after.count = machine.count from congrArg Ledger.count equal,
      ← show after.limit = machine.limit from congrArg Ledger.limit equal]
    rfl
  refine Eq.trans stepped ?_
  cases ended : machine.step machine.symbol with
  | done after =>
    rw [ended] at kept
    exact congrArg Outcome.done (same after kept)
  | failed failure after =>
    rw [ended] at kept
    exact congrArg (Outcome.failed failure) (same after kept)
  | stuck after =>
    rw [ended] at kept
    exact congrArg Outcome.stuck (same after kept)

/-- A turn that nothing holds up adds the lines of its step to the journal. -/
theorem act_withTrace (machine : Machine) (wanted : Bool) (journal : List String) :
    (machine.withTrace wanted journal).act =
      machine.act.map (·.withTrace wanted (journalAfter wanted machine.lines journal)) := by
  have symbols : (machine.withTrace wanted journal).symbol = machine.symbol := rfl
  have noted := machine.stepNote_eq machine.symbol
  rw [act_eq, act_eq, symbols, step_withTrace, lines]
  cases machine.step machine.symbol with
  | failed failure after =>
    cases wanted
    · rfl
    · simp only [Outcome.map, journalAfter, ← noted]
      rfl
  | stuck after =>
    cases wanted
    · rfl
    · simp only [Outcome.map, journalAfter, ← noted]
      rfl
  | done after =>
    have stacked := after.stackNote_eq
    have status : (after.withTrace wanted journal).status = after.status := rfl
    simp only [Outcome.map, recounted, status, ← noted, ← stacked]
    cases wanted <;> split <;> rfl

/-- The lines that a turn writes. -/
def turnLines (machine : Machine) (cancelled : Bool) : List String :=
  if machine.Fetches cancelled then machine.lines else []

theorem turn_withTrace (machine : Machine) (cancelled wanted : Bool) (journal : List String) :
    (machine.withTrace wanted journal).turn cancelled =
      (machine.turn cancelled).map
        (·.withTrace wanted (journalAfter wanted (machine.turnLines cancelled) journal)) := by
  unfold turnLines
  by_cases fetches : machine.Fetches cancelled
  · have fetched : (machine.withTrace wanted journal).Fetches cancelled := fetches
    rw [if_pos fetches, turn_eq_act fetches.1 fetches.2.1 fetches.2.2,
      turn_eq_act fetched.1 fetched.2.1 fetched.2.2, act_withTrace]
  · obtain ⟨stop, turned, same⟩ :=
      turns_of_not_fetches fetches (machine.withTrace wanted journal) rfl rfl rfl
    rw [if_neg fetches, turned, same, journalAfter_nil]
    rfl

theorem tale_of_next {cancelled : Bool} {machine after : Machine}
    (turned : machine.turn cancelled = .next after) (later : List Bool) :
    machine.tale (cancelled :: later) = machine.turnLines cancelled ++ after.tale later := by
  rw [tale, executed_of_next turned, List.flatMap_cons, turnLines,
    if_pos (fetches_of_next turned)]
  rfl

theorem tale_of_stop {cancelled : Bool} {machine after : Machine} {stop : Stop}
    (turned : machine.turn cancelled = .stop stop after) (later : List Bool) :
    machine.tale (cancelled :: later) = machine.turnLines cancelled := by
  rw [tale, executed_of_stop turned, turnLines]
  split <;> simp

/-- A run with a trace is the run without one, with its tale in the journal. -/
theorem runUnder_withTrace (machine : Machine) (contexts : List Bool) (wanted : Bool)
    (journal : List String) :
    (machine.withTrace wanted journal).runUnder contexts =
      (machine.runUnder contexts).map
        (·.withTrace wanted (journalAfter wanted (machine.tale contexts) journal)) := by
  induction contexts generalizing machine journal with
  | nil =>
    rw [show machine.tale [] = [] from rfl, journalAfter_nil]
    rfl
  | cons cancelled later hypothesis =>
    have same := machine.turn_withTrace cancelled wanted journal
    cases turned : machine.turn cancelled with
    | stop stop after =>
      rw [turned] at same
      rw [runUnder_of_stop turned, runUnder_of_stop same, tale_of_stop turned]
      rfl
    | next after =>
      rw [turned] at same
      rw [runUnder_of_next turned, runUnder_of_next same, tale_of_next turned,
        ← journalAfter_append]
      exact hypothesis after _

/-! ## The order of the tale -/

theorem lines_of_done {head after : Machine} (stepped : head.step head.symbol = .done after) :
    head.lines = recounted (head, after) := by
  simp only [lines, stepped]

theorem feat?_of_done {head after : Machine} (stepped : head.step head.symbol = .done after) :
    head.feat? = some (head, after) := by
  simp only [feat?, stepped]

theorem done_of_feat? {head other after : Machine} (noted : head.feat? = some (other, after)) :
    other = head ∧ head.step head.symbol = .done after := by
  unfold feat? at noted
  split at noted
  · rename_i done stepped
    cases noted
    exact ⟨rfl, stepped⟩
  · cases noted
  · cases noted

/-- A turn that goes on has completed the first step of the run. -/
theorem feats_of_next {cancelled : Bool} {machine after : Machine}
    (turned : machine.turn cancelled = .next after) (later : List Bool) :
    ∃ done, machine.step machine.symbol = .done done ∧
      machine.feats (cancelled :: later) = (machine, done) :: after.feats later := by
  obtain ⟨_, _, acted⟩ := act_of_turn_next turned
  obtain ⟨done, stepped, _, _⟩ := step_of_act_next acted
  refine ⟨done, stepped, ?_⟩
  rw [feats, logged_of_next turned, feat?_of_done stepped]
  rfl

/-- A step that a run begins is completed, unless it is the one that the run ends with. -/
theorem tale_eq (machine : Machine) (contexts : List Bool) :
    machine.tale contexts =
      (machine.feats contexts).flatMap recounted ++ (machine.runUnder contexts).unfinished := by
  induction contexts generalizing machine with
  | nil => rfl
  | cons cancelled later hypothesis =>
    cases turned : machine.turn cancelled with
    | next after =>
      obtain ⟨done, stepped, first⟩ := feats_of_next turned later
      rw [tale_of_next turned, hypothesis, first, runUnder_of_next turned, turnLines,
        if_pos (fetches_of_next turned), lines_of_done stepped, List.flatMap_cons,
        List.append_assoc]
    | stop stop after =>
      rw [tale_of_stop turned, feats, logged_of_stop turned, runUnder_of_stop turned, turnLines]
      rcases machine.turn_of_fetches_or_held cancelled with
        ⟨fetches, acted⟩ | ⟨unfetched, _, held, _, intact, answered⟩
      · rw [if_pos fetches, if_pos fetches]
        rw [acted] at turned
        rcases machine.act_cases with
          ⟨_, _, _, went⟩ | ⟨done, stepped, _, halted⟩ | ⟨failure, left, failed, stopped⟩ |
            ⟨left, stuck, waits⟩
        · rw [went] at turned
          cases turned
        · rw [halted] at turned
          cases turned
          rw [lines_of_done stepped, feat?_of_done stepped]
          rfl
        · rw [stopped] at turned
          cases turned
          simp only [lines, feat?, failed]
          rfl
        · rw [waits] at turned
          cases turned
          simp only [lines, feat?, stuck]
          obtain ⟨_, _, _, _, _, rfl⟩ := exists_of_step_stuck stuck
          rfl
      · rw [held] at turned
        cases turned
        rw [if_neg unfetched, if_neg unfetched]
        cases stop with
        | failed site failure => exact absurd rfl (intact site failure)
        | stuck => exact absurd rfl answered
        | _ => rfl

/-- The steps that a run completes are those of its heads, one after another. -/
theorem runUnder_take_of_feats {machine head after : Machine} {contexts : List Bool} {index : Nat}
    (found : (machine.feats contexts)[index]? = some (head, after)) :
    machine.runUnder (contexts.take index) = .going head ∧ head.count = machine.count + index ∧
      head.step head.symbol = .done after := by
  induction contexts generalizing machine index with
  | nil => cases found
  | cons cancelled later hypothesis =>
    cases turned : machine.turn cancelled with
    | next next =>
      obtain ⟨done, stepped, first⟩ := feats_of_next turned later
      rw [first] at found
      cases index with
      | zero =>
        cases found
        exact ⟨rfl, rfl, stepped⟩
      | succ index =>
        obtain ⟨going, counted, finished⟩ := hypothesis found
        obtain ⟨one, _, _⟩ := act_next (act_of_turn_next turned).2.2
        rw [List.take_succ_cons, runUnder_of_next turned]
        exact ⟨going, by omega, finished⟩
    | stop stop left =>
      rw [feats, logged_of_stop turned] at found
      split at found
      · cases noted : machine.feat? with
        | none =>
          rw [noted] at found
          cases found
        | some feat =>
          obtain ⟨other, reached⟩ := feat
          rw [noted] at found
          cases index with
          | zero =>
            cases found
            obtain ⟨rfl, stepped⟩ := done_of_feat? noted
            exact ⟨rfl, rfl, stepped⟩
          | succ index => cases found
      · cases found

/-- The count goes up by the steps that are completed. -/
theorem count_runUnder_eq_feats (machine : Machine) (contexts : List Bool) :
    (machine.runUnder contexts).machine.count =
      machine.count + (machine.feats contexts).length := by
  refine executed_induction (motive := fun before heads final =>
    final.count = before.count + (heads.filterMap feat?).length) ?idle ?acts machine contexts
  case idle =>
    intro machine
    rfl
  case acts =>
    intro machine heads final counted
    rcases machine.act_cases with
      ⟨done, stepped, _, acted⟩ | ⟨done, stepped, _, acted⟩ | ⟨_, _, failed, acted⟩ |
        ⟨_, stuck, acted⟩
    · rw [acted] at counted
      rw [List.filterMap_cons_some (feat?_of_done stepped), List.length_cons]
      have one : (done.withLedger (machine.settled done)).advance.count = machine.count + 1 := rfl
      simp only [Turn.machine, one] at counted
      omega
    · rw [acted] at counted
      rw [List.filterMap_cons_some (feat?_of_done stepped), List.length_cons]
      have one : (done.withLedger (machine.settled done)).count = machine.count + 1 := rfl
      simp only [Turn.machine, one] at counted
      omega
    · have nothing : machine.feat? = none := by simp only [feat?, failed]
      rw [acted] at counted
      rw [List.filterMap_cons_none nothing]
      exact counted
    · have nothing : machine.feat? = none := by simp only [feat?, stuck]
      obtain ⟨_, _, _, _, _, rfl⟩ := exists_of_step_stuck stuck
      rw [acted] at counted
      rw [List.filterMap_cons_none nothing]
      exact counted

/-- A run that ends with a failing step had completed those before it. -/
theorem exists_head_of_unfinished {machine final : Machine} {contexts : List Bool} {site : Site}
    {failure : Failure}
    (stopped : machine.runUnder contexts = .stopped (.failed site failure) final) :
    ∃ head left, machine.runUnder (contexts.take (machine.feats contexts).length) = .going head ∧
      head.step head.symbol = .failed failure left ∧ site = head.site head.symbol := by
  induction contexts generalizing machine with
  | nil => cases stopped
  | cons cancelled later hypothesis =>
    cases turned : machine.turn cancelled with
    | next next =>
      obtain ⟨_, _, first⟩ := feats_of_next turned later
      rw [runUnder_of_next turned] at stopped
      obtain ⟨head, left, going, rest⟩ := hypothesis stopped
      refine ⟨head, left, ?_, rest⟩
      rw [first, List.length_cons, List.take_succ_cons, runUnder_of_next turned]
      exact going
    | stop stop after =>
      rw [runUnder_of_stop turned] at stopped
      cases stopped
      obtain ⟨fetches, known, left, failed, _⟩ := step_failed_of_turn turned
      have nothing : machine.feats (cancelled :: later) = [] := by
        rw [feats, logged_of_stop turned, if_pos fetches]
        simp only [feat?, failed]
        rfl
      refine ⟨machine, left, ?_, failed, known⟩
      rw [nothing]
      rfl

/-! ## Main statement -/

/-- A trace looks on and tells everything. Whatever a machine and the context of its run, with a
trace the run stops for the same reason as without one, or goes on as it does, and comes to the same
machine but for the journal, to which it adds nothing without a trace. With one it adds, in order,
for each step that it completes the line before it, with the symbol fetched, the number of the step
and the place of the cursor, and the line after it, with the active stack; and then the line before
one more step exactly if it ends with that step failing. The steps are those of the run: the one
with a given index starts at the head to which so many turns lead, and they make up the whole of the
count. -/
theorem trace_tells_run_without_steering_it (machine : Machine) (contexts : List Bool) :
    let traced := machine.withTrace true machine.journal
    let plain := machine.withTrace false machine.journal
    (machine.adjust (.trace (some true)) = .ok traced ∧
      machine.adjust (.trace (some false)) = .ok plain) ∧
    (traced.runUnder contexts).map (·.withTrace false []) =
      (plain.runUnder contexts).map (·.withTrace false []) ∧
    (plain.runUnder contexts).machine.notes = machine.notes ∧
    (traced.runUnder contexts).machine.notes =
      machine.notes ++
        (traced.feats contexts).flatMap (fun feat =>
          [Trace.opening feat.1.symbol (feat.1.count + 1) feat.1.cursor,
            Trace.closing feat.2.tower.active]) ++
        (traced.runUnder contexts).unfinished ∧
    (traced.runUnder contexts).machine.count = machine.count + (traced.feats contexts).length ∧
    (∀ index head after, (traced.feats contexts)[index]? = some (head, after) →
      traced.runUnder (contexts.take index) = .going head ∧ head.count = machine.count + index ∧
        head.step head.symbol = .done after) ∧
    ∀ site failure final, traced.runUnder contexts = .stopped (.failed site failure) final →
      ∃ head left, traced.runUnder (contexts.take (traced.feats contexts).length) = .going head ∧
        head.step head.symbol = .failed failure left ∧ site = head.site head.symbol := by
  intro traced plain
  have observed : ∀ wanted, ((machine.withTrace wanted machine.journal).runUnder contexts).map
      (·.withTrace false []) = (machine.runUnder contexts).map (·.withTrace false []) := by
    intro wanted
    rw [runUnder_withTrace]
    cases machine.runUnder contexts <;> rfl
  have written : ∀ wanted,
      ((machine.withTrace wanted machine.journal).runUnder contexts).machine.journal =
        journalAfter wanted (machine.tale contexts) machine.journal := by
    intro wanted
    rw [runUnder_withTrace]
    cases machine.runUnder contexts <;> rfl
  -- The tale is the same with the trace, for it does not look at the journal either.
  have told : (traced.runUnder contexts).machine.journal =
      (traced.tale contexts).reverse ++ machine.journal := by
    have again := traced.runUnder_withTrace contexts true machine.journal
    have same : traced.withTrace true machine.journal = traced := rfl
    rw [same] at again
    rw [again]
    cases traced.runUnder contexts <;> rfl
  refine ⟨⟨rfl, rfl⟩, (observed true).trans (observed false).symm, ?silent, ?order,
    traced.count_runUnder_eq_feats contexts, ?steps, ?last⟩
  case silent => exact congrArg List.reverse (written false)
  case order =>
    rw [notes, told, List.reverse_append, List.reverse_reverse, tale_eq, ← List.append_assoc]
    rfl
  case steps =>
    intro index head after found
    exact runUnder_take_of_feats found
  case last =>
    intro site failure final stopped
    exact exists_head_of_unfinished stopped

/-- A program that pushes a number and divides, which fails for lack of a second one: the division
has a line before it and none after it. -/
theorem trace_of_failing_division :
    ∃ machine site final head,
      machine = (start (.ofRows [['1', ',']]) (.ofDraws [0])).withTrace true [] ∧
        machine.runUnder [false, false] = .stopped (.failed site (.fault .underflow)) final ∧
        final.notes =
          ["instr [1] lit 1 n=1 ip=0,0", "stack [1]", "instr [,] div n=2 ip=0,1"] ∧
        (machine.feats [false, false]).length = 1 ∧
        machine.runUnder [false] = .going head ∧ site = head.site head.symbol := by
  generalize known : start (.ofRows [['1', ',']]) (.ofDraws [0]) = machine
  obtain ⟨stop, final, stopped, reason, notes⟩ : ∃ stop final,
      (machine.withTrace true []).runUnder [false, false] = .stopped stop final ∧
        stop = .failed ⟨44, ⟨0, 1⟩, 2, 1⟩ (.fault .underflow) ∧
        final.notes =
          ["instr [1] lit 1 n=1 ip=0,0", "stack [1]", "instr [,] div n=2 ip=0,1"] := by
    subst known
    exact ⟨_, _, rfl, by decide +kernel, by decide +kernel⟩
  have start : machine.journal = [] := by
    subst known
    rfl
  obtain ⟨_, _, _, _, _, _, last⟩ :=
    trace_tells_run_without_steering_it machine [false, false]
  rw [start] at last
  subst reason
  obtain ⟨head, left, going, _, located⟩ := last _ _ _ stopped
  have once : ((machine.withTrace true []).feats [false, false]).length = 1 := by
    subst known
    decide +kernel
  rw [once] at going
  exact ⟨_, _, final, head, rfl, stopped, notes, once, going, located⟩

end Machine

end Aquarium
