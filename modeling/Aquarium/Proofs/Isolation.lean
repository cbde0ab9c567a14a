import Aquarium.CodeBox.Source
import Aquarium.Proofs.Contexts
import Aquarium.Proofs.History

/-!
# Nested stacks

An instruction reaches no stack but the active one, and the one beneath it when a stack is opened or
dropped. So a machine whose tower stands on other stacks runs as its upper part does alone, as long
as it does not drop the lowest stack of that part: `turn_atop` says this of a turn, and
`runUnder_atop` of a run. The stacks beneath are neither changed nor looked at; they show only in
the number of stacks that a failure names.
-/

namespace Aquarium

/-! ## Towers on the ground -/

namespace Tower

/-- A tower put on other stacks, the uppermost of which comes first. -/
def atop (tower : Tower) (ground : List Stack) : Tower :=
  { tower with beneath := tower.beneath ++ ground }

@[simp] theorem atop_nil (tower : Tower) : tower.atop [] = tower := by
  simp [atop]

@[simp] theorem size_atop (tower : Tower) (ground : List Stack) :
    (tower.atop ground).size = tower.size + ground.length := by
  simp only [atop, size, List.length_append]
  omega

theorem toList_atop (tower : Tower) (ground : List Stack) :
    (tower.atop ground).toList = ground.reverse ++ tower.toList := by
  simp [atop, toList]

theorem take_toList_atop (tower : Tower) (ground : List Stack) :
    (tower.atop ground).toList.take ground.length = ground.reverse := by
  rw [toList_atop, List.take_left' List.length_reverse]

theorem drop_toList_atop (tower : Tower) (ground : List Stack) :
    (tower.atop ground).toList.drop ground.length = tower.toList := by
  rw [toList_atop, List.drop_left' List.length_reverse]

/-- A tower is given by its stacks. -/
theorem toList_injective {left right : Tower} (same : left.toList = right.toList) :
    left = right := by
  cases left
  cases right
  simp_all [toList]

/-- A tower stands on as many of its lowest stacks as it has others above them. -/
theorem exists_atop {tower : Tower} {depth : Nat} (deep : depth < tower.size) :
    ∃ upper ground, tower = atop upper ground ∧ ground.length = depth := by
  have enough : depth ≤ tower.beneath.length := Nat.le_of_lt_succ deep
  refine ⟨⟨tower.active, tower.beneath.take (tower.beneath.length - depth)⟩,
    tower.beneath.drop (tower.beneath.length - depth), ?_, ?_⟩
  · simp [atop]
  · rw [List.length_drop]
    omega

/-- Dropping the active stack of a tower that has another one does not reach the ground. -/
theorem closeStack?_atop {tower : Tower} {ground : List Stack}
    (kept : tower.beneath ≠ [] ∨ ground = []) :
    (tower.atop ground).closeStack? = tower.closeStack?.map (·.atop ground) := by
  cases under : tower.beneath with
  | nil =>
    have bare : ground = [] := kept.resolve_left (absurd under)
    simp [bare]
  | cons below others => simp [closeStack?, atop, under]

/-- Dropping the only stack of a tower leaves the ground. -/
theorem size_of_closeStack?_atop {tower merged : Tower} {ground : List Stack}
    (alone : tower.beneath = []) (dropped : (tower.atop ground).closeStack? = some merged) :
    merged.size = ground.length := by
  unfold closeStack? at dropped
  split at dropped
  · cases dropped
  · rename_i below others under
    cases dropped
    simp only [atop, alone, List.nil_append] at under
    simp [size, under]

end Tower

/-! ## Steps over the ground -/

namespace Machine

/-- A machine whose tower is put on other stacks. -/
def atop (machine : Machine) (ground : List Stack) : Machine :=
  { machine with tower := machine.tower.atop ground }

/-- Whether executing a symbol would drop the only stack of a machine. -/
def DropsOnly (machine : Machine) (symbol : Int) : Prop :=
  machine.takesLiterally symbol = false ∧ Instruction.ofSymbol? symbol = some .closeStack ∧
    machine.tower.beneath = []

end Machine

/-- Every rule applies over the ground too, but for the one that would reach it. -/
theorem Executes.atop {machine : Machine} {instruction : Instruction} {outcome : Outcome}
    (rule : Executes machine instruction outcome) {ground : List Stack}
    (kept : instruction = .closeStack → machine.tower.beneath ≠ [] ∨ ground = []) :
    Executes (machine.atop ground) instruction (outcome.map (·.atop ground)) := by
  cases rule with
  | rest => exact .rest
  | face heading => exact .face heading
  | wander drawn => exact .wander drawn
  | reflect mirror => exact .reflect mirror
  | skip => exact .skip
  | skipped held zero => exact .skipped held zero
  | notSkipped held nonzero => exact .notSkipped held nonzero
  | jump held => exact .jump held
  | literal digit => exact .literal digit
  | combine held applied => exact .combine held applied
  | toggle quote => exact .toggle quote
  | reshape shape changed => exact .reshape shape changed
  | length => exact .length
  | openStack held enough => exact .openStack held enough
  | closeStack merged =>
    refine .closeStack ?_
    show (machine.tower.atop ground).closeStack? = _
    rw [Tower.closeStack?_atop (kept rfl), merged]
    rfl
  | write held prints taken => exact .write held prints taken
  | readRune reading => exact .readRune reading
  | readNothing reading intact answered => exact .readNothing reading intact answered
  | fetch held => exact .fetch held
  | store held => exact .store held
  | finish => exact .finish
  | underflow lacking => exact .underflow lacking
  | countTooLarge held short => exact .countTooLarge held short
  | divideByZero held undefined => exact .divideByZero held undefined
  | lastStack alone =>
    refine .lastStack ?_
    show (machine.tower.atop ground).closeStack? = _
    rw [Tower.closeStack?_atop (kept rfl), alone]
    rfl
  | notACharacter held foreign => exact .notACharacter held foreign
  | refuse held prints refused => exact .refuse held prints refused
  | readBroken reading => exact .readBroken reading
  | readStuck reading => exact .readStuck reading

namespace Machine

/-- A step that does not drop the only stack does over the ground what it does without it. -/
theorem step_atop {machine : Machine} {symbol : Int} {ground : List Stack}
    (kept : ¬ machine.DropsOnly symbol ∨ ground = []) :
    (machine.atop ground).step symbol = (machine.step symbol).map (·.atop ground) := by
  have same : (machine.atop ground).takesLiterally symbol = machine.takesLiterally symbol := rfl
  unfold step
  rw [same]
  cases taken : machine.takesLiterally symbol with
  | true => rfl
  | false =>
    cases stands : Instruction.ofSymbol? symbol with
    | none => rfl
    | some instruction =>
      refine execute_of_executes ((machine.executes instruction).atop ?_)
      rintro rfl
      exact kept.imp_left fun keeps alone => keeps ⟨taken, stands, alone⟩

/-- A step after which there are more stacks than the ground has did not drop the only other one. -/
theorem not_dropsOnly_of_deep {machine : Machine} {symbol : Int} {ground : List Stack}
    (deep : ground.length < ((machine.atop ground).step symbol).machine.tower.size) :
    ¬ machine.DropsOnly symbol ∨ ground = [] := by
  refine Decidable.or_iff_not_imp_right.mpr ?_
  rintro present ⟨taken, stands, alone⟩
  have executed : (machine.atop ground).step symbol =
      (machine.atop ground).execute .closeStack := by
    have same : (machine.atop ground).takesLiterally symbol = false := taken
    simp only [step, same, stands, Bool.false_eq_true, if_false]
  rw [executed] at deep
  generalize ended : (machine.atop ground).execute .closeStack = outcome at deep
  cases executes_iff.mpr ended with
  | closeStack merged =>
    have low := Tower.size_of_closeStack?_atop alone merged
    exact absurd low (Nat.ne_of_gt deep)
  | lastStack single =>
    have one := (Tower.closeStack?_eq_none_iff _).mp single
    have some : 0 < ground.length := List.length_pos_iff.mpr present
    have bare : machine.tower.size = 1 := by simp [Tower.size, alone]
    simp only [atop, Tower.size_atop] at one
    omega
  | reshape shape _ => cases shape
  | write _ prints _ => cases prints
  | refuse _ prints _ => cases prints
  | underflow lacking => exact absurd lacking (Nat.not_lt_zero _)

end Machine

/-! ## Turns over the ground -/

/-- The same stop with so many stacks more. -/
def Stop.deeper (extra : Nat) : Stop → Stop
  | .failed site failure => .failed { site with depth := site.depth + extra } failure
  | stop => stop

/-- The same turn over the ground. -/
def Turn.atop (ground : List Stack) : Turn → Turn
  | .stop reason machine => .stop (reason.deeper ground.length) (machine.atop ground)
  | .next machine => .next (machine.atop ground)

namespace Machine

/-- A turn that nothing holds up ends with the tower that its step leaves. -/
theorem tower_act (machine : Machine) :
    machine.act.machine.tower = (machine.step machine.symbol).machine.tower :=
  view_act (fun _ _ _ _ => rfl) machine

/-- A turn that nothing holds up and that does not drop the only stack does over the ground what it
does without it. -/
theorem act_atop {machine : Machine} {ground : List Stack}
    (kept : ¬ machine.DropsOnly machine.symbol ∨ ground = []) :
    (machine.atop ground).act = machine.act.atop ground := by
  have symbols : (machine.atop ground).symbol = machine.symbol := rfl
  have sites : (machine.atop ground).site machine.symbol =
      { machine.site machine.symbol with
        depth := (machine.site machine.symbol).depth + ground.length } := by
    simp [site, atop]
  rw [act_eq, act_eq, symbols, step_atop kept]
  cases machine.step machine.symbol with
  | failed failure after =>
    simp only [Outcome.map, sites]
    rfl
  | stuck after => rfl
  | done after =>
    have status : (after.atop ground).status = after.status := rfl
    simp only [Outcome.map, status]
    split <;> rfl

/-- A turn that ends above some ground does over any ground of that height what it does alone. -/
theorem turn_atop {machine : Machine} {cancelled : Bool} {ground other : List Stack}
    (level : other.length = ground.length)
    (deep : ground.length < ((machine.atop ground).turn cancelled).machine.tower.size) :
    (machine.atop other).turn cancelled = (machine.turn cancelled).atop other := by
  rcases machine.turn_cases cancelled with
    ⟨stopped, held⟩ | ⟨running, polled, held⟩ | ⟨running, unpolled, reached, held⟩ |
      ⟨running, unpolled, below, acted⟩
  · rw [held, turn_eq]
    exact if_pos stopped
  · rw [held, turn_eq]
    exact (if_neg (not_not_intro running)).trans (if_pos polled)
  · rw [held, turn_eq]
    refine (if_neg (not_not_intro running)).trans ((if_neg ?_).trans (if_pos reached))
    exact Bool.not_eq_true _ |>.mpr unpolled
  · have acts : ∀ ground, (machine.atop ground).turn cancelled = (machine.atop ground).act :=
      fun ground => turn_eq_act running unpolled below
    rw [acts, tower_act] at deep
    have kept := not_dropsOnly_of_deep deep
    rw [acts, acted]
    refine act_atop (kept.imp_right fun bare => ?_)
    rw [bare] at level
    exact List.length_eq_zero_iff.mp level

end Machine

/-! ## Runs over the ground -/

namespace Progress

/-- The same progress over the ground. -/
def atop (ground : List Stack) : Progress → Progress
  | .stopped stop machine => .stopped (stop.deeper ground.length) (machine.atop ground)
  | .going machine => .going (machine.atop ground)

theorem machine_atop (progress : Progress) (ground : List Stack) :
    (progress.atop ground).machine = progress.machine.atop ground := by
  cases progress <;> rfl

end Progress

namespace Machine

/-- A run that stays above some ground does over any ground of that height what it does alone. -/
theorem runUnder_atop {machine : Machine} {contexts : List Bool} {ground other : List Stack}
    (level : other.length = ground.length)
    (deep : ∀ earlier, ground.length <
      ((machine.atop ground).runUnder (contexts.take earlier)).machine.tower.size) :
    (machine.atop other).runUnder contexts = (machine.runUnder contexts).atop other := by
  induction contexts generalizing machine with
  | nil => rfl
  | cons cancelled later hypothesis =>
    have first : ground.length < ((machine.atop ground).turn cancelled).machine.tower.size := by
      rw [← machine_runUnder_singleton]
      exact deep 1
    have lifted := turn_atop level first
    have same := turn_atop rfl first
    cases turned : machine.turn cancelled with
    | stop stop after =>
      rw [turned] at lifted
      simp only [runUnder, lifted, turned]
      rfl
    | next after =>
      rw [turned] at lifted same
      simp only [runUnder, lifted, turned]
      apply hypothesis
      intro earlier
      have stays := deep (earlier + 1)
      simp only [List.take_succ_cons, runUnder, same] at stays
      exact stays

/-! ## Isolation -/

/-- Two machines with as many stacks that differ in nothing but their lowest ones. -/
structure AgreeAbove (depth : Nat) (left right : Machine) : Prop where
  size : right.tower.size = left.tower.size
  upper : right.tower.toList.drop depth = left.tower.toList.drop depth
  rest : right = { left with tower := right.tower }

/-- Machines over ground of the same height agree above it. -/
theorem agreeAbove_atop (machine : Machine) {ground other : List Stack}
    (level : other.length = ground.length) :
    (machine.atop ground).AgreeAbove ground.length (machine.atop other) where
  size := by simp [atop, level]
  upper := by
    show (machine.tower.atop other).toList.drop ground.length =
      (machine.tower.atop ground).toList.drop ground.length
    rw [Tower.drop_toList_atop, ← level, Tower.drop_toList_atop]
  rest := rfl

/-- Machines that agree above their lowest stacks are one machine over two grounds. -/
theorem AgreeAbove.exists_atop {depth : Nat} {left right : Machine}
    (agree : left.AgreeAbove depth right) (deep : depth < left.tower.size) :
    ∃ (machine : Machine) (ground other : List Stack), ground.length = depth ∧
      other.length = depth ∧ left = machine.atop ground ∧ right = machine.atop other := by
  obtain ⟨upper, ground, leftTower, level⟩ := Tower.exists_atop deep
  obtain ⟨above, other, rightTower, sameLevel⟩ := Tower.exists_atop (agree.size ▸ deep)
  have drops := agree.upper
  rw [leftTower, rightTower, ← level, Tower.drop_toList_atop, level, ← sameLevel,
    Tower.drop_toList_atop] at drops
  cases Tower.toList_injective drops
  refine ⟨{ left with tower := upper }, ground, other, level, sameLevel, ?_, ?_⟩
  · rw [atop, ← leftTower]
  · rw [agree.rest, rightTower]
    rfl

end Machine

/-- Two runs that have come equally far, to machines that agree above their lowest stacks, and if
they have stopped, for the same reason. -/
inductive Progress.AgreeAbove (depth : Nat) : Progress → Progress → Prop where
  | going {left right : Machine} (agree : left.AgreeAbove depth right) :
      AgreeAbove depth (.going left) (.going right)
  | stopped {left right : Machine} (stop : Stop) (agree : left.AgreeAbove depth right) :
      AgreeAbove depth (.stopped stop left) (.stopped stop right)

/-- The same progress over ground of the same height agrees above it. -/
theorem Progress.agreeAbove_atop (progress : Progress) {ground other : List Stack}
    (level : other.length = ground.length) :
    AgreeAbove ground.length (progress.atop ground) (progress.atop other) := by
  cases progress with
  | going machine => exact .going (machine.agreeAbove_atop level)
  | stopped stop machine =>
    unfold atop
    rw [level]
    exact .stopped _ (machine.agreeAbove_atop level)

namespace Machine

/-- As long as a run has more than so many stacks, its lowest ones stay what they are, registers
included, whatever is executed and whatever becomes of the context. Nor does the run depend on them:
from a machine that differs in nothing else, it goes through the same states but for them, and stops
with the same failures. -/
theorem lowest_stacks_isolated {machine : Machine} {depth : Nat} {contexts : List Bool}
    (deep : ∀ earlier ≤ contexts.length,
      depth < (machine.runUnder (contexts.take earlier)).machine.tower.size) :
    (∀ earlier ≤ contexts.length,
      (machine.runUnder (contexts.take earlier)).machine.tower.toList.take depth =
        machine.tower.toList.take depth) ∧
    ∀ other, machine.AgreeAbove depth other →
      ∀ earlier ≤ contexts.length,
        (machine.runUnder (contexts.take earlier)).AgreeAbove depth
          (other.runUnder (contexts.take earlier)) := by
  have first : depth < machine.tower.size := deep 0 (Nat.zero_le _)
  -- Every part of a stretch that stays above is such a stretch itself.
  have parts : ∀ earlier ≤ contexts.length, ∀ before,
      depth < (machine.runUnder ((contexts.take earlier).take before)).machine.tower.size := by
    intro earlier within before
    rw [List.take_take]
    exact deep _ (by omega)
  have lift : ∀ (upper : Machine) (ground other : List Stack), machine = upper.atop ground →
      ground.length = depth → other.length = depth → ∀ earlier ≤ contexts.length,
        (upper.atop other).runUnder (contexts.take earlier) =
          (upper.runUnder (contexts.take earlier)).atop other := by
    rintro upper ground other same level sameLevel earlier within
    apply runUnder_atop (sameLevel.trans level.symm)
    rw [level, ← same]
    exact parts earlier within
  constructor
  · intro earlier within
    obtain ⟨upper, ground, tower, level⟩ := Tower.exists_atop first
    have same : machine = Machine.atop { machine with tower := upper } ground := by
      rw [atop, ← tower]
    have run := lift _ ground ground same level level earlier within
    rw [← same] at run
    rw [run, Progress.machine_atop, tower, ← level, Tower.take_toList_atop]
    exact Tower.take_toList_atop _ ground
  · intro other agree earlier within
    obtain ⟨upper, ground, instead, level, sameLevel, rfl, rfl⟩ := agree.exists_atop first
    rw [lift upper ground ground rfl level level earlier within,
      lift upper ground instead rfl level sameLevel earlier within, ← level]
    exact Progress.agreeAbove_atop _ (sameLevel.trans level.symm)

/-- A program that opens a stack on the upper of two and drops it again, over two different lowest
stacks. -/
theorem lowest_stack_isolated_from_opening :
    ∃ machine other : Machine,
      machine = { start (.ofRows ["1[]".toList]) (.ofDraws [0]) with
        tower := ⟨⟨[5], none⟩, [⟨[7], some 8⟩]⟩ } ∧
      other = { machine with tower := ⟨⟨[5], none⟩, [⟨[], none⟩]⟩ } ∧
      (machine.run false 3).machine.tower.toList.take 1 = [⟨[7], some 8⟩] ∧
      (machine.run false 3).AgreeAbove 1 (other.run false 3) := by
  refine ⟨_, _, rfl, rfl, ?_⟩
  generalize known : { start (.ofRows ["1[]".toList]) (.ofDraws [0]) with
    tower := ⟨⟨[5], none⟩, [⟨[7], some 8⟩]⟩ } = machine
  have deep : ∀ earlier ≤ (List.replicate 3 false).length,
      1 < (machine.runUnder ((List.replicate 3 false).take earlier)).machine.tower.size := by
    subst known
    decide +kernel
  have agree : machine.AgreeAbove 1 { machine with tower := ⟨⟨[5], none⟩, [⟨[], none⟩]⟩ } := by
    subst known
    exact ⟨rfl, rfl, rfl⟩
  obtain ⟨kept, same⟩ := lowest_stacks_isolated deep
  rw [run_eq_runUnder, run_eq_runUnder]
  refine ⟨?_, same _ agree 3 (Nat.le_refl 3)⟩
  have lowest := kept 3 (Nat.le_refl 3)
  rw [show (List.replicate 3 false).take 3 = List.replicate 3 false from rfl] at lowest
  rw [lowest, ← known]
  rfl

end Machine

end Aquarium
