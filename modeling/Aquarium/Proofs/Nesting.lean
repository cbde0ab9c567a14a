import Aquarium.Proofs.Isolation

/-!
# Opening a stack and dropping it

Numbers go to a new stack one by one, so they arrive in reverse, and they come back one by one, so
they are in order again: `openStack_ofList` and `closeStack?_ofList` say so of towers. Between the
two instructions the outer stack is ground that the run stands on (`beneath_of_inside`), so it waits
there with its register, whatever becomes of the inner one.
-/

namespace Aquarium

/-! ## Stacks and towers by their numbers -/

namespace Stack

/-- The stack that holds numbers, the bottom one first. -/
def ofList (numbers : List Number) (register : Option Number) : Stack :=
  ⟨numbers.reverse, register⟩

/-- A stack is given by its numbers and its register. -/
theorem ofList_toList (stack : Stack) : ofList stack.toList stack.register = stack := by
  simp [ofList, toList]

end Stack

namespace Tower

/-- The numbers that go to a new stack arrive in reverse, and those that stay keep the register. -/
theorem openStack_ofList (kept moved : List Number) (register : Option Number)
    (beneath : List Stack) :
    (⟨.ofList (kept ++ moved) register, beneath⟩ : Tower).openStack moved.length =
      ⟨.ofList moved.reverse none, .ofList kept register :: beneath⟩ := by
  simp [openStack, Stack.ofList, List.reverse_append]

/-- The numbers that come back arrive in reverse, and the register that they had beside them is
gone. -/
theorem closeStack?_ofList (kept inner : List Number) (register own : Option Number)
    (beneath : List Stack) :
    (⟨.ofList inner own, .ofList kept register :: beneath⟩ : Tower).closeStack? =
      some ⟨.ofList (kept ++ inner.reverse) register, beneath⟩ := by
  simp [closeStack?, Stack.ofList]

end Tower

namespace Machine

/-! ## Both instructions -/

/-- What opening a stack leaves, if it completes. -/
theorem eq_of_execute_openStack {outer opened : Machine} {kept moved : List Number}
    {count : Number} {register : Option Number} {beneath : List Stack}
    (holds : outer.tower = ⟨.ofList (kept ++ moved ++ [count]) register, beneath⟩)
    (takes : moved.length = count.toInt.toNat)
    (opens : outer.execute .openStack = .done opened) :
    opened =
      { outer with tower := ⟨.ofList moved.reverse none, .ofList kept register :: beneath⟩ } := by
  have values : outer.values = count :: (kept ++ moved).reverse := by
    simp [Machine.values, holds, Stack.ofList]
  cases executes_iff.mpr opens with
  | openStack held enough =>
    rw [values, List.cons.injEq] at held
    obtain ⟨rfl, rfl⟩ := held
    have popped : (outer.withValues (kept ++ moved).reverse).tower =
        ⟨.ofList (kept ++ moved) register, beneath⟩ := by
      simp [withValues, Tower.withValues, holds, Stack.ofList]
    rw [popped, ← takes, Tower.openStack_ofList]
    rfl
  | reshape shape _ => cases shape
  | write _ prints _ => cases prints

/-- What dropping a stack leaves. -/
theorem execute_closeStack {inner : Machine} {kept numbers : List Number}
    {register own : Option Number} {beneath : List Stack}
    (holds : inner.tower = ⟨.ofList numbers own, .ofList kept register :: beneath⟩) :
    inner.execute .closeStack =
      .done { inner with tower := ⟨.ofList (kept ++ numbers.reverse) register, beneath⟩ } := by
  refine execute_of_executes (.closeStack ?_)
  rw [holds, Tower.closeStack?_ofList]

/-! ## What lies between -/

/-- A run that never has fewer stacks than at its start, and has come back to as many, still has the
same stacks beneath the active one. -/
theorem beneath_of_inside {first inner : Machine} {contexts : List Bool}
    (going : first.runUnder contexts = .going inner)
    (deep : ∀ earlier ≤ contexts.length,
      first.tower.size ≤ (first.runUnder (contexts.take earlier)).machine.tower.size)
    (level : inner.tower.size = first.tower.size) : inner.tower.beneath = first.tower.beneath := by
  generalize upper : ({ first with tower := ⟨first.tower.active, []⟩ } : Machine) = alone
  have stands : first = alone.atop first.tower.beneath := by
    rw [← upper]
    rfl
  have above : ∀ earlier, first.tower.beneath.length <
      ((alone.atop first.tower.beneath).runUnder (contexts.take earlier)).machine.tower.size := by
    intro earlier
    rw [← stands, List.take_eq_take_min]
    exact deep _ (Nat.min_le_right _ _)
  rw [stands, runUnder_atop rfl above] at going
  cases progress : alone.runUnder contexts with
  | stopped stop final =>
    rw [progress] at going
    cases going
  | going head =>
    rw [progress] at going
    cases going
    have single : head.tower.beneath = [] := by
      have size : head.tower.size + first.tower.beneath.length = first.tower.size := by
        rw [← Tower.size_atop]
        exact level
      simp only [Tower.size] at size
      exact List.length_eq_zero_iff.mp (by omega)
    show head.tower.beneath ++ first.tower.beneath = first.tower.beneath
    rw [single, List.nil_append]

/-- The turn that opens a stack leaves the tower that the instruction does. -/
theorem tower_of_opening {outer next opened : Machine} {cancelled : Bool}
    (meets : outer.Meets '[') (opens : outer.execute .openStack = .done opened)
    (turned : outer.turn cancelled = .next next) : next.tower = opened.tower := by
  obtain ⟨_, _, acted⟩ := act_of_turn_next turned
  obtain ⟨done, stepped, _, rfl⟩ := step_of_act_next acted
  rw [step_of_meets .openStack (by decide) meets, opens] at stepped
  cases stepped
  rfl

/-- Opening a stack and dropping it again are inverse. If the instruction completes that takes a
count and opens a stack with as many numbers, none for a negative count, the new stack holds these
in reverse, its register is empty, and the stack beneath keeps the others and its register. Dropped
at once, the new stack gives back what it was given, and all that is left of the two instructions is
that the count is gone. After any stretch of a run in which the new stack was not dropped, whatever
was executed, dropping it puts what it holds then, in reverse, on what the stack beneath has
kept. -/
theorem dropped_stack_returns_numbers {outer opened : Machine} {kept moved : List Number}
    {count : Number} {register : Option Number} {beneath : List Stack}
    (holds : outer.tower = ⟨.ofList (kept ++ moved ++ [count]) register, beneath⟩)
    (takes : (moved.length : Int) = max 0 count.toInt)
    (opens : outer.execute .openStack = .done opened) :
    opened =
      { outer with tower := ⟨.ofList moved.reverse none, .ofList kept register :: beneath⟩ } ∧
    opened.execute .closeStack =
      .done { outer with tower := ⟨.ofList (kept ++ moved) register, beneath⟩ } ∧
    ∀ contexts inner, outer.Meets '[' → outer.runUnder contexts = .going inner →
      contexts ≠ [] →
      (∀ earlier, 0 < earlier → earlier ≤ contexts.length →
        outer.tower.size < (outer.runUnder (contexts.take earlier)).machine.tower.size) →
      inner.Meets ']' → inner.tower.size = outer.tower.size + 1 →
      inner.step inner.symbol =
        .done { inner with
          tower := ⟨.ofList (kept ++ inner.tower.active.toList.reverse) register, beneath⟩ } := by
  have left := eq_of_execute_openStack holds (by omega) opens
  refine ⟨left, ?_, ?_⟩
  · rw [execute_closeStack (by rw [left]), List.reverse_reverse, left]
  · intro contexts inner opening going present deep closing level
    obtain ⟨cancelled, later, rfl⟩ := List.exists_cons_of_ne_nil present
    cases turned : outer.turn cancelled with
    | stop stop after =>
      rw [runUnder_of_stop turned] at going
      cases going
    | next first =>
      rw [runUnder_of_next turned] at going
      have tower :
          first.tower = ⟨.ofList moved.reverse none, .ofList kept register :: beneath⟩ := by
        rw [tower_of_opening opening opens turned, left]
      have size : first.tower.size = outer.tower.size + 1 := by
        rw [tower, holds]
        rfl
      have waits : inner.tower.beneath = first.tower.beneath := by
        refine beneath_of_inside going (fun earlier within => ?_) (level.trans size.symm)
        have inside := deep (earlier + 1) (Nat.succ_pos _) (Nat.succ_le_succ within)
        rw [List.take_succ_cons, runUnder_of_next turned] at inside
        omega
      have under : inner.tower.beneath = .ofList kept register :: beneath :=
        waits.trans (congrArg Tower.beneath tower)
      rw [step_of_meets .closeStack (by decide) closing]
      apply execute_closeStack
      rw [Stack.ofList_toList, ← under]

/-- A program that opens a stack with two of three numbers, puts a fourth on it and drops it. The
outer stack gets back three numbers in reverse, and still has its register. -/
theorem dropped_stack_returns_three_numbers :
    ∃ outer opened inner : Machine,
      outer = { start (.ofRows ["[4]".toList]) (.ofDraws [0]) with
        tower := ⟨.ofList [7, 8, 9, 2] (some 5), []⟩ } ∧
      outer.execute .openStack = .done opened ∧ opened.tower.active = .ofList [9, 8] none ∧
      outer.run false 2 = .going inner ∧
      inner.step inner.symbol =
        .done { inner with tower := ⟨.ofList [7, 4, 8, 9] (some 5), []⟩ } := by
  generalize known : ({ start (.ofRows ["[4]".toList]) (.ofDraws [0]) with
    tower := ⟨.ofList [7, 8, 9, 2] (some 5), []⟩ } : Machine) = outer
  have holds : outer.tower = ⟨.ofList ([7] ++ [8, 9] ++ [2]) (some 5), []⟩ := by
    subst known
    rfl
  obtain ⟨opened, opens⟩ : ∃ opened, outer.execute .openStack = .done opened := by
    refine ⟨_, execute_of_executes (.openStack (show outer.values = 2 :: [9, 8, 7] from ?_) ?_)⟩
    · subst known
      rfl
    · decide +kernel
  obtain ⟨opening, deep, closing, size, numbers⟩ : outer.Meets '[' ∧
      (∀ earlier ≤ 2, 0 < earlier →
        1 < (outer.runUnder ([false, false].take earlier)).machine.tower.size) ∧
      (outer.runUnder [false, false]).machine.Meets ']' ∧
      (outer.runUnder [false, false]).machine.tower.size = 2 ∧
      (outer.runUnder [false, false]).machine.tower.active.toList = [9, 8, 4] := by
    subst known
    decide +kernel
  have goes : (outer.runUnder [false, false]).isGoing = true := by
    subst known
    decide +kernel
  obtain ⟨inner, going⟩ := Progress.isGoing_iff.mp goes
  rw [going] at closing size numbers
  obtain ⟨left, _, closes⟩ := dropped_stack_returns_numbers holds (by decide +kernel) opens
  have one : outer.tower.size = 1 := by
    rw [holds]
    rfl
  have closed := closes [false, false] inner opening going (List.cons_ne_nil _ _)
    (fun earlier some within => one ▸ deep earlier within some) closing (by rw [one]; exact size)
  rw [show inner.tower.active.toList = [9, 8, 4] from numbers] at closed
  refine ⟨outer, opened, inner, rfl, opens, by rw [left]; rfl, ?_, closed⟩
  rw [run_eq_runUnder]
  exact going

end Machine

end Aquarium
