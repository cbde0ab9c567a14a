import Aquarium.Proofs.Nesting
import Aquarium.Proofs.Symbols
import Mathlib.Data.List.Rotate

/-!
# Shuffling a stack

Six instructions only rearrange the active stack and its register. `Stack.shuffle?` composes what
their characters do to a stack, and `Machine.stepAll_of_shuffle?` says that a machine does just that
and nothing else, so the laws of the six are laws of stacks. Where each number goes is said of the
numbers from the bottom to the top; most of the algebra comes from one picture, in which a shift
moves a number from one end of a list to the other.
-/

namespace Aquarium

/-- The instructions that only rearrange the active stack and its register. -/
def Instruction.shuffling : List Instruction :=
  [.shiftRight, .shiftLeft, .reverse, .swap, .rotate, .register]

/-- A list with the element at each place moved to the place that a map says. -/
def Moved {α : Type} (target : Nat → Nat) (before after : List α) : Prop :=
  after.length = before.length ∧
    ∀ place < before.length, after[target place]? = before[place]?

namespace Stack

/-! ## Shifts and reversal -/

@[simp] theorem shiftRight_cons (top : Number) (rest : List Number) (register : Option Number) :
    shiftRight ⟨top :: rest, register⟩ = ⟨rest ++ [top], register⟩ := rfl

@[simp] theorem shiftLeft_append (rest : List Number) (bottom : Number)
    (register : Option Number) :
    shiftLeft ⟨rest ++ [bottom], register⟩ = ⟨bottom :: rest, register⟩ := by
  simp [shiftLeft]

@[simp] theorem register_shiftRight (stack : Stack) :
    stack.shiftRight.register = stack.register := by
  obtain ⟨_ | ⟨top, rest⟩, register⟩ := stack <;> rfl

@[simp] theorem reverse_reverse (stack : Stack) : stack.reverse.reverse = stack := by
  simp [reverse]

/-- A stack is empty or has a number at its bottom. -/
theorem eq_empty_or_append (stack : Stack) :
    stack.values = [] ∨ ∃ rest bottom, stack = ⟨rest ++ [bottom], stack.register⟩ := by
  obtain ⟨values, register⟩ := stack
  rcases List.eq_nil_or_concat values with empty | ⟨rest, bottom, rfl⟩
  · exact .inl empty
  · exact .inr ⟨rest, bottom, by rw [List.concat_eq_append]⟩

theorem shiftLeft_shiftRight (stack : Stack) : stack.shiftRight.shiftLeft = stack := by
  obtain ⟨_ | ⟨top, rest⟩, register⟩ := stack
  · rfl
  · rw [shiftRight_cons, shiftLeft_append]

theorem shiftRight_shiftLeft (stack : Stack) : stack.shiftLeft.shiftRight = stack := by
  rcases stack.eq_empty_or_append with empty | ⟨rest, bottom, same⟩
  · obtain ⟨values, register⟩ := stack
    subst empty
    rfl
  · rw [same, shiftLeft_append, shiftRight_cons]

/-- Seen upside down, a shift to the right is one to the left. -/
theorem reverse_shiftRight_reverse (stack : Stack) :
    stack.reverse.shiftRight.reverse = stack.shiftLeft := by
  rcases stack.eq_empty_or_append with empty | ⟨rest, bottom, same⟩
  · obtain ⟨values, register⟩ := stack
    subst empty
    rfl
  · rw [same, shiftLeft_append]
    simp [reverse]

/-- Shifting many times turns the numbers like a wheel. -/
theorem shiftRight_iterate (times : Nat) (stack : Stack) :
    shiftRight^[times] stack = ⟨stack.values.rotate times, stack.register⟩ := by
  induction times generalizing stack with
  | zero => simp
  | succ times hypothesis =>
    rw [Function.iterate_succ_apply, hypothesis]
    obtain ⟨_ | ⟨top, rest⟩, register⟩ := stack
    · simp [shiftRight]
    · rw [shiftRight_cons, List.rotate_cons_succ]

/-- A shift to the right brings each number one place up, and the uppermost to the bottom. -/
theorem moved_shiftRight (stack : Stack) :
    Moved (fun place => (place + 1) % stack.size) stack.toList stack.shiftRight.toList := by
  -- From the bottom to the top, the stack before is the stack after, turned by one place.
  have turned : stack.toList = stack.shiftRight.toList.rotate 1 := by
    obtain ⟨_ | ⟨top, rest⟩, register⟩ := stack
    · rfl
    · simp [toList, shiftRight]
  have length : stack.shiftRight.toList.length = stack.toList.length := by
    rw [turned, List.length_rotate]
  refine ⟨length, fun place within => ?_⟩
  rw [← length] at within
  conv_rhs => rw [turned, List.getElem?_rotate within, length, length_toList]

/-- Turning a stack over counts the places from the other end. -/
theorem moved_reverse (stack : Stack) :
    Moved (fun place => stack.size - 1 - place) stack.toList stack.reverse.toList := by
  refine ⟨by simp, fun place within => ?_⟩
  rw [length_toList] at within
  have other : stack.size - 1 - place < stack.toList.length := by
    rw [length_toList]
    omega
  have back : stack.size - 1 - (stack.size - 1 - place) = place := by omega
  dsimp only
  rw [toList_reverse, List.getElem?_reverse other, length_toList, back]

/-! ## The numbers held -/

/-- The numbers on a stack and in its register. -/
def holdings (stack : Stack) : List Number :=
  stack.toList ++ stack.register.toList

theorem holdings_perm_of_values {before after : Stack}
    (values : after.values.Perm before.values) (register : after.register = before.register) :
    after.holdings.Perm before.holdings := by
  unfold holdings toList
  rw [register]
  exact (after.values.reverse_perm.trans (values.trans before.values.reverse_perm.symm)).append_right _

/-- Moving a number to the register or back neither loses it nor makes a second one. -/
theorem holdings_perm_toggleRegister {before after : Stack}
    (changed : before.toggleRegister? = some after) : after.holdings.Perm before.holdings := by
  obtain ⟨values, _ | number⟩ := before
  · cases values with
    | nil => cases changed
    | cons top rest =>
      cases changed
      simp [holdings, toList]
  · cases changed
    simp [holdings, toList]

/-- No change of the six loses a number or brings one in. -/
theorem holdings_perm {instruction : Instruction} {change : Stack → Option Stack}
    {before after : Stack} (member : instruction ∈ Instruction.shuffling)
    (shape : instruction.reshape? = some change) (changed : change before = some after) :
    after.holdings.Perm before.holdings := by
  cases instruction with
  | shiftRight =>
    cases shape
    cases changed
    obtain ⟨_ | ⟨top, rest⟩, register⟩ := before
    · exact .rfl
    · exact holdings_perm_of_values (List.perm_append_singleton top rest) rfl
  | shiftLeft =>
    cases shape
    cases changed
    rcases before.eq_empty_or_append with empty | ⟨rest, bottom, same⟩
    · obtain ⟨values, register⟩ := before
      subst empty
      exact .rfl
    · rw [same, shiftLeft_append]
      exact holdings_perm_of_values (List.perm_append_singleton _ _).symm rfl
  | reverse =>
    cases shape
    cases changed
    exact holdings_perm_of_values before.values.reverse_perm rfl
  | swap =>
    cases shape
    obtain ⟨_ | ⟨top, _ | ⟨second, rest⟩⟩, register⟩ := before <;> cases changed
    exact holdings_perm_of_values (.swap _ _ _) rfl
  | rotate =>
    cases shape
    obtain ⟨_ | ⟨top, _ | ⟨second, _ | ⟨third, rest⟩⟩⟩, register⟩ := before <;> cases changed
    exact holdings_perm_of_values (((List.Perm.swap _ _ _).cons _).trans (.swap _ _ _)) rfl
  | register =>
    cases shape
    exact holdings_perm_toggleRegister changed
  | _ => simp [Instruction.shuffling] at member

/-! ## Shuffles one after another -/

/-- What the instructions of some characters make of a stack, one after another. -/
def shuffle? : List Char → Stack → Option Stack
  | [], stack => some stack
  | character :: others, stack => do
    let instruction ← Instruction.ofSymbol? character.toNat
    let change ← instruction.reshape?
    let changed ← change stack
    shuffle? others changed

theorem shuffle?_replicate (times : Nat) (stack : Stack) :
    shuffle? (List.replicate times '}') stack = some (shiftRight^[times] stack) := by
  induction times generalizing stack with
  | zero => rfl
  | succ times hypothesis =>
    rw [List.replicate_succ, Function.iterate_succ_apply, ← hypothesis]
    rfl

/-- As many shifts as there are numbers turn the wheel once around. -/
theorem shuffle?_replicate_size (stack : Stack) :
    shuffle? (List.replicate stack.size '}') stack = some stack := by
  rw [shuffle?_replicate, shiftRight_iterate, size, List.rotate_length]

theorem shuffle?_swap_swap {stack : Stack} (enough : 2 ≤ stack.size) :
    shuffle? ['$', '$'] stack = some stack := by
  obtain ⟨_ | ⟨top, _ | ⟨second, rest⟩⟩, register⟩ := stack
  · cases Nat.not_succ_le_zero _ enough
  · exact absurd enough (by simp [size])
  · rfl

theorem shuffle?_rotate_rotate_rotate {stack : Stack} (enough : 3 ≤ stack.size) :
    shuffle? ['@', '@', '@'] stack = some stack := by
  obtain ⟨_ | ⟨top, _ | ⟨second, _ | ⟨third, rest⟩⟩⟩, register⟩ := stack
  · cases Nat.not_succ_le_zero _ enough
  · exact absurd enough (by simp [size])
  · exact absurd enough (by simp [size])
  · rfl

theorem shuffle?_register_register {stack : Stack}
    (enough : stack.register.isSome = true ∨ stack.size ≠ 0) :
    shuffle? ['&', '&'] stack = some stack := by
  obtain ⟨_ | ⟨top, rest⟩, _ | number⟩ := stack
  · simp [size] at enough
  all_goals rfl

end Stack

namespace Machine

/-- Puts another stack in the place of the active one. -/
def withActive (machine : Machine) (active : Stack) : Machine :=
  { machine with tower := { machine.tower with active } }

/-- Takes the symbols of characters one after another, as long as the steps complete. -/
def stepAll : List Char → Machine → Outcome
  | [], machine => .done machine
  | character :: others, machine =>
    match machine.step character.toNat with
    | .done after => stepAll others after
    | .failed failure after => .failed failure after
    | .stuck after => .stuck after

/-- Outside string mode, the step of a shuffling instruction changes the active stack or finds too
few numbers on it. -/
theorem step_of_reshape? {machine : Machine} (instruction : Instruction)
    (plain : machine.quoting = none) {symbol : Int} {change : Stack → Option Stack}
    (stands : Instruction.ofSymbol? symbol = some instruction)
    (shape : instruction.reshape? = some change) :
    machine.step symbol = machine.withActive? (change machine.tower.active) :=
  (step_of_stands plain stands).trans (machine.execute_of_reshape? shape)

/-- A machine does to its active stack what the characters do to a stack, and nothing else. -/
theorem stepAll_of_shuffle? {characters : List Char} {machine : Machine} {active : Stack}
    (plain : machine.quoting = none)
    (shuffled : Stack.shuffle? characters machine.tower.active = some active) :
    machine.stepAll characters = .done (machine.withActive active) := by
  induction characters generalizing machine with
  | nil =>
    cases shuffled
    rfl
  | cons character others hypothesis =>
    simp only [Stack.shuffle?, Option.bind_eq_bind, Option.bind_eq_some_iff] at shuffled
    obtain ⟨instruction, stands, change, shape, changed, completes, later⟩ := shuffled
    have stepped : machine.step character.toNat = .done (machine.withActive changed) := by
      rw [step_of_reshape? instruction plain stands shape, completes]
      rfl
    simp only [stepAll, stepped]
    have still : (machine.withActive changed).quoting = none := plain
    exact hypothesis still later

/-- Characters that leave a stack as it was leave the machine as it was. -/
theorem stepAll_of_shuffle?_self {characters : List Char} {machine : Machine}
    (plain : machine.quoting = none)
    (same : Stack.shuffle? characters machine.tower.active = some machine.tower.active) :
    machine.stepAll characters = .done machine :=
  stepAll_of_shuffle? plain same

/-- If the first of some characters finds too few numbers, nothing happens. -/
theorem stepAll_of_lacking {machine : Machine} (instruction : Instruction)
    (plain : machine.quoting = none)
    (lacking : machine.tower.active.size < instruction.demand machine.tower.active)
    (others : List Char) :
    machine.stepAll (instruction.character :: others) = machine.underflow := by
  have stands : Instruction.ofSymbol? instruction.character.toNat = some instruction :=
    Instruction.ofSymbol?_eq_some_iff.mpr (.inl rfl)
  have stepped : machine.step instruction.character.toNat = machine.underflow :=
    (step_of_stands plain stands).trans (machine.execute_of_lacking lacking)
  simp only [stepAll, stepped]
  rfl

/-- Each of the six lacks numbers, or keeps those that there are. -/
theorem step_of_shuffling {machine : Machine} (plain : machine.quoting = none)
    {instruction : Instruction} (member : instruction ∈ Instruction.shuffling) :
    machine.tower.active.size < instruction.demand machine.tower.active ∧
        machine.step instruction.character.toNat = machine.underflow ∨
      ∃ active, machine.step instruction.character.toNat = .done (machine.withActive active) ∧
        active.holdings.Perm machine.tower.active.holdings := by
  have stands : Instruction.ofSymbol? instruction.character.toNat = some instruction :=
    Instruction.ofSymbol?_eq_some_iff.mpr (.inl rfl)
  obtain ⟨change, shape⟩ : ∃ change, instruction.reshape? = some change := by
    revert instruction
    simp [Instruction.shuffling, Instruction.reshape?]
  have stepped := step_of_reshape? instruction plain stands shape
  cases changed : change machine.tower.active with
  | none =>
    rw [changed] at stepped
    exact .inl ⟨(instruction.reshape_eq_none_iff shape _).mp changed, stepped⟩
  | some active =>
    rw [changed] at stepped
    exact .inr ⟨active, stepped, Stack.holdings_perm member shape changed⟩

/-- A step that makes a stack of the active one, with the same register, and moves each number to
the place that a map says. -/
def Sends (machine : Machine) (character : Char) (target : Nat → Nat) : Prop :=
  ∃ active, machine.step character.toNat = .done (machine.withActive active) ∧
    active.register = machine.tower.active.register ∧
    Moved target machine.tower.active.toList active.toList

/-- The laws of the six. -/
structure ShufflingLaws (machine : Machine) : Prop where
  shift : machine.Sends '}' fun place => (place + 1) % machine.tower.active.size
  back : machine.stepAll ['}', '{'] = .done machine
  forth : machine.stepAll ['{', '}'] = .done machine
  wheel : machine.stepAll (List.replicate machine.tower.active.size '}') = .done machine
  reversal : machine.Sends 'r' fun place => machine.tower.active.size - 1 - place
  reversals : machine.stepAll ['r', 'r'] = .done machine
  reversedShift : machine.stepAll ['r', '}', 'r', '}'] = .done machine
  swaps : machine.stepAll ['$', '$'] =
    if 2 ≤ machine.tower.active.size then .done machine else machine.underflow
  rotations : machine.stepAll ['@', '@', '@'] =
    if 3 ≤ machine.tower.active.size then .done machine else machine.underflow
  toggles : machine.stepAll ['&', '&'] =
    if machine.tower.active.register.isSome ∨ machine.tower.active.size ≠ 0 then .done machine
    else machine.underflow
  swap : ∀ below first second register,
    machine.tower.active = .ofList (below ++ [first, second]) register →
      machine.step '$'.toNat =
        .done (machine.withActive (.ofList (below ++ [second, first]) register))
  toggle : ∀ below number, machine.tower.active = .ofList (below ++ [number]) none →
    machine.step '&'.toNat = .done (machine.withActive (.ofList below (some number)))
  rotation : ∀ below first second third register,
    machine.tower.active = .ofList (below ++ [first, second, third]) register →
      machine.step '@'.toNat =
        .done (machine.withActive (.ofList (below ++ [third, first, second]) register))
  rotationOfThree : machine.tower.active.size = 3 → machine.step '@'.toNat = machine.step '}'.toNat
  keeps : ∀ instruction ∈ Instruction.shuffling,
    machine.tower.active.size < instruction.demand machine.tower.active ∧
        machine.step instruction.character.toNat = machine.underflow ∨
      ∃ active, machine.step instruction.character.toNat = .done (machine.withActive active) ∧
        active.holdings.Perm machine.tower.active.holdings

/-- The shuffling instructions obey their laws on every stack. A shift to the right moves each
number one place up and the uppermost to the bottom, a shift to the left is its inverse, and as many
shifts as there are numbers turn the wheel once around. A reversal counts the places from the other
end, so between two of them a shift goes the other way. Unless they lack numbers, two swaps, three
rotations and two moves to the register do nothing, and a rotation brings the top number below the
next two, which is a shift if there are no others. None of the six loses a number or touches
anything else. -/
theorem shuffles_obey_their_laws {machine : Machine} (plain : machine.quoting = none) :
    machine.ShufflingLaws := by
  have shifts : machine.step '}'.toNat =
      .done (machine.withActive machine.tower.active.shiftRight) :=
    step_of_reshape? .shiftRight plain rfl rfl
  have rotates : machine.step '@'.toNat = machine.withActive? machine.tower.active.rotate? :=
    step_of_reshape? .rotate plain rfl rfl
  constructor
  case shift =>
    exact ⟨_, shifts, Stack.register_shiftRight _, machine.tower.active.moved_shiftRight⟩
  case back =>
    refine stepAll_of_shuffle?_self plain ?_
    exact congrArg some machine.tower.active.shiftLeft_shiftRight
  case forth =>
    refine stepAll_of_shuffle?_self plain ?_
    exact congrArg some machine.tower.active.shiftRight_shiftLeft
  case wheel => exact stepAll_of_shuffle?_self plain machine.tower.active.shuffle?_replicate_size
  case reversal =>
    refine ⟨_, step_of_reshape? .reverse plain rfl rfl, rfl, ?_⟩
    exact machine.tower.active.moved_reverse
  case reversals =>
    refine stepAll_of_shuffle?_self plain ?_
    exact congrArg some machine.tower.active.reverse_reverse
  case reversedShift =>
    refine stepAll_of_shuffle?_self plain (congrArg some ?_)
    rw [Stack.reverse_shiftRight_reverse, Stack.shiftRight_shiftLeft]
  case swaps =>
    split
    · rename_i enough
      exact stepAll_of_shuffle?_self plain (Stack.shuffle?_swap_swap enough)
    · rename_i lacking
      exact stepAll_of_lacking .swap plain (Nat.lt_of_not_le lacking) ['$']
  case rotations =>
    split
    · rename_i enough
      exact stepAll_of_shuffle?_self plain (Stack.shuffle?_rotate_rotate_rotate enough)
    · rename_i lacking
      exact stepAll_of_lacking .rotate plain (Nat.lt_of_not_le lacking) ['@', '@']
  case toggles =>
    split
    · rename_i enough
      exact stepAll_of_shuffle?_self plain (Stack.shuffle?_register_register enough)
    · rename_i lacking
      obtain ⟨unset, empty⟩ := not_or.mp lacking
      refine stepAll_of_lacking .register plain ?_ ['&']
      show _ < if machine.tower.active.register.isSome then 0 else 1
      rw [if_neg unset]
      omega
  case swap =>
    intro below first second register holds
    rw [step_of_reshape? .swap plain rfl rfl, holds]
    simp [Stack.ofList, Stack.swap?, withActive?, withActive]
  case toggle =>
    intro below number holds
    rw [step_of_reshape? .register plain rfl rfl, holds]
    simp [Stack.ofList, Stack.toggleRegister?, withActive?, withActive]
  case rotation =>
    intro below first second third register holds
    rw [rotates, holds]
    simp [Stack.ofList, Stack.rotate?, withActive?, withActive]
  case rotationOfThree =>
    intro three
    obtain ⟨top, second, third, same⟩ := List.length_eq_three.mp three
    rw [rotates, shifts]
    simp [Stack.rotate?, Stack.shiftRight, same, withActive?, withActive]
  case keeps => exact fun instruction member => step_of_shuffling plain member

/-- Four numbers beside a set register: a rotation leaves the lowest where it is, and four shifts
or two moves from the register and back leave everything where it is. -/
theorem four_numbers_shuffled :
    ∃ machine : Machine,
      machine = { start (.ofRows [['@']]) (.ofDraws [0]) with
        tower := ⟨.ofList [1, 2, 3, 4] (some 5), []⟩ } ∧
      machine.step '@'.toNat = .done (machine.withActive (.ofList [1, 4, 2, 3] (some 5))) ∧
      machine.stepAll ['}', '}', '}', '}'] = .done machine ∧
      machine.stepAll ['&', '&'] = .done machine := by
  generalize known : { start (.ofRows [['@']]) (.ofDraws [0]) with
    tower := ⟨.ofList [1, 2, 3, 4] (some 5), []⟩ } = machine
  have plain : machine.quoting = none := by
    subst known
    rfl
  have active : machine.tower.active = .ofList ([1] ++ [2, 3, 4]) (some 5) := by
    subst known
    rfl
  have laws := shuffles_obey_their_laws plain
  have wheel := laws.wheel
  have toggles := laws.toggles
  rw [active] at wheel toggles
  exact ⟨machine, rfl, laws.rotation [1] 2 3 4 (some 5) active, wheel,
    toggles.trans (if_pos (.inl rfl))⟩

end Machine

end Aquarium
