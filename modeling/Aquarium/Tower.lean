import Aquarium.Number.Basic

/-!
# Stacks and towers

A stack holds numbers and has a register beside it. A tower is a pile of stacks, never empty, of
which only the uppermost is active.
-/

namespace Aquarium

/-- A stack of numbers, the top one first, with its register. -/
structure Stack where
  values : List Number
  register : Option Number
  deriving DecidableEq

namespace Stack

/-- The stack without numbers, its register empty. -/
def empty : Stack :=
  ⟨[], none⟩

/-- The numbers of a stack, the bottom one first. -/
def toList (stack : Stack) : List Number :=
  stack.values.reverse

/-- The number of numbers. -/
def size (stack : Stack) : Nat :=
  stack.values.length

/-- Puts a number on top. -/
def push (stack : Stack) (number : Number) : Stack :=
  { stack with values := number :: stack.values }

/-- Puts numbers on top, one after another. -/
def pushAll (stack : Stack) (numbers : List Number) : Stack :=
  numbers.foldl push stack

/-- Writes over the number at a place counted from the bottom, if there is one. -/
def poke (stack : Stack) (place : Nat) (number : Number) : Stack :=
  { stack with values := (stack.values.reverse.set place number).reverse }

/-- Moves the top number to the bottom. -/
def shiftRight (stack : Stack) : Stack :=
  match stack.values with
  | [] => stack
  | top :: rest => { stack with values := rest ++ [top] }

/-- Moves the bottom number to the top. -/
def shiftLeft (stack : Stack) : Stack :=
  match stack.values.getLast? with
  | none => stack
  | some bottom => { stack with values := bottom :: stack.values.dropLast }

/-- Turns the stack over. -/
def reverse (stack : Stack) : Stack :=
  { stack with values := stack.values.reverse }

/-- Puts a second copy of the top number on it. -/
def duplicate? (stack : Stack) : Option Stack :=
  match stack.values with
  | top :: _ => some (stack.push top)
  | _ => none

/-- Takes the top number away. -/
def discard? (stack : Stack) : Option Stack :=
  match stack.values with
  | _ :: rest => some { stack with values := rest }
  | _ => none

/-- Exchanges the two top numbers. -/
def swap? (stack : Stack) : Option Stack :=
  match stack.values with
  | top :: second :: rest => some { stack with values := second :: top :: rest }
  | _ => none

/-- Moves the top number below the next two. -/
def rotate? (stack : Stack) : Option Stack :=
  match stack.values with
  | top :: second :: third :: rest =>
    some { stack with values := second :: third :: top :: rest }
  | _ => none

/-- Moves the top number to the register, or back if the register is set. -/
def toggleRegister? (stack : Stack) : Option Stack :=
  match stack.register, stack.values with
  | some number, values => some ⟨number :: values, none⟩
  | none, top :: rest => some ⟨rest, some top⟩
  | none, [] => none

/-! ## Operations seen from the bottom -/

@[simp] theorem toList_push (stack : Stack) (number : Number) :
    (stack.push number).toList = stack.toList ++ [number] := by
  simp [toList, push]

@[simp] theorem register_push (stack : Stack) (number : Number) :
    (stack.push number).register = stack.register := rfl

@[simp] theorem toList_pushAll (stack : Stack) (numbers : List Number) :
    (stack.pushAll numbers).toList = stack.toList ++ numbers := by
  induction numbers generalizing stack with
  | nil => simp [pushAll]
  | cons number rest hypothesis =>
    have step : stack.pushAll (number :: rest) = (stack.push number).pushAll rest := rfl
    rw [step, hypothesis, toList_push]
    simp

@[simp] theorem toList_reverse (stack : Stack) : stack.reverse.toList = stack.toList.reverse := by
  simp [toList, reverse]

@[simp] theorem toList_poke (stack : Stack) (place : Nat) (number : Number) :
    (stack.poke place number).toList = stack.toList.set place number := by
  simp [toList, poke]

@[simp] theorem length_toList (stack : Stack) : stack.toList.length = stack.size := by
  simp [toList, size]

end Stack

/-- A pile of stacks. The one beneath the active stack comes first in `beneath`. -/
structure Tower where
  active : Stack
  beneath : List Stack
  deriving DecidableEq

namespace Tower

/-- The tower of one empty stack. -/
def base : Tower :=
  ⟨.empty, []⟩

/-- The stacks of a tower, the bottom one first. -/
def toList (tower : Tower) : List Stack :=
  (tower.active :: tower.beneath).reverse

/-- The number of stacks. -/
def size (tower : Tower) : Nat :=
  tower.beneath.length + 1

/-- Replaces the numbers of the active stack. -/
def withValues (tower : Tower) (values : List Number) : Tower :=
  { tower with active := { tower.active with values } }

/-- Puts a number on the active stack. -/
def push (tower : Tower) (number : Number) : Tower :=
  { tower with active := tower.active.push number }

/-- Takes numbers from the active stack, one after another, and puts them on a new stack, which
becomes the active one. -/
def openStack (tower : Tower) (count : Nat) : Tower :=
  let values := tower.active.values
  { active := ⟨(values.take count).reverse, none⟩
    beneath := { tower.active with values := values.drop count } :: tower.beneath }

/-- Takes all numbers from the active stack, one after another, puts them on the stack beneath and
drops the active one. The last stack cannot be dropped. -/
def closeStack? (tower : Tower) : Option Tower :=
  match tower.beneath with
  | [] => none
  | below :: others =>
    some
      { active := { below with values := tower.active.values.reverse ++ below.values }
        beneath := others }

@[simp] theorem length_toList (tower : Tower) : tower.toList.length = tower.size := by
  simp [toList, size]

@[simp] theorem size_push (tower : Tower) (number : Number) :
    (tower.push number).size = tower.size := rfl

@[simp] theorem size_withValues (tower : Tower) (values : List Number) :
    (tower.withValues values).size = tower.size := rfl

@[simp] theorem size_openStack (tower : Tower) (count : Nat) :
    (tower.openStack count).size = tower.size + 1 := by
  simp [openStack, size]

/-- Only the last stack cannot be dropped. -/
theorem closeStack?_eq_none_iff (tower : Tower) :
    tower.closeStack? = none ↔ tower.size = 1 := by
  cases under : tower.beneath <;> simp [closeStack?, size, under]

end Tower

end Aquarium
