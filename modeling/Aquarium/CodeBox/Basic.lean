import Aquarium.CodeBox.Margin

/-!
# Code boxes

The plane that a program lives in: a rectangle of cells, and around it a margin of cells that a
program has written. A cell never written holds 0.
-/

namespace Aquarium

/-- A rectangle of cells with its margin. -/
structure CodeBox where
  height : Nat
  width : Nat
  cells : Vector Number (height * width)
  margin : Margin

namespace CodeBox

/-- Whether a place lies in the rectangle. -/
def Contains (box : CodeBox) (position : Position) : Prop :=
  (0 ≤ position.row ∧ position.row < box.height) ∧
    0 ≤ position.column ∧ position.column < box.width

instance (box : CodeBox) (position : Position) : Decidable (box.Contains position) := by
  unfold Contains
  infer_instance

/-- Where a place of the rectangle stands when the rows are put one after another. -/
def index (box : CodeBox) (position : Position) : Nat :=
  position.row.toNat * box.width + position.column.toNat

theorem index_lt {box : CodeBox} {position : Position} (inside : box.Contains position) :
    box.index position < box.height * box.width := by
  obtain ⟨⟨_, row⟩, _, column⟩ := inside
  have rowBound : position.row.toNat + 1 ≤ box.height := by omega
  calc box.index position
      < position.row.toNat * box.width + box.width := by unfold index; omega
    _ = (position.row.toNat + 1) * box.width := by rw [Nat.add_mul, Nat.one_mul]
    _ ≤ box.height * box.width := Nat.mul_le_mul_right _ rowBound

/-- A box of empty cells. A negative side counts as 0. -/
def blank (height width : Int) : CodeBox where
  height := height.toNat
  width := width.toNat
  cells := Vector.replicate _ 0
  margin := .empty

/-- The number in a cell, anywhere in the plane. -/
def get (box : CodeBox) (position : Position) : Number :=
  if inside : box.Contains position then box.cells.get ⟨box.index position, index_lt inside⟩
  else (box.margin.get? position).getD 0

/-- The box with one cell written, anywhere in the plane. -/
def set (box : CodeBox) (position : Position) (number : Number) : CodeBox :=
  if inside : box.Contains position then
    { box with cells := box.cells.set (box.index position) number (index_lt inside) }
  else { box with margin := box.margin.set position number }

/-- The cells of a row of the rectangle, from left to right. -/
def rowCells (box : CodeBox) (row : Nat) : List Number :=
  (List.range box.width).map fun column : Nat => box.get ⟨row, column⟩

/-- The cells of a row, if the rectangle has it. -/
def row? (box : CodeBox) (row : Int) : Option (List Number) :=
  if 0 ≤ row ∧ row < box.height then some (box.rowCells row.toNat) else none

/-- The rows of the rectangle, from top to bottom. -/
def rows (box : CodeBox) : List (List Number) :=
  (List.range box.height).map box.rowCells

/-- The places beyond the edges that have been written, in order. -/
def outside (box : CodeBox) : List Position :=
  box.margin.positions

end CodeBox

end Aquarium
