import Aquarium.CodeBox.Basic
import Aquarium.Text.Glyph

/-!
# Source text of a code box

A source text has one row of cells per line. A space is an empty cell, and short lines are filled up
with empty cells.
-/

namespace Aquarium

namespace Source

/-- A line without the carriage return at its end. -/
def withoutReturn (line : Bytes) : Bytes :=
  if line.getLast? = some 0x0D then line.dropLast else line

/-- The lines of a text. A line feed ends a line, so nothing follows the last one. -/
def lines (text : Bytes) : List Bytes :=
  let pieces := text.splitOnP (· == 0x0A)
  let complete := if pieces.getLast? = some [] then pieces.dropLast else pieces
  complete.map withoutReturn

/-- The rows of characters of a text. -/
def rows (text : Bytes) : List (List Char) :=
  (lines text).map Utf8.characters

/-- The length of the longest row. -/
def width (rows : List (List Char)) : Nat :=
  rows.foldl (fun longest row => max longest row.length) 0

/-- The number of a cell that holds a character. -/
def cell : Option Char → Number
  | none => 0
  | some character => if character = ' ' then 0 else Number.ofChar character

end Source

/-- Why a source gives no box. -/
inductive SourceProblem where
  | noProgram
  | unreadable (cause : Bytes)
  deriving DecidableEq

/-- The wording of a problem with a named source, outermost part first. -/
def SourceProblem.layers (name : Bytes) : SourceProblem → List Bytes
  | noProgram => [name ++ Utf8.ofString ": empty program"]
  | unreadable cause => [name ++ Utf8.ofString ": read failed", cause]

namespace CodeBox

/-- The box whose rows hold the given characters. -/
def ofRows (rows : List (List Char)) : CodeBox :=
  let table := (rows.map List.toArray).toArray
  let width := Source.width rows
  { height := rows.length
    width
    cells := Vector.ofFn fun place =>
      Source.cell (table[place.val / width]?.bind fun row => row[place.val % width]?)
    margin := .empty }

/-- The box that a source text describes, if it has a cell at all. -/
def ofSource? (text : Bytes) : Option CodeBox :=
  let box := ofRows (Source.rows text)
  if box.height = 0 ∨ box.width = 0 then none else some box

/-- The box that a named source describes, given its text and why reading broke off, if it did. -/
def ofSource (text : Bytes) (interruption : Option Bytes) : Except SourceProblem CodeBox :=
  match interruption with
  | some cause => .error (.unreadable cause)
  | none =>
    match ofSource? text with
    | some box => .ok box
    | none => .error .noProgram

end CodeBox

end Aquarium
