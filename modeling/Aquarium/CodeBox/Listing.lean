import Aquarium.CodeBox.Basic
import Aquarium.Instruction
import Aquarium.Number.Decimal
import Aquarium.Relay
import Aquarium.Text.Glyph
import Aquarium.Text.Printable

/-!
# Listings and pictures of a code box

A listing has one line per cell that is not empty; a picture shows the rectangle as source text.
Both are given as the pieces in which they are written, in order, and as what writing them makes of
a destination. What writes a part of another part is handed the relay of the whole, so that it stops
with it.
-/

namespace Aquarium

/-- The largest code of a character. -/
def lastCode : Nat := 0x10FFFF

namespace Number

/-- The code of a number that is a character code, surrogates included. -/
def code? (number : Number) : Option Nat :=
  let value := number.toRat.num
  if number.isIntegral && 0 ≤ value && value ≤ lastCode then some value.toNat else none

/-- The character that shows a cell: a space for an empty one, and the replacement character for a
number that is no printable character. -/
def glance (number : Number) : Char :=
  if number.isZero then ' '
  else
    match number.code? with
    | some code => if Printable.isPrintable code then Char.ofNat code else Glyph.replacement
    | none => Glyph.replacement

end Number

namespace CodeBox

/-- A coordinate in a listing: a place for the sign, and at least four characters wide. -/
def coordinate (value : Int) : String :=
  let digits := toString value.natAbs
  let signed := (if value < 0 then "-" else " ") ++ digits
  String.ofList (List.replicate (4 - signed.length) ' ') ++ signed

/-- The instruction that a number in a cell is. -/
def instructionOf? (number : Number) : Option Instruction :=
  number.code?.bind fun code => Instruction.ofSymbol? code

/-- What a listing says of a number: the name of its instruction, or, in two pieces, that it is
none. -/
def remark (number : Number) : List String :=
  match instructionOf? number with
  | some instruction => [instruction.mnemonic]
  | none => ["??? ", number.text]

/-- The pieces of the line of one cell, without its end. -/
def cellListing (box : CodeBox) (position : Position) : List String :=
  let number := box.get position
  (coordinate position.row ++ " " ++ coordinate position.column ++ "\t" ++
    number.glance.toString ++ "\t") :: remark number

/-- The cells of a listing: those of the rectangle that are not zero, row by row, and then those of
the margin. -/
def listedPositions (box : CodeBox) : List Position :=
  let inside := (List.range box.height).flatMap fun row : Nat =>
    (List.range box.width).map fun column : Nat => (⟨row, column⟩ : Position)
  inside.filter (fun position => !(box.get position).isZero) ++ box.outside

/-- The pieces of a listing. -/
def listing (box : CodeBox) : List String :=
  box.listedPositions.flatMap fun position => box.cellListing position ++ ["\n"]

/-- A row of a picture, without the blanks at its end. -/
def pictureRow (cells : List Number) : String :=
  let shown := cells.map Number.glance
  String.ofList (shown.reverse.dropWhile (· = ' ')).reverse

/-- The pieces of a picture. -/
def picture (box : CodeBox) : List String :=
  box.rows.flatMap fun cells => [pictureRow cells, "\n"]

/-! ## Writing -/

/-- Writes the line of one cell, without its end. -/
def writeCell (box : CodeBox) (position : Position) (destination : Destination String) :
    Relay String :=
  destination.deliver (box.cellListing position)

/-- Writes a listing, cell by cell. -/
def writeListing (box : CodeBox) (destination : Destination String) : Relay String :=
  box.listedPositions.foldl
    (fun relay position => (box.writeCell position relay.destination).pass "\n")
    (.toward destination)

/-- Writes a picture, row by row. -/
def writePicture (box : CodeBox) (destination : Destination String) : Relay String :=
  box.rows.foldl (fun relay cells => (relay.pass (pictureRow cells)).pass "\n")
    (.toward destination)

end CodeBox

end Aquarium
