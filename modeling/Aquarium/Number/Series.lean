import Aquarium.Number.Numeral
import Aquarium.Text.Blank
import Aquarium.Text.Quoted

/-!
# Series of numbers

Numbers written one after another, with white space or commas between them, and the characters of a
text as numbers.
-/

namespace Aquarium.Series

/-- A piece of a series that is not a number. -/
structure Refusal where
  field : Bytes
  problem : Numeral.Problem
  deriving DecidableEq

/-- The wording of a refusal, outermost part first. -/
def Refusal.layers (refusal : Refusal) : List String :=
  let quoted := Quoted.quote refusal.field
  ["invalid number " ++ quoted,
    "strconv.ParseFloat: parsing " ++ quoted ++ ": " ++ refusal.problem.message]

/-- Whether a glyph separates numbers. -/
def isSeparator (glyph : Glyph) : Bool :=
  glyph.toChar = ',' || Blank.isBlank glyph.toChar

/-- The pieces of a text between separators. Empty pieces are left out. -/
def fields (text : Bytes) : List (List Glyph) :=
  ((Glyph.read text).splitOnP isSeparator).filter fun piece => !piece.isEmpty

/-- The number in one piece. -/
def readField (field : List Glyph) : Except Refusal Number :=
  match Numeral.read (field.map Glyph.toChar) with
  | .ok number => .ok number
  | .error problem => .error ⟨field.flatMap Glyph.bytes, problem⟩

/-- The numbers of a series, or the first piece that is none. -/
def read (text : Bytes) : Except Refusal (List Number) :=
  (fields text).mapM readField

/-- The codes of the characters of a text. -/
def ofText (text : Bytes) : List Number :=
  (Utf8.characters text).map Number.ofChar

end Aquarium.Series
