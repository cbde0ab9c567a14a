import Aquarium.Text.Glyph

/-!
# Values and keys of a TOML document

Of a value only as much is kept as a setting can take: the content of texts, integers and truth
values, and the kind of everything else. Tables are not values.
-/

namespace Aquarium.Toml

/-- A value. -/
inductive Value where
  | text (content : Bytes)
  | integer (content : Int)
  | boolean (content : Bool)
  | fraction
  | moment
  | array
  deriving DecidableEq

/-- The name of a value: the names of the tables it lies in, and its own. -/
abbrev Key := List String

/-- Whether a character may stand in a name without quotes. -/
def isBare (character : Char) : Bool :=
  character.isAlphanum || character = '_' || character = '-'

/-- Four hexadecimal digits of a code. -/
def hexadecimal (code : Nat) : List Char :=
  let digits := Nat.toDigits 16 code
  List.replicate (4 - digits.length) '0' ++ digits

/-- A character of a name between quotes. -/
def escapeNameCharacter (character : Char) : List Char :=
  match character with
  | '"' => ['\\', '"']
  | '\\' => ['\\', '\\']
  | '\x08' => ['\\', 'b']
  | '\t' => ['\\', 't']
  | '\n' => ['\\', 'n']
  | '\x0c' => ['\\', 'f']
  | '\r' => ['\\', 'r']
  | _ =>
    if character.toNat < 0x20 ∨ character.toNat = 0x7F then
      '\\' :: 'u' :: hexadecimal character.toNat
    else [character]

/-- A name as it is written: with quotes if it is empty or not bare. -/
def nameText (name : String) : String :=
  if name ≠ "" ∧ name.toList.all isBare then name
  else "\"" ++ String.ofList (name.toList.flatMap escapeNameCharacter) ++ "\""

/-- A key as it is written. -/
def keyText (key : Key) : String :=
  String.intercalate "." (key.map nameText)

end Aquarium.Toml
