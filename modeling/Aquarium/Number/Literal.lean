import Aquarium.Number.Numeral

/-!
# Integer literals

A 64-bit integer as it is written on a command line: an optional sign and digits in base ten, or in
the base that a zero and a letter in front of them, or a zero alone, stand for. Underscores may
stand between digits. Digits are taken from left to right, and the first that does not fit decides.
-/

namespace Aquarium.Literal

open Numeral (Problem)

/-- The value of a digit of a base up to 36. -/
def digit? (character : Char) : Option Nat :=
  if character.isDigit then some (character.toNat - '0'.toNat)
  else if 'a' ≤ character.toLower ∧ character.toLower ≤ 'z' then
    some (character.toLower.toNat - 'a'.toNat + 10)
  else none

/-- Adds digits to a number that must stay below `2 ^ 64`. Underscores are passed over. -/
def extend (base : Nat) : Nat → List Char → Except Problem Nat
  | value, [] => .ok value
  | value, character :: rest =>
    if character = '_' then extend base value rest
    else
      match digit? character with
      | none => .error .malformed
      | some digit =>
        if base ≤ digit then .error .malformed
        else if Nat.pow 2 64 ≤ value * base + digit then .error .outOfRange
        else extend base (value * base + digit) rest

/-- The base of a literal without its sign, and its digits. -/
def splitBase (text : List Char) : Nat × List Char :=
  match text with
  | '0' :: mark :: next :: rest =>
    match mark.toLower with
    | 'b' => (2, next :: rest)
    | 'o' => (8, next :: rest)
    | 'x' => (16, next :: rest)
    | _ => (8, mark :: next :: rest)
  | '0' :: rest => (8, rest)
  | _ => (10, text)

/-- The size of a literal without its sign. -/
def size (text : List Char) : Except Problem Nat := do
  if text.isEmpty then .error .malformed
  else
    let (base, digits) := splitBase text
    let value ← extend base 0 digits
    if text.contains '_' && !Numeral.underscoresFit text then .error .malformed
    else return value

/-- The integer that a literal stands for. -/
def read (text : List Char) : Except Problem Int := do
  let (negative, body) := Numeral.splitSign text
  let magnitude ← size body
  if negative then
    if magnitude ≤ Nat.pow 2 63 then return -(magnitude : Int) else .error .outOfRange
  else if magnitude < Nat.pow 2 63 then return magnitude
  else .error .outOfRange

/-- The wording of a problem with a literal. -/
def problemMessage : Problem → String
  | .malformed => "parse error"
  | .outOfRange => "value out of range"

end Aquarium.Literal
