import Aquarium.Number.Decimal

/-!
# Numerals

How a number is written by a person: decimal digits with an optional point and an optional exponent
to ten, or, after `0x`, hexadecimal digits with a mandatory exponent to two; a sign in front; the
words for infinity and not-a-number in any case. Underscores may stand between digits. A numeral is
read exactly and rounded once.
-/

namespace Aquarium.Numeral

/-- Why a text is not a number. -/
inductive Problem where
  | malformed
  | outOfRange
  deriving DecidableEq

/-- The wording of a problem. -/
def Problem.message : Problem → String
  | malformed => "invalid syntax"
  | outOfRange => "value out of range"

/-! ## Digits -/

/-- The value of a hexadecimal digit of either case. -/
def digitValue (character : Char) : Nat :=
  if character.isDigit then character.toNat - '0'.toNat
  else character.toLower.toNat - 'a'.toNat + 10

/-- Whether a character is a digit in base ten or sixteen. -/
def isDigit (hexadecimal : Bool) (character : Char) : Bool :=
  character.isDigit ||
    (hexadecimal && 'a' ≤ character.toLower && character.toLower ≤ 'f')

/-- The number that digits spell in a base. -/
def digitsValue (base : Nat) (digits : List Char) : Nat :=
  digits.foldl (fun value digit => value * base + digitValue digit) 0

/-! ## Underscores -/

/-- What stands before a place in a numeral, as far as an underscore is concerned. -/
inductive Before where
  | digit
  | underscore
  | other
  deriving DecidableEq

/-- Whether each underscore stands between two digits, given what stands before the text. -/
def underscoresFitAfter (hexadecimal : Bool) : Before → List Char → Bool
  | before, [] => before ≠ .underscore
  | before, character :: rest =>
    if isDigit hexadecimal character then underscoresFitAfter hexadecimal .digit rest
    else if character = '_' then
      before = .digit && underscoresFitAfter hexadecimal .underscore rest
    else before ≠ .underscore && underscoresFitAfter hexadecimal .other rest

/-- A text without its sign, and whether that sign is a minus. -/
def splitSign : List Char → Bool × List Char
  | '+' :: rest => (false, rest)
  | '-' :: rest => (true, rest)
  | text => (false, text)

/-- Whether each underscore of a numeral stands between two digits. The mark of a base counts as a
digit. -/
def underscoresFit (text : List Char) : Bool :=
  match (splitSign text).2 with
  | '0' :: mark :: rest =>
    if mark.toLower = 'x' then underscoresFitAfter true .digit rest
    else if mark.toLower = 'b' ∨ mark.toLower = 'o' then underscoresFitAfter false .digit rest
    else underscoresFitAfter false .other ('0' :: mark :: rest)
  | body => underscoresFitAfter false .other body

/-! ## Parts of a numeral -/

/-- The digits around the point, how many of them stand after it, and what follows. There is at
least one digit. -/
def significand? (hexadecimal : Bool) (text : List Char) :
    Option (List Char × Nat × List Char) :=
  let whole := text.takeWhile (isDigit hexadecimal)
  match text.dropWhile (isDigit hexadecimal) with
  | '.' :: rest =>
    let fraction := rest.takeWhile (isDigit hexadecimal)
    if whole.isEmpty && fraction.isEmpty then none
    else some (whole ++ fraction, fraction.length, rest.dropWhile (isDigit hexadecimal))
  | rest => if whole.isEmpty then none else some (whole, 0, rest)

/-- An exponent beyond this many says no more than that the number is huge or tiny. -/
def exponentCap : Nat := 10000

/-- The size of an exponent. Digits beyond the cap are left out. -/
def exponentSize (digits : List Char) : Nat :=
  digits.foldl
    (fun size digit => if size < exponentCap then size * 10 + digitValue digit else size) 0

/-- The exponent after its mark: a sign and at least one digit, and nothing after them. -/
def exponent? (text : List Char) : Option Int :=
  let (negative, digits) := splitSign text
  if !digits.isEmpty && digits.all Char.isDigit then
    some (if negative then -(exponentSize digits : Int) else exponentSize digits)
  else none

/-- The exact value of a decimal numeral without sign and underscores. -/
def decimal? (text : List Char) : Option Rat :=
  match significand? false text with
  | none => none
  | some (digits, places, []) => some (Decimal.toRat ⟨digitsValue 10 digits, -places⟩)
  | some (digits, places, mark :: rest) =>
    if mark.toLower = 'e' then
      (exponent? rest).map fun exponent =>
        Decimal.toRat ⟨digitsValue 10 digits, exponent - places⟩
    else none

/-- A whole number of units of a power of two. -/
def scaled (units : Nat) (exponent : Int) : Rat :=
  if 0 ≤ exponent then ((units * Nat.pow 2 exponent.toNat : Nat) : Rat)
  else mkRat units (Nat.pow 2 (-exponent).toNat)

/-- The exact value of a hexadecimal numeral without its mark. -/
def hexadecimal? (text : List Char) : Option Rat :=
  match significand? true text with
  | some (digits, places, mark :: rest) =>
    if mark.toLower = 'p' then
      (exponent? rest).map fun exponent =>
        scaled (digitsValue 16 digits) (exponent - 4 * places)
    else none
  | _ => none

/-- The exact value of a numeral without sign and underscores. -/
def magnitude? : List Char → Option Rat
  | '0' :: mark :: next :: rest =>
    if mark.toLower = 'x' then hexadecimal? (next :: rest)
    else decimal? ('0' :: mark :: next :: rest)
  | text => decimal? text

/-- The number that a word stands for. Only an infinity has a sign. -/
def word? (text : List Char) : Option Number :=
  let (negative, body) := splitSign text
  let lower := body.map Char.toLower
  if lower = ['i', 'n', 'f'] ∨ lower = ['i', 'n', 'f', 'i', 'n', 'i', 't', 'y'] then
    some (.infinite negative)
  else if text.map Char.toLower = ['n', 'a', 'n'] then some .notANumber
  else none

/-- The number closest to a magnitude with a sign in front, unless it is too large. -/
def withSign (negative : Bool) (magnitude : Rat) : Except Problem Number :=
  if magnitude = 0 then .ok (Number.signedZero negative)
  else
    match Number.ofRat (if negative then -magnitude else magnitude) with
    | .infinite _ => .error .outOfRange
    | number => .ok number

/-- The number that a numeral stands for. -/
def read (text : List Char) : Except Problem Number :=
  match word? text with
  | some number => .ok number
  | none =>
    if text.contains '_' && !underscoresFit text then .error .malformed
    else
      let (negative, body) := splitSign (text.filter (· ≠ '_'))
      match magnitude? body with
      | none => .error .malformed
      | some magnitude => withSign negative magnitude

end Aquarium.Numeral
