import Aquarium.Number.Numeral
import Aquarium.Toml.Value

/-!
# Values without quotes

Truth values, integers, fractions and moments of a TOML document: each is a run of characters up to
the next gap, separator, comment or line end.
-/

namespace Aquarium.Toml

/-- Whether a character ends a value without quotes. -/
def endsWord (character : Char) : Bool :=
  character = ' ' || character = '\t' || character = '\n' || character = '\r' ||
    character = ',' || character = ']' || character = '\x7d' || character = '#'

/-! ## Numbers -/

/-- Whether each underscore stands between two of the given digits. -/
def separated (isDigit : Char → Bool) (text : List Char) : Bool :=
  match text with
  | [] => false
  | first :: _ =>
    isDigit first &&
      (text.splitOnP (· == '_')).all fun piece => !piece.isEmpty && piece.all isDigit

/-- Whether digits begin with a zero that is not alone. -/
def hasLeadingZero (text : List Char) : Bool :=
  match text with
  | '0' :: _ :: _ => true
  | _ => false

/-- A text without underscores. -/
def bareDigits (text : List Char) : List Char :=
  text.filter (· ≠ '_')

/-- Whether a character is a digit in a base up to sixteen. -/
def isDigitIn (base : Nat) (character : Char) : Bool :=
  Numeral.isDigit true character && Numeral.digitValue character < base

/-- The base that a letter stands for after a zero. -/
def baseOf? (letter : Char) : Option Nat :=
  match letter with
  | 'x' => some 16
  | 'o' => some 8
  | 'b' => some 2
  | _ => none

/-- An integer with the sign it may have. -/
def decimalInteger? (text : List Char) : Option Int :=
  let (negative, digits) := Numeral.splitSign text
  if separated Char.isDigit digits && !hasLeadingZero digits then
    let size := Numeral.digitsValue 10 (bareDigits digits)
    some (if negative then -(size : Int) else size)
  else none

/-- An integer in any base. -/
def unboundedInteger? : List Char → Option Int
  | '0' :: letter :: digits =>
    match baseOf? letter with
    | some base =>
      if separated (isDigitIn base) digits then
        some (Numeral.digitsValue base (bareDigits digits) : Nat)
      else none
    | none => decimalInteger? ('0' :: letter :: digits)
  | text => decimalInteger? text

/-- An integer that fits in 64 bits. -/
def integer? (text : List Char) : Option Int := do
  let value ← unboundedInteger? text
  if Number.leastWord ≤ value ∧ value < -Number.leastWord then some value else none

/-- Whether a text is an exponent with its sign. -/
def isExponent (text : List Char) : Bool :=
  separated Char.isDigit (Numeral.splitSign text).2

/-- Whether a text is digits, which a point and a fraction may follow. -/
def isPointed (text : List Char) : Bool :=
  match text.splitOnP (· == '.') with
  | [whole] => separated Char.isDigit whole && !hasLeadingZero whole
  | [whole, fraction] =>
    separated Char.isDigit whole && !hasLeadingZero whole && separated Char.isDigit fraction
  | _ => false

/-- Whether a text is a number with a fraction or an exponent that is not too large, or one of the
words for infinity and not-a-number. -/
def isFraction (text : List Char) : Bool :=
  let body := (Numeral.splitSign text).2
  if body = ['i', 'n', 'f'] ∨ body = ['n', 'a', 'n'] then true
  else
    let isMark := fun character => character == 'e' || character == 'E'
    let wellFormed := match body.splitOnP isMark with
      | [pointed] => pointed.contains '.' && isPointed pointed
      | [pointed, exponent] => isPointed pointed && isExponent exponent
      | _ => false
    wellFormed &&
      match Numeral.read (bareDigits text) with
      | .ok _ => true
      | .error _ => false

/-! ## Moments -/

/-- A number of exactly so many digits. -/
def fixedDigits? (count : Nat) (text : List Char) : Option Nat :=
  if text.length = count ∧ text.all Char.isDigit then some (Numeral.digitsValue 10 text) else none

/-- The number of days of a month. -/
def daysOf (year month : Nat) : Nat :=
  if month = 2 then
    if year % 4 = 0 ∧ (year % 100 ≠ 0 ∨ year % 400 = 0) then 29 else 28
  else if month = 4 ∨ month = 6 ∨ month = 9 ∨ month = 11 then 30
  else 31

/-- Whether a text is a date. -/
def isDate (text : List Char) : Bool :=
  match text.splitOnP (· == '-') with
  | [first, second, third] =>
    match fixedDigits? 4 first, fixedDigits? 2 second, fixedDigits? 2 third with
    | some year, some month, some day =>
      1 ≤ month && month ≤ 12 && 1 ≤ day && day ≤ daysOf year month
    | _, _, _ => false
  | _ => false

/-- Whether a text is a number of exactly two digits below a bound. -/
def isBelow (bound : Nat) (text : List Char) : Bool :=
  match fixedDigits? 2 text with
  | some value => value < bound
  | none => false

/-- Whether a text is seconds with an optional fraction. -/
def isSeconds (text : List Char) : Bool :=
  match text.splitOnP (· == '.') with
  | [whole] => isBelow 60 whole
  | [whole, fraction] => isBelow 60 whole && !fraction.isEmpty && fraction.all Char.isDigit
  | _ => false

/-- Whether a text is a time of day. -/
def isTime (text : List Char) : Bool :=
  match text.splitOnP (· == ':') with
  | [hours, minutes] => isBelow 24 hours && isBelow 60 minutes
  | [hours, minutes, seconds] => isBelow 24 hours && isBelow 60 minutes && isSeconds seconds
  | _ => false

/-- Whether a text is an offset after its sign. A whole day and a whole hour are allowed. -/
def isOffset (text : List Char) : Bool :=
  match text.splitOnP (· == ':') with
  | [hours, minutes] => isBelow 25 hours && isBelow 61 minutes
  | _ => false

/-- Whether a text is a time of day with an optional offset. -/
def isOffsetTime (text : List Char) : Bool :=
  let time := text.takeWhile fun character =>
    character.isDigit || character = ':' || character = '.'
  let offset := text.drop time.length
  isTime time &&
    match offset with
    | [] => true
    | sign :: rest =>
      if sign = 'Z' ∨ sign = 'z' then rest.isEmpty
      else (sign = '+' || sign = '-') && isOffset rest

/-- Whether a text is a date, a time of day, or both with a letter or a space between them. -/
def isMoment (text : List Char) : Bool :=
  if isDate text || isTime text then true
  else
    match text.drop 10 with
    | mark :: time =>
      (mark = 'T' || mark = 't' || mark = ' ') && isDate (text.take 10) && isOffsetTime time
    | [] => false

/-! ## Words -/

/-- The value that a text without quotes stands for. -/
def wordValue? (text : List Char) : Option Value :=
  if text = ['t', 'r', 'u', 'e'] then some (.boolean true)
  else if text = ['f', 'a', 'l', 's', 'e'] then some (.boolean false)
  else
    match integer? text with
    | some value => some (.integer value)
    | none =>
      if isFraction text then some .fraction
      else if isMoment text then some .moment
      else none

/-- The value without quotes at the front of a text. After a date may come a space and a time. -/
def word? (text : List Char) : Option (Value × List Char) :=
  let word := text.takeWhile fun character => !endsWord character
  let rest := text.drop word.length
  let time := (rest.drop 1).takeWhile fun character => !endsWord character
  if isDate word && rest.head? = some ' ' && (time.head?.any Char.isDigit) then
    (wordValue? (word ++ ' ' :: time)).map fun value => (value, rest.drop (time.length + 1))
  else (wordValue? word).map fun value => (value, rest)

end Aquarium.Toml
