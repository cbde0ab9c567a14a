import Aquarium.Number.Basic

/-!
# Decimal text of a number

A number is written with the fewest decimal digits that read back as the same number, and of those
texts the one closest to it; a tie goes to the even last digit. The text is always positional, never
with an exponent.
-/

namespace Aquarium

open Binary64

/-- A decimal: a whole number of units of `10 ^ exponent`. -/
structure Decimal where
  units : Nat
  exponent : Int

namespace Decimal

/-- The exact value of a decimal. -/
def toRat (decimal : Decimal) : Rat :=
  if 0 ≤ decimal.exponent then ((decimal.units * Nat.pow 10 decimal.exponent.toNat : Nat) : Rat)
  else mkRat decimal.units (Nat.pow 10 (-decimal.exponent).toNat)

/-- A natural number in decimal digits. -/
def digits (value : Nat) : List Char :=
  Nat.toDigits 10 value

/-- A natural number in decimal digits, with zeros in front up to a width. -/
def padded (width value : Nat) : List Char :=
  List.replicate (width - (digits value).length) '0' ++ digits value

/-- A decimal without the zeros at the end of its fraction, of which at most so many are dropped. -/
def withoutZeros : Nat → Decimal → Decimal
  | 0, decimal => decimal
  | zeros + 1, decimal =>
    if decimal.exponent < 0 ∧ decimal.units % 10 = 0 then
      withoutZeros zeros ⟨decimal.units / 10, decimal.exponent + 1⟩
    else decimal

/-- A decimal without the zeros at the end of its fraction. -/
def reduced (decimal : Decimal) : Decimal :=
  withoutZeros (-decimal.exponent).toNat decimal

/-- A decimal in positional notation, with a point only if there is a fraction. -/
def positional (decimal : Decimal) : List Char :=
  if 0 ≤ decimal.exponent then digits (decimal.units * Nat.pow 10 decimal.exponent.toNat)
  else
    let places := (-decimal.exponent).toNat
    let whole := decimal.units / Nat.pow 10 places
    let fraction := decimal.units % Nat.pow 10 places
    digits whole ++ '.' :: padded places fraction

/-- The place of the leading digit of a positive quotient, counted from the point: 1 for the units
and 0 for the tenths. -/
def leadingPlace (numerator denominator : Nat) : Int :=
  if denominator ≤ numerator then (digits (numerator / denominator)).length
  else 1 - (digits (denominator / numerator)).length

/-- A positive rational on the decimal grid of a given step, rounded down. -/
def floorOn (value : Rat) (exponent : Int) : Nat :=
  if 0 ≤ exponent then value.num.toNat / (value.den * Nat.pow 10 exponent.toNat)
  else value.num.toNat * Nat.pow 10 (-exponent).toNat / value.den

/-- Of the two points of a decimal grid around a positive rational, the one that reads back as the
given number. Of two such points the closer one is taken, and of two equally close ones the even. -/
def onGrid? (number : Number) (value : Rat) (exponent : Int) : Option Decimal :=
  let lower : Decimal := ⟨floorOn value exponent, exponent⟩
  let upper : Decimal := ⟨floorOn value exponent + 1, exponent⟩
  let downFits := Number.ofRat lower.toRat == number
  let upFits := Number.ofRat upper.toRat == number
  if downFits && upFits then
    let down := value - lower.toRat
    let up := upper.toRat - value
    if down < up then some lower
    else if up < down then some upper
    else if lower.units % 2 = 0 then some lower
    else some upper
  else if downFits then some lower
  else if upFits then some upper
  else none

/-- Every binary fraction is a decimal. -/
def exact (value : Rat) : Decimal :=
  ⟨value.num.toNat * Nat.pow 5 value.den.log2, -value.den.log2⟩

/-- No binary64 number needs more digits than this to be told from its neighbours. -/
def mostDigits : Nat := 17

/-- The closest decimal among those with the fewest digits that read back as the number, for a
number with the given positive value. -/
def shortest (number : Number) (value : Rat) : Decimal :=
  let place := leadingPlace value.num.toNat value.den
  let onGridOf := fun digits : Nat => onGrid? number value (place - (digits + 1))
  ((List.range mostDigits).findSome? onGridOf).getD (exact value)

end Decimal

namespace Number

/-- The characters of a rational that is not negative: an integer of at most 53 bits in full, any
other value by its shortest decimal. -/
def magnitudeCharacters (value : Rat) : List Char :=
  if value.den = 1 ∧ value.num.toNat < Nat.pow 2 precision then Decimal.digits value.num.toNat
  else (Decimal.shortest (ofRat value) value).reduced.positional

/-- The characters that a number is written with. -/
def characters : Number → List Char
  | notANumber => ['N', 'a', 'N']
  | infinite true => ['-', 'I', 'n', 'f']
  | infinite false => ['+', 'I', 'n', 'f']
  | negativeZero => ['-', '0']
  | finite value _ =>
    if value < 0 then '-' :: magnitudeCharacters (-value) else magnitudeCharacters value

/-- The decimal text of a number. -/
def text (number : Number) : String :=
  String.ofList number.characters

end Number

end Aquarium
