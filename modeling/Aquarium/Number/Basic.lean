import Aquarium.Number.Rounding

/-!
# Numbers

The one kind of value that stacks, registers and cells hold: a binary64 number. A finite number is
its exact rational value, the negative zero stands apart, and every operation computes exactly and
rounds once.
-/

namespace Aquarium

open Binary64

/-- A binary64 number. The negative zero is not the rational zero; there is one not-a-number. -/
inductive Number where
  | notANumber
  | infinite (negative : Bool)
  | negativeZero
  | finite (value : Rat) (held : Representable value)
  deriving DecidableEq

namespace Number

/-- The number closest to a rational: itself if it is representable, a zero of its sign if it is too
small, and an infinity of its sign if it is too large. -/
def ofRat (value : Rat) : Number :=
  if held : Representable value then .finite value held
  else
    let rounded := nearest value
    if rounded = 0 then
      if value < 0 then .negativeZero else .finite 0 representable_zero
    else if held : Representable rounded then .finite rounded held
    else .infinite (value < 0)

/-- The number closest to an integer. -/
def ofInt (value : Int) : Number :=
  ofRat value

instance (n : Nat) : OfNat Number n where
  ofNat := ofInt n

instance : Inhabited Number where
  default := 0

/-- A representable rational is its own rounding. -/
theorem ofRat_of_representable {value : Rat} (held : Representable value) :
    ofRat value = .finite value held := by
  simp [ofRat, held]

/-- An integer of at most 53 bits is a number. -/
theorem ofInt_of_natAbs_lt (value : Int) (small : value.natAbs < Nat.pow 2 precision) :
    ofInt value = .finite value (representable_of_natAbs_lt value small) :=
  ofRat_of_representable (representable_of_natAbs_lt value small)

theorem zero_eq_finite : (0 : Number) = .finite 0 representable_zero :=
  ofRat_of_representable representable_zero

/-- The number 1 for a true statement and 0 for a false one. -/
def ofBool (statement : Bool) : Number :=
  if statement then 1 else 0

/-- The exact value of a finite number, and 0 for the others. -/
def toRat : Number → Rat
  | finite value _ => value
  | _ => 0

/-- Whether the sign is minus. -/
def isNegative : Number → Bool
  | notANumber => false
  | infinite negative => negative
  | negativeZero => true
  | finite value _ => value < 0

/-- Whether the number is a zero of either sign. -/
def isZero : Number → Bool
  | negativeZero => true
  | finite value _ => value = 0
  | _ => false

/-- Whether the number is neither infinite nor not-a-number. -/
def isFinite : Number → Bool
  | negativeZero => true
  | finite _ _ => true
  | _ => false

/-- Whether the number is finite and has no fraction. -/
def isIntegral : Number → Bool
  | negativeZero => true
  | finite value _ => value.den = 1
  | _ => false

/-- The zero of a given sign. -/
def signedZero (negative : Bool) : Number :=
  if negative then .negativeZero else 0

/-! ## Arithmetic -/

/-- The opposite number. -/
def neg : Number → Number
  | notANumber => .notANumber
  | infinite negative => .infinite !negative
  | negativeZero => 0
  | finite value _ => if value = 0 then .negativeZero else ofRat (-value)

/-- The sum. Opposite infinities have none, and only two negative zeros add up to one. -/
def add : Number → Number → Number
  | notANumber, _ => .notANumber
  | _, notANumber => .notANumber
  | infinite left, infinite right => if left = right then .infinite left else .notANumber
  | infinite left, _ => .infinite left
  | _, infinite right => .infinite right
  | negativeZero, right => right
  | left, negativeZero => left
  | finite left _, finite right _ => ofRat (left + right)

/-- The difference. -/
def sub (left right : Number) : Number :=
  left.add right.neg

/-- The product. A zero and an infinity have none. -/
def mul : Number → Number → Number
  | notANumber, _ => .notANumber
  | _, notANumber => .notANumber
  | infinite left, right =>
    if right.isZero then .notANumber else .infinite (left != right.isNegative)
  | left, infinite right =>
    if left.isZero then .notANumber else .infinite (left.isNegative != right)
  | left, right =>
    let product := left.toRat * right.toRat
    if product = 0 then signedZero (left.isNegative != right.isNegative) else ofRat product

/-- The quotient. Two zeros or two infinities have none. -/
def div : Number → Number → Number
  | notANumber, _ => .notANumber
  | _, notANumber => .notANumber
  | infinite _, infinite _ => .notANumber
  | infinite left, right => .infinite (left != right.isNegative)
  | left, infinite right => signedZero (left.isNegative != right)
  | left, right =>
    let negative := left.isNegative != right.isNegative
    if right.isZero then
      if left.isZero then .notANumber else .infinite negative
    else if left.isZero then signedZero negative
    else ofRat (left.toRat / right.toRat)

/-- A rational without its fraction. -/
def truncateRat (value : Rat) : Int :=
  value.num.tdiv value.den

/-- The exact remainder of a division whose quotient is truncated: it has the sign of the dividend.
An infinite dividend and a zero divisor have none. -/
def remainder : Number → Number → Number
  | notANumber, _ => .notANumber
  | _, notANumber => .notANumber
  | infinite _, _ => .notANumber
  | dividend, infinite _ => dividend
  | dividend, divisor =>
    if divisor.isZero then .notANumber
    else
      let rest := dividend.toRat -
        divisor.toRat * (truncateRat (dividend.toRat / divisor.toRat) : Rat)
      if rest = 0 then signedZero dividend.isNegative else ofRat rest

/-- How two numbers compare: not at all if one is not-a-number. The two zeros are equal. -/
def compare? : Number → Number → Option Ordering
  | notANumber, _ => none
  | _, notANumber => none
  | infinite left, infinite right =>
    if left = right then some .eq else if left then some .lt else some .gt
  | infinite left, _ => if left then some .lt else some .gt
  | _, infinite right => if right then some .gt else some .lt
  | left, right =>
    if left.toRat < right.toRat then some .lt
    else if left.toRat = right.toRat then some .eq
    else some .gt

/-- Whether two numbers compare equal. -/
def equals (left right : Number) : Bool :=
  left.compare? right == some .eq

/-- Whether the left number is the smaller one. -/
def lessThan (left right : Number) : Bool :=
  left.compare? right == some .lt

/-- Whether the left number is the larger one. -/
def greaterThan (left right : Number) : Bool :=
  left.compare? right == some .gt

/-- The remainder of a division whose quotient is rounded down: it has the sign of the divisor. -/
def modulo (dividend divisor : Number) : Number :=
  let rest := dividend.remainder divisor
  if !rest.equals 0 && (rest.lessThan 0 != divisor.lessThan 0) then rest.add divisor else rest

/-! ## Integers -/

/-- The smallest 64-bit integer. -/
def leastWord : Int := -(Nat.pow 2 63 : Nat)

/-- The number without its fraction, as a 64-bit integer, or the smallest one if it does not fit. -/
def toInt : Number → Int
  | negativeZero => 0
  | finite value _ =>
    let whole := truncateRat value
    if leastWord ≤ whole ∧ whole < -leastWord then whole else leastWord
  | _ => leastWord

/-- The two zeros have no fraction and are 0. -/
theorem toInt_zero : (0 : Number).toInt = 0 := by
  rw [zero_eq_finite]
  decide

/-- The integer in 64-bit two's complement that agrees with the given one in its lowest 64 bits. -/
def wrapWord (value : Int) : Int :=
  value.bmod (Nat.pow 2 64)

/-- The Unicode scalar value that the number is, if it is one. -/
def toChar? (number : Number) : Option Char :=
  let code := number.toRat.num.toNat
  if number.isIntegral && 0 ≤ number.toRat.num && code.isValidChar then some (Char.ofNat code)
  else none

/-- The code of a character. -/
def ofChar (character : Char) : Number :=
  ofInt character.toNat

end Number

end Aquarium
