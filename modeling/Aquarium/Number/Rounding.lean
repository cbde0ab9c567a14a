/-!
# Rounding to binary64

A finite number of the machine is a rational that a binary64 word can hold. `Representable` says
which rationals those are, and `nearest` moves any other rational to the closest point of the
binary grid around it, a half going to the even neighbour. The grid is unbounded above: whether a
result is too large for a word is left to `Representable`.
-/

namespace Aquarium.Binary64

/-- The bits of a significand, the hidden one included. -/
def precision : Nat := 53

/-- The finest grid has the step `2 ^ -1074`. -/
def finestStep : Nat := 1074

/-- Every finite magnitude is below `2 ^ 1024`. -/
def magnitudeBits : Nat := 1024

/-- A rational that a binary64 word holds exactly: its denominator is a power of two on the finest
grid or above, all but the leading 53 bits of its numerator are zero, and its magnitude is below
the bound. -/
def Representable (value : Rat) : Prop :=
  value.den = Nat.pow 2 value.den.log2 ∧ value.den.log2 ≤ finestStep ∧
    Nat.pow 2 (value.num.natAbs.log2 + 1 - precision) ∣ value.num.natAbs ∧
      value.num.natAbs.log2 < magnitudeBits

instance (value : Rat) : Decidable (Representable value) := by
  unfold Representable
  infer_instance

/-- An integer of at most 53 bits is representable. -/
theorem representable_of_natAbs_lt (value : Int) (small : value.natAbs < Nat.pow 2 precision) :
    Representable (value : Rat) := by
  have bits : value.natAbs.log2 < precision := by
    by_cases isZero : value.natAbs = 0
    · simp [isZero, precision]
    · exact (Nat.log2_lt isZero).mpr small
  have noShift : value.natAbs.log2 + 1 - precision = 0 := by omega
  refine ⟨by rw [Rat.den_intCast]; decide, by rw [Rat.den_intCast]; decide, by simp [noShift], ?_⟩
  simp only [Rat.num_intCast]
  exact Nat.lt_trans bits (by decide)

theorem representable_zero : Representable 0 :=
  representable_of_natAbs_lt 0 (by decide)

/-- A quotient of natural numbers to the nearest one, a half going to the even neighbour. -/
def roundHalfEven (numerator denominator : Nat) : Nat :=
  let quotient := numerator / denominator
  let rest := numerator % denominator
  if 2 * rest < denominator then quotient
  else if denominator < 2 * rest then quotient + 1
  else if quotient % 2 = 0 then quotient
  else quotient + 1

/-- Whether `2 ^ exponent ≤ numerator / denominator`. -/
def reachesPower (numerator denominator : Nat) (exponent : Int) : Bool :=
  if 0 ≤ exponent then denominator * Nat.pow 2 exponent.toNat ≤ numerator
  else denominator ≤ numerator * Nat.pow 2 (-exponent).toNat

/-- The exponent of the largest power of two that a positive quotient reaches. -/
def binaryExponent (numerator denominator : Nat) : Int :=
  let estimate : Int := numerator.log2 - denominator.log2
  if reachesPower numerator denominator estimate then estimate else estimate - 1

/-- The exponent of the grid step around a positive quotient: it leaves 53 bits, and is never finer
than the finest step. -/
def stepExponent (numerator denominator : Nat) : Int :=
  max (binaryExponent numerator denominator - (precision - 1 : Nat)) (-finestStep)

/-- A positive quotient moved to the closest point of the grid around it. -/
def nearestMagnitude (numerator denominator : Nat) : Rat :=
  let exponent := stepExponent numerator denominator
  if 0 ≤ exponent then
    let step := Nat.pow 2 exponent.toNat
    ((roundHalfEven numerator (denominator * step) * step : Nat) : Rat)
  else
    let scale := Nat.pow 2 (-exponent).toNat
    mkRat (roundHalfEven (numerator * scale) denominator) scale

/-- A rational moved to the closest point of the binary grid around it. -/
def nearest (value : Rat) : Rat :=
  let magnitude := nearestMagnitude value.num.natAbs value.den
  if value < 0 then -magnitude else magnitude

end Aquarium.Binary64
