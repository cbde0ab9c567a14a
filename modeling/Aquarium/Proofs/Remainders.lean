import Aquarium.CodeBox.Source
import Aquarium.Proofs.Execution
import Aquarium.Proofs.Rounding
import Mathlib.Algebra.Order.Ring.Cast
import Mathlib.Algebra.Order.Ring.Rat
import Mathlib.Data.Int.Cast.Lemmas
import Mathlib.Data.Rat.Lemmas

/-!
# Remainders of integers

The remainder of a truncated division has the sign of the dividend, and one correction gives it the
sign of the divisor: `Number.fmod_eq_corrected` says so of integers. `Number.Is` reads a number as
an integer, and each operation that the modulo instruction consists of is exact on integers of at
most 53 bits, the sum of the correction too, because it brings the remainder closer to 0.
-/

namespace Aquarium

namespace Number

open Binary64

theorem natAbs_tmod_lt (dividend : Int) {divisor : Int} (present : divisor ≠ 0) :
    (dividend.tmod divisor).natAbs < divisor.natAbs := by
  rw [Int.natAbs_tmod]
  exact Nat.mod_lt _ (Int.natAbs_pos.mpr present)

/-- A remainder that has not the sign of the divisor is one divisor away from the one that has. -/
theorem fmod_eq_corrected (dividend : Int) {divisor : Int} (present : divisor ≠ 0) :
    dividend.fmod divisor =
      if dividend.tmod divisor ≠ 0 ∧ ¬ (dividend.tmod divisor < 0 ↔ divisor < 0) then
        dividend.tmod divisor + divisor
      else dividend.tmod divisor := by
  have whole : dividend.tmod divisor + divisor * dividend.tdiv divisor = dividend :=
    Int.tmod_add_mul_tdiv dividend divisor
  -- The quotient goes down by one where the remainder is corrected.
  have corrected : dividend.tmod divisor + divisor + divisor * (dividend.tdiv divisor - 1) =
      dividend := by
    rw [Int.mul_sub, Int.mul_one]
    omega
  have small := natAbs_tmod_lt dividend present
  -- Either way the rest lies between 0 and the divisor, which is what tells the remainder.
  rcases Int.lt_or_gt_of_ne present with negative | positive
  · split
    · exact ((Int.fdiv_fmod_unique' negative).mpr ⟨corrected, by omega, by omega⟩).2
    · exact ((Int.fdiv_fmod_unique' negative).mpr ⟨whole, by omega, by omega⟩).2
  · split
    · exact ((Int.fdiv_fmod_unique positive).mpr ⟨corrected, by omega, by omega⟩).2
    · exact ((Int.fdiv_fmod_unique positive).mpr ⟨whole, by omega, by omega⟩).2

/-! ## Numbers that are integers -/

/-- A number that is a given integer. Both zeros are 0. -/
def Is (number : Number) (value : Int) : Prop :=
  number.isFinite = true ∧ number.toRat = value

instance (number : Number) (value : Int) : Decidable (number.Is value) := by
  unfold Is
  infer_instance

theorem is_ofInt {value : Int} (small : value.natAbs < Nat.pow 2 precision) :
    (ofInt value).Is value := by
  rw [ofInt_of_natAbs_lt value small]
  exact ⟨rfl, rfl⟩

theorem eq_zero_of_is_negativeZero {value : Int} (integer : negativeZero.Is value) : value = 0 :=
  Int.cast_eq_zero.mp integer.2.symm

theorem is_signedZero (negative : Bool) : (signedZero negative).Is 0 := by
  cases negative
  · have small : (0 : Int).natAbs < Nat.pow 2 precision := by decide
    exact is_ofInt small
  · exact ⟨rfl, rfl⟩

/-- How two finite numbers compare. -/
theorem compare?_of_isFinite {left right : Number} (bounded : left.isFinite = true)
    (boundedToo : right.isFinite = true) :
    left.compare? right =
      if left.toRat < right.toRat then some .lt
      else if left.toRat = right.toRat then some .eq
      else some .gt := by
  cases left with
  | notANumber | infinite => cases bounded
  | negativeZero | finite =>
    cases right with
    | notANumber | infinite => cases boundedToo
    | negativeZero | finite => rfl

theorem compare?_zero_of_is {number : Number} {value : Int} (integer : number.Is value) :
    number.compare? 0 =
      if value < 0 then some .lt else if value = 0 then some .eq else some .gt := by
  obtain ⟨bounded, same⟩ := integer
  have zero : (0 : Number).toRat = 0 := by rw [zero_eq_finite]; rfl
  have finite : (0 : Number).isFinite = true := by rw [zero_eq_finite]; rfl
  rw [compare?_of_isFinite bounded finite, same, zero]
  simp only [Int.cast_lt_zero, Int.cast_eq_zero]

theorem lessThan_zero_of_is {number : Number} {value : Int} (integer : number.Is value) :
    number.lessThan 0 = decide (value < 0) := by
  rw [lessThan, compare?_zero_of_is integer]
  split
  · rename_i negative
    simp [negative]
  · rename_i notNegative
    split <;> simp [notNegative]

theorem equals_zero_of_is {number : Number} {value : Int} (integer : number.Is value) :
    number.equals 0 = decide (value = 0) := by
  rw [equals, compare?_zero_of_is integer]
  split
  · rename_i negative
    simp [negative.ne]
  · split <;> simp_all

theorem isZero_of_is {number : Number} {value : Int} (integer : number.Is value) :
    number.isZero = decide (value = 0) := by
  cases number with
  | notANumber | infinite => cases integer.1
  | negativeZero => simp [isZero, eq_zero_of_is_negativeZero integer]
  | finite own held =>
    have equal : own = value := integer.2
    simp [isZero, equal]

/-! ## Exact operations -/

/-- The sum of integers is exact if it fits into 53 bits. -/
theorem is_add {left right : Number} {first second : Int} (integer : left.Is first)
    (integerToo : right.Is second) (small : (first + second).natAbs < Nat.pow 2 precision) :
    (left.add right).Is (first + second) := by
  cases left with
  | notANumber | infinite => cases integer.1
  | negativeZero =>
    rw [eq_zero_of_is_negativeZero integer, Int.zero_add]
    cases right with
    | notANumber | infinite => cases integerToo.1
    | negativeZero | finite => exact integerToo
  | finite own held =>
    cases right with
    | notANumber | infinite => cases integerToo.1
    | negativeZero =>
      rw [eq_zero_of_is_negativeZero integerToo, Int.add_zero]
      exact integer
    | finite other heldToo =>
      have sum : own + other = ((first + second : Int) : Rat) := by
        rw [show own = first from integer.2, show other = second from integerToo.2, Int.cast_add]
      show (ofRat (own + other)).Is _
      rw [sum]
      exact is_ofInt small

theorem truncateRat_div_of_pos (dividend : Int) {divisor : Int} (positive : 0 < divisor) :
    truncateRat (dividend / divisor) = dividend.tdiv divisor := by
  obtain ⟨factor, top, bottom⟩ :=
    Rat.exists_eq_mul_div_num_and_eq_mul_div_den dividend positive.ne'
  generalize (dividend : Rat) / (divisor : Rat) = quotient at top bottom ⊢
  subst top bottom
  have above : 0 < factor := pos_of_mul_pos_left positive (Int.natCast_nonneg _)
  rw [Int.mul_tdiv_mul_of_pos _ _ above]
  rfl

/-- A quotient of integers without its fraction. -/
theorem truncateRat_div (dividend : Int) {divisor : Int} (present : divisor ≠ 0) :
    truncateRat (dividend / divisor) = dividend.tdiv divisor := by
  rcases Int.lt_or_gt_of_ne present with negative | positive
  · have opposite := truncateRat_div_of_pos (-dividend) (Int.neg_pos_of_neg negative)
    rw [Int.cast_neg, Int.cast_neg, neg_div_neg_eq, Int.neg_tdiv, Int.tdiv_neg, Int.neg_neg]
      at opposite
    exact opposite
  · exact truncateRat_div_of_pos dividend positive

theorem remainder_of_isFinite {dividend divisor : Number} (bounded : dividend.isFinite = true)
    (boundedToo : divisor.isFinite = true) (present : divisor.isZero = false) :
    dividend.remainder divisor =
      let rest := dividend.toRat -
        divisor.toRat * (truncateRat (dividend.toRat / divisor.toRat) : Rat)
      if rest = 0 then signedZero dividend.isNegative else ofRat rest := by
  cases dividend with
  | notANumber | infinite => cases bounded
  | negativeZero | finite =>
    cases divisor with
    | notANumber | infinite => cases boundedToo
    | negativeZero => cases present
    | finite => simp only [remainder, present, Bool.false_eq_true, if_false]

/-- The remainder of integers is exact if the divisor has at most 53 bits. -/
theorem is_remainder {dividend divisor : Number} {first second : Int}
    (integer : dividend.Is first) (integerToo : divisor.Is second) (present : second ≠ 0)
    (small : second.natAbs ≤ Nat.pow 2 precision) :
    (dividend.remainder divisor).Is (first.tmod second) := by
  obtain ⟨bounded, same⟩ := integer
  have nonzero : divisor.isZero = false := by
    rw [isZero_of_is integerToo]
    exact decide_eq_false present
  obtain ⟨boundedToo, sameToo⟩ := integerToo
  have rest : dividend.toRat -
      divisor.toRat * (truncateRat (dividend.toRat / divisor.toRat) : Rat) =
        (first.tmod second : Int) := by
    rw [same, sameToo, truncateRat_div first present, Int.tmod_def]
    push_cast
    rfl
  rw [remainder_of_isFinite bounded boundedToo nonzero, rest]
  dsimp only
  split
  · rename_i none
    rw [Int.cast_eq_zero.mp none]
    exact is_signedZero _
  · exact is_ofInt (Nat.lt_of_lt_of_le (natAbs_tmod_lt first present) small)

/-- The corrected remainder of integers is exact if the divisor has at most 53 bits: the correction
brings it closer to 0. -/
theorem is_modulo {dividend divisor : Number} {first second : Int}
    (integer : dividend.Is first) (integerToo : divisor.Is second) (present : second ≠ 0)
    (small : second.natAbs ≤ Nat.pow 2 precision) :
    (dividend.modulo divisor).Is (first.fmod second) := by
  have rest := is_remainder integer integerToo present small
  have less := natAbs_tmod_lt first present
  rw [fmod_eq_corrected first present]
  unfold modulo
  dsimp only
  rw [equals_zero_of_is rest, lessThan_zero_of_is rest, lessThan_zero_of_is integerToo]
  by_cases corrects : first.tmod second ≠ 0 ∧ ¬ (first.tmod second < 0 ↔ second < 0)
  · rw [if_pos corrects, if_pos (by simpa using corrects)]
    exact is_add rest integerToo (by omega)
  · rw [if_neg corrects, if_neg (by simpa using corrects)]
    exact rest

end Number

namespace Machine

open Number

/-- The modulo instruction computes the remainder of a division that rounds down. For integers and
a divisor that is not 0 and has at most 53 bits, it leaves exactly the number between 0 and the
divisor that differs from the dividend by a multiple of the divisor. -/
theorem modulo_leaves_floored_remainder {machine : Machine} {left right : Number}
    {below : List Number} {dividend divisor : Int} (plain : machine.quoting = none)
    (held : machine.values = right :: left :: below) (integer : left.Is dividend)
    (integerToo : right.Is divisor) (present : divisor ≠ 0) (small : divisor.natAbs ≤ 2 ^ 53) :
    ∃ (rest : Number) (quotient remainder : Int),
      machine.step '%'.toNat = .done (machine.withValues (rest :: below)) ∧
      rest.Is remainder ∧ dividend = quotient * divisor + remainder ∧
      (0 < divisor → 0 ≤ remainder ∧ remainder < divisor) ∧
      (divisor < 0 → divisor < remainder ∧ remainder ≤ 0) := by
  have divides : Operator.apply? .modulo left right = some (left.modulo right) := by
    unfold Operator.apply?
    simp [isZero_of_is integerToo, present]
  have stepped : machine.step '%'.toNat = machine.execute (.combine .modulo) :=
    step_of_stands plain rfl
  refine ⟨left.modulo right, dividend.fdiv divisor, dividend.fmod divisor, ?_, ?_, ?_, ?_, ?_⟩
  · exact stepped.trans (execute_of_executes (.combine held divides))
  · exact is_modulo integer integerToo present small
  · exact (Int.fdiv_mul_add_fmod dividend divisor).symm
  · intro positive
    exact ((Int.fdiv_fmod_unique positive).mp ⟨rfl, rfl⟩).2
  · intro negative
    exact ((Int.fdiv_fmod_unique' negative).mp ⟨rfl, rfl⟩).2

/-- A dividend of -1 goes up to the divisor, over all 53 bits. -/
theorem modulo_of_minus_one :
    ∃ (machine : Machine) (rest : Number),
      machine = { start (.ofRows ["%".toList]) (.ofDraws [0]) with
        tower := ⟨⟨[.ofInt (2 ^ 53), .ofInt (-1)], none⟩, []⟩ } ∧
      machine.step '%'.toNat = .done (machine.withValues [rest]) ∧ rest.Is (2 ^ 53 - 1) := by
  generalize known : { start (.ofRows ["%".toList]) (.ofDraws [0]) with
    tower := ⟨⟨[.ofInt (2 ^ 53), .ofInt (-1)], none⟩, []⟩ } = machine
  have plain : machine.quoting = none := by
    subst known
    rfl
  have held : machine.values = [.ofInt (2 ^ 53), .ofInt (-1)] := by
    subst known
    rfl
  have integer : (Number.ofInt (-1)).Is (-1) := is_ofInt (by decide)
  have integerToo : (Number.ofInt (2 ^ 53)).Is (2 ^ 53) := by decide +kernel
  obtain ⟨rest, quotient, remainder, stepped, found, split, bounds, -⟩ :=
    modulo_leaves_floored_remainder plain held integer integerToo (by decide) (by decide)
  have between := bounds (by decide)
  have same : remainder = 2 ^ 53 - 1 := by omega
  exact ⟨machine, rest, rfl, stepped, same ▸ found⟩

end Machine

end Aquarium
