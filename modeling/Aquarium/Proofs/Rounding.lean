import Aquarium.Machine.Step

/-!
# Rounding the natural numbers

The number closest to a natural number is found on a grid whose step is a power of two, and grows
with the number. `roundNat` is that point of the grid, `ofInt_natCast` says that it is the number
that `Number.ofInt` makes, and `roundNat_mono` that rounding keeps the order, within one grid and
across the powers of two where the grid gets coarser. So a count that can be met from so many
numbers can be met from more.
-/

namespace Aquarium

namespace Binary64

/-! ## One grid -/

theorem div_le_roundHalfEven (value step : Nat) : value / step ≤ roundHalfEven value step := by
  unfold roundHalfEven
  dsimp only
  repeat' split
  all_goals omega

theorem roundHalfEven_le_div (value step : Nat) :
    roundHalfEven value step ≤ value / step + 1 := by
  unfold roundHalfEven
  dsimp only
  repeat' split
  all_goals omega

/-- Rounding on one grid keeps the order. -/
theorem roundHalfEven_mono {lower upper : Nat} (step : Nat) (ordered : lower ≤ upper) :
    roundHalfEven lower step ≤ roundHalfEven upper step := by
  have quotients : lower / step ≤ upper / step := Nat.div_le_div_right ordered
  rcases Nat.lt_or_eq_of_le quotients with less | same
  · calc roundHalfEven lower step
        ≤ lower / step + 1 := roundHalfEven_le_div lower step
      _ ≤ upper / step := less
      _ ≤ roundHalfEven upper step := div_le_roundHalfEven upper step
  · have rests : lower % step ≤ upper % step := by
      have first := Nat.div_add_mod lower step
      have second := Nat.div_add_mod upper step
      rw [same] at first
      omega
    unfold roundHalfEven
    dsimp only
    rw [same]
    repeat' split
    all_goals omega

/-- The points of a grid stay where they are. -/
theorem roundHalfEven_mul (point : Nat) {step : Nat} (positive : 0 < step) :
    roundHalfEven (point * step) step = point := by
  unfold roundHalfEven
  rw [Nat.mul_mod_left, Nat.mul_div_cancel point positive]
  exact if_pos positive

/-! ## All grids -/

/-- The exponent of the step of the grid around a natural number. -/
def gridExponent (value : Nat) : Nat :=
  value.log2 + 1 - precision

/-- A natural number moved to the closest point of the grid around it. -/
def roundNat (value : Nat) : Nat :=
  roundHalfEven value (Nat.pow 2 (gridExponent value)) * Nat.pow 2 (gridExponent value)

/-- A power of two stays where it is on every finer grid. -/
theorem roundHalfEven_two_pow {grid exponent : Nat} (finer : grid ≤ exponent) :
    roundHalfEven (Nat.pow 2 exponent) (Nat.pow 2 grid) * Nat.pow 2 grid = Nat.pow 2 exponent := by
  have point : Nat.pow 2 (exponent - grid + grid) = Nat.pow 2 (exponent - grid) * Nat.pow 2 grid :=
    Nat.pow_add 2 _ _
  have positive : 0 < Nat.pow 2 grid := Nat.two_pow_pos grid
  rw [Nat.sub_add_cancel finer] at point
  rw [point, roundHalfEven_mul _ positive]

/-- A number below a power of two is not rounded beyond it. -/
theorem roundNat_le_two_pow {value exponent : Nat} (below : value ≤ Nat.pow 2 exponent)
    (finer : gridExponent value ≤ exponent) : roundNat value ≤ Nat.pow 2 exponent := by
  rw [← roundHalfEven_two_pow finer]
  exact Nat.mul_le_mul_right _ (roundHalfEven_mono _ below)

/-- A number above a power of two is not rounded beyond it. -/
theorem two_pow_le_roundNat {value exponent : Nat} (above : Nat.pow 2 exponent ≤ value)
    (finer : gridExponent value ≤ exponent) : Nat.pow 2 exponent ≤ roundNat value := by
  rw [← roundHalfEven_two_pow finer]
  exact Nat.mul_le_mul_right _ (roundHalfEven_mono _ above)

theorem gridExponent_le_log2 (value : Nat) : gridExponent value ≤ value.log2 := by
  unfold gridExponent precision
  omega

theorem log2_mono {lower upper : Nat} (ordered : lower ≤ upper) : lower.log2 ≤ upper.log2 := by
  by_cases zero : lower = 0
  · simp [zero]
  · exact (Nat.le_log2 (by omega)).mpr (Nat.le_trans (Nat.log2_self_le zero) ordered)

/-- Rounding keeps the order. Where the grid gets coarser, a power of two lies between. -/
theorem roundNat_mono {lower upper : Nat} (ordered : lower ≤ upper) :
    roundNat lower ≤ roundNat upper := by
  rcases Nat.lt_or_eq_of_le (log2_mono ordered) with less | same
  · have present : upper ≠ 0 := by
      rintro rfl
      simp at less
    calc roundNat lower
        ≤ 2 ^ (lower.log2 + 1) :=
          roundNat_le_two_pow (Nat.le_of_lt Nat.lt_log2_self)
            (Nat.le_succ_of_le (gridExponent_le_log2 lower))
      _ ≤ 2 ^ upper.log2 := Nat.pow_le_pow_right (by decide) less
      _ ≤ roundNat upper :=
          two_pow_le_roundNat (Nat.log2_self_le present) (gridExponent_le_log2 upper)
  · have grids : gridExponent lower = gridExponent upper := by simp only [gridExponent, same]
    unfold roundNat
    rw [grids]
    exact Nat.mul_le_mul_right _ (roundHalfEven_mono _ ordered)

/-- A rounded number fits into a word unless it is too large. -/
theorem representable_roundNat_iff (value : Nat) :
    Representable ((roundNat value : Nat) : Int) ↔ (roundNat value).log2 < magnitudeBits := by
  unfold Representable
  simp only [Rat.den_intCast, Rat.num_intCast, Int.natAbs_natCast]
  refine ⟨fun held => held.2.2.2, fun small => ⟨by decide, by decide, ?_, small⟩⟩
  have bounded : roundNat value ≤ 2 ^ (gridExponent value + precision) := by
    refine roundNat_le_two_pow ?_ (Nat.le_add_right _ _)
    have bits : value.log2 + 1 ≤ gridExponent value + precision := by
      unfold gridExponent
      omega
    exact Nat.le_trans (Nat.le_of_lt Nat.lt_log2_self) (Nat.pow_le_pow_right (by decide) bits)
  rcases Nat.lt_or_eq_of_le bounded with less | edge
  · -- Below the next power of two, the grid of the rounded number is no coarser.
    have step : (roundNat value).log2 + 1 - precision ≤ gridExponent value := by
      by_cases zero : roundNat value = 0
      · simp [zero, precision]
      · have bits := (Nat.log2_lt zero).mpr less
        omega
    exact Nat.dvd_trans (Nat.pow_dvd_pow 2 step) (Nat.dvd_mul_left _ _)
  · rw [edge, Nat.log2_two_pow]
    exact Nat.pow_dvd_pow 2 (by simp only [precision]; omega)

/-- A natural number of more than 53 bits is moved to its grid. -/
theorem nearest_natCast {value : Nat} (large : precision ≤ value.log2) :
    nearest ((value : Int) : Rat) = ((roundNat value : Nat) : Int) := by
  have present : value ≠ 0 := by
    rintro rfl
    simp [precision] at large
  have reaches : reachesPower value 1 (value.log2 : Int) = true := by
    simp only [reachesPower, Int.toNat_natCast, Int.natCast_nonneg, if_true, Nat.one_mul,
      decide_eq_true_eq]
    exact Nat.log2_self_le present
  have exponent : binaryExponent value 1 = value.log2 := by
    have one : Nat.log2 1 = 0 := by decide
    simp only [binaryExponent, one, Int.natCast_zero, Int.sub_zero, reaches, if_true]
  have grid : stepExponent value 1 = (gridExponent value : Int) := by
    simp only [stepExponent, exponent, gridExponent, precision, finestStep] at large ⊢
    omega
  have positive : ¬ ((value : Int) : Rat) < 0 :=
    Rat.not_lt.mpr (Rat.intCast_nonneg.mpr (Int.natCast_nonneg value))
  simp only [nearest, positive, if_false, Rat.num_intCast, Rat.den_intCast, Int.natAbs_natCast,
    nearestMagnitude, grid, Int.natCast_nonneg, if_true, Int.toNat_natCast, Nat.one_mul, roundNat]
  rfl

end Binary64

/-! ## Numbers -/

namespace Number

open Binary64

/-- A natural number that is representable lies on its grid. -/
theorem roundNat_of_representable {value : Nat} (held : Representable ((value : Nat) : Int)) :
    roundNat value = value := by
  have divides : Nat.pow 2 (gridExponent value) ∣ value := by
    have third := held.2.2.1
    rwa [Rat.num_intCast, Int.natAbs_natCast] at third
  have positive : 0 < Nat.pow 2 (gridExponent value) := Nat.two_pow_pos _
  have point := Nat.div_mul_cancel divides
  have fixed := roundHalfEven_mul (value / Nat.pow 2 (gridExponent value)) positive
  rw [point] at fixed
  rw [roundNat, fixed, point]

/-- The number closest to a natural number: its rounding, or the infinity if that is too large. -/
theorem ofInt_natCast (value : Nat) :
    ofInt value =
      if held : Representable ((roundNat value : Nat) : Int) then .finite _ held
      else .infinite false := by
  by_cases exact : Representable ((value : Nat) : Int)
  · have same := roundNat_of_representable exact
    rw [dif_pos (same.symm ▸ exact)]
    simp only [same]
    exact ofRat_of_representable exact
  · have large : precision ≤ value.log2 := by
      apply Nat.le_of_not_lt
      intro small
      refine exact (representable_of_natAbs_lt value ?_)
      rw [Int.natAbs_natCast]
      exact Nat.lt_of_lt_of_le Nat.lt_log2_self (Nat.pow_le_pow_right (by decide) small)
    have present : value ≠ 0 := by
      rintro rfl
      simp [precision] at large
    have rounded := nearest_natCast large
    have nonzero : ((roundNat value : Nat) : Int) ≠ 0 := by
      have above := two_pow_le_roundNat (Nat.log2_self_le present) (gridExponent_le_log2 value)
      have positive : 0 < Nat.pow 2 value.log2 := Nat.two_pow_pos _
      omega
    have positive : ¬ ((value : Int) : Rat) < 0 :=
      Rat.not_lt.mpr (Rat.intCast_nonneg.mpr (Int.natCast_nonneg value))
    unfold ofInt ofRat
    rw [dif_neg exact]
    simp only [rounded, Rat.intCast_eq_zero_iff, nonzero, if_false, positive, decide_false]

/-! ## Counts -/

/-- Whether a finite number is larger than another one is a matter of their values. -/
theorem greaterThan_finite {count : Number} (bounded : count.isFinite = true) {value : Rat}
    (held : Representable value) :
    count.greaterThan (.finite value held) = true ↔ value < count.toRat := by
  have compared : count.compare? (.finite value held) =
      if count.toRat < value then some .lt
      else if count.toRat = value then some .eq
      else some .gt := by
    cases count with
    | notANumber => cases bounded
    | infinite negative => cases bounded
    | negativeZero => rfl
    | finite own ownHeld => rfl
  unfold greaterThan
  rw [compared]
  split
  · rename_i less
    simpa using Rat.not_lt.mpr (Std.le_of_lt less)
  · rename_i notLess
    split
    · rename_i same
      simp [same]
    · rename_i different
      have above : value ≤ count.toRat := Rat.not_lt.mp notLess
      simpa using Std.lt_of_le_of_ne above (Ne.symm different)

/-- No finite number is larger than the infinity. -/
theorem greaterThan_infinite {count : Number} (bounded : count.isFinite = true) :
    count.greaterThan (.infinite false) = false := by
  cases count with
  | notANumber => cases bounded
  | infinite negative => cases bounded
  | negativeZero => rfl
  | finite value held => rfl

/-- A count that can be met from so many numbers can be met from more. -/
theorem canTakeFrom_mono {count : Number} {left more : Nat} (ordered : left ≤ more)
    (enough : count.canTakeFrom left = true) : count.canTakeFrom more = true := by
  simp only [canTakeFrom, Bool.and_eq_true, Bool.not_eq_true', decide_eq_true_eq] at enough ⊢
  obtain ⟨⟨bounded, within⟩, reached⟩ := enough
  refine ⟨⟨bounded, ?_⟩, Nat.le_trans reached ordered⟩
  have rounded := roundNat_mono ordered
  rw [ofInt_natCast] at within ⊢
  by_cases held : Representable ((roundNat more : Nat) : Int)
  · have small : Representable ((roundNat left : Nat) : Int) := by
      rw [representable_roundNat_iff] at held ⊢
      exact Nat.lt_of_le_of_lt (log2_mono rounded) held
    rw [dif_pos small] at within
    rw [dif_pos held]
    rw [← Bool.not_eq_true, greaterThan_finite bounded] at within ⊢
    intro larger
    refine within (Std.lt_of_le_of_lt ?_ larger)
    exact Rat.intCast_le_intCast.mpr (Int.ofNat_le.mpr rounded)
  · rw [dif_neg held]
    exact greaterThan_infinite bounded

end Number

end Aquarium
