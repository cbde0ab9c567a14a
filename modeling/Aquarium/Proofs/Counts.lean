import Aquarium.Proofs.FaultConditions
import Aquarium.Proofs.Nesting
import Aquarium.Proofs.Numerals
import Mathlib.Data.Rat.Lemmas
import Mathlib.Tactic.Linarith

/-!
# The count of a new stack

A count has a fraction or not, and the comparison that says whether there are enough numbers looks
at it: `Number.canTakeFrom_iff` says so for stacks of every size, also of those so large that a
number cannot tell how large. Only afterwards is the fraction dropped. So two counts with the same
integer part may differ in what they do, and the main statement says when.
-/

namespace Aquarium

/-! ## Numbers without a fraction -/

namespace Binary64

/-- A word has no room for a fraction beside an integer part of 53 bits. -/
theorem den_eq_one_of_large {value : Rat} (held : Representable value)
    (large : ((2 ^ 52 : Nat) : Rat) ≤ value) : value.den = 1 := by
  obtain ⟨binary, _, aligned, _⟩ := held
  have above : 0 ≤ value.num := Rat.num_nonneg.mpr (le_trans (by positivity) large)
  have reach : 2 ^ 52 * value.den ≤ value.num.natAbs := by
    have scaled : ((2 ^ 52 : Nat) : Rat) * value.den ≤ value.num := by
      rw [← Rat.mul_den_eq_num]
      exact mul_le_mul_of_nonneg_right large (Nat.cast_nonneg _)
    have whole : ((2 ^ 52 * value.den : Nat) : Int) ≤ value.num := by exact_mod_cast scaled
    omega
  have bits : 52 + value.den.log2 ≤ value.num.natAbs.log2 := by
    have positive := value.den_pos
    refine (Nat.le_log2 (by omega)).mpr ?_
    rw [Nat.pow_add, show 2 ^ value.den.log2 = value.den from binary.symm]
    exact reach
  have divides : value.den ∣ value.num.natAbs := by
    rw [binary]
    refine Nat.dvd_trans (Nat.pow_dvd_pow 2 ?_) aligned
    unfold precision
    omega
  exact value.reduced.symm.eq_one_of_dvd divides

end Binary64

namespace Number

open Binary64

/-- The integer part of a number fits into a machine word. -/
def FitsWord (number : Number) : Prop :=
  leastWord ≤ truncateRat number.toRat ∧ truncateRat number.toRat < -leastWord

instance (number : Number) : Decidable number.FitsWord := by
  unfold FitsWord
  infer_instance

theorem toInt_of_fitsWord {number : Number} (bounded : number.isFinite = true)
    (fits : number.FitsWord) : number.toInt = truncateRat number.toRat := by
  cases number with
  | notANumber | infinite => cases bounded
  | negativeZero => decide
  | finite value held => exact if_pos fits

/-- What is not negative loses its fraction by being rounded down. -/
theorem truncateRat_of_nonneg {value : Rat} (magnitude : 0 ≤ value) :
    truncateRat value = value.floor := by
  rw [truncateRat, Int.tdiv_eq_ediv_of_nonneg (Rat.num_nonneg.mpr magnitude), Rat.floor_def]

/-- An integer part is at most a natural number exactly if the value is below the next one. -/
theorem truncateRat_le_iff (value : Rat) (bound : Nat) :
    truncateRat value ≤ bound ↔ value < bound + 1 := by
  rcases lt_or_ge value 0 with below | above
  · have opposite : 0 ≤ (-value.num).tdiv value.den :=
      Int.tdiv_nonneg (neg_nonneg.mpr (Rat.num_nonpos.mpr below.le)) (Int.natCast_nonneg _)
    rw [Int.neg_tdiv] at opposite
    have negative : truncateRat value ≤ 0 := by
      unfold truncateRat
      omega
    exact iff_of_true (by omega) (lt_of_lt_of_le below (by positivity))
  · rw [truncateRat_of_nonneg above, ← Int.lt_add_one_iff, Rat.floor_lt_iff]
    push_cast
    rfl

/-- The integer part tells whether a value is at most a natural number, unless it is that number. -/
theorem le_iff_of_truncateRat_ne {value : Rat} {bound : Nat} (apart : truncateRat value ≠ bound) :
    value ≤ bound ↔ truncateRat value ≤ bound := by
  constructor
  · intro within
    exact (truncateRat_le_iff value bound).mpr (lt_of_le_of_lt within (lt_add_one _))
  · intro within
    rcases lt_or_ge value 0 with below | above
    · exact below.le.trans (Nat.cast_nonneg _)
    · have less : value.floor < (bound : Int) := by
        rw [← truncateRat_of_nonneg above]
        omega
      exact_mod_cast (Rat.floor_lt_iff.mp less).le

/-! ## Counts and lengths -/

/-- The value of a number is one that a word holds. -/
theorem representable_toRat (number : Number) : Representable number.toRat := by
  cases number with
  | finite value held => exact held
  | _ => exact representable_zero

theorem toInt_of_toRat_eq {count : Number} (bounded : count.isFinite = true)
    (fits : count.FitsWord) {size : Nat} (same : count.toRat = size) : count.toInt = size := by
  rw [toInt_of_fitsWord bounded fits, same, truncateRat]
  simp

/-- An integral count can be met from as many numbers as it says. -/
theorem canTakeFrom_self {count : Number} (bounded : count.isFinite = true) (fits : count.FitsWord)
    {left : Nat} (same : count.toRat = left) : count.canTakeFrom left = true := by
  have held : Representable ((left : Int) : Rat) := by
    rw [Rat.intCast_natCast, ← same]
    exact count.representable_toRat
  have notLarger : count.greaterThan (.ofInt left) = false := by
    rw [← Bool.not_eq_true, ofInt, ofRat_of_representable held, greaterThan_finite bounded, same]
    simp
  simp [canTakeFrom, bounded, notLarger, toInt_of_toRat_eq bounded fits same]

/-- A count can be met exactly if its value, the fraction included, is at most what is left. Where
the comparison is with a rounded length, a count has no fraction, and its integer part is compared
as well. -/
theorem canTakeFrom_iff {count : Number} (bounded : count.isFinite = true) (fits : count.FitsWord)
    {left : Nat} : count.canTakeFrom left = true ↔ count.toRat ≤ left := by
  have few : ∀ {left : Nat}, left < Nat.pow 2 53 →
      (count.canTakeFrom left = true ↔ count.toRat ≤ left) := by
    intro left small
    rw [← Bool.not_eq_false, canTakeFrom_eq_false_iff, exceeds_iff bounded small, bounded]
    simp
  rcases lt_or_ge count.toRat ((2 ^ 52 : Nat) : Rat) with low | high
  · rcases Nat.lt_or_ge left (Nat.pow 2 53) with small | large
    · exact few small
    · have room : 2 ^ 52 ≤ left := Nat.le_trans (by decide) large
      refine iff_of_true ?_ (low.le.trans (by exact_mod_cast room))
      exact canTakeFrom_mono room ((few (show 2 ^ 52 < Nat.pow 2 53 by decide)).mpr low.le)
  · have positive : 0 ≤ count.toRat := le_trans (by positivity) high
    have same : count.toRat = (count.toRat.num.toNat : Nat) := by
      rw [natCast_toNat_num positive,
        Rat.coe_int_num_of_den_eq_one (den_eq_one_of_large count.representable_toRat high)]
    generalize count.toRat.num.toNat = size at same
    refine ⟨fun enough => ?_, fun within => ?_⟩
    · have within : count.toInt.toNat ≤ left := by
        simp only [canTakeFrom, Bool.and_eq_true, decide_eq_true_eq] at enough
        exact enough.2
      rw [toInt_of_toRat_eq bounded fits same, Int.toNat_natCast] at within
      rw [same]
      exact_mod_cast within
    · rw [same] at within
      exact canTakeFrom_mono (by exact_mod_cast within) (canTakeFrom_self bounded fits same)

end Number

/-! ## The instruction -/

/-- A new stack takes its numbers off the end of those that there are. -/
theorem Tower.exists_openStack_ofList {numbers : List Number} {count : Nat}
    (enough : count ≤ numbers.length) (register : Option Number) (beneath : List Stack) :
    ∃ kept moved, numbers = kept ++ moved ∧ moved.length = count ∧
      (⟨.ofList numbers register, beneath⟩ : Tower).openStack count =
        ⟨.ofList moved.reverse none, .ofList kept register :: beneath⟩ := by
  have length : (numbers.drop (numbers.length - count)).length = count := by
    rw [List.length_drop]
    omega
  have split := List.take_append_drop (numbers.length - count) numbers
  refine ⟨_, _, split.symm, length, ?_⟩
  rw [← Tower.openStack_ofList, length, split]

namespace Machine

open Number

/-- What opening a stack does, by the value of the count. -/
theorem execute_openStack_eq {outer : Machine} {numbers : List Number} {count : Number}
    {register : Option Number} {beneath : List Stack}
    (holds : outer.tower = ⟨.ofList (numbers ++ [count]) register, beneath⟩)
    (bounded : count.isFinite = true) (fits : count.FitsWord) :
    outer.execute .openStack =
      if count.toRat ≤ numbers.length then
        .done { outer with
          tower := (⟨.ofList numbers register, beneath⟩ : Tower).openStack
            (truncateRat count.toRat).toNat }
      else .failed (.fault .underflow)
        { outer with tower := ⟨.ofList numbers register, beneath⟩ } := by
  have held : outer.values = count :: numbers.reverse := by
    simp [Machine.values, holds, Stack.ofList]
  have popped : outer.withValues numbers.reverse =
      { outer with tower := ⟨.ofList numbers register, beneath⟩ } := by
    simp [withValues, Tower.withValues, holds, Stack.ofList]
  have met : count.canTakeFrom numbers.reverse.length = true ↔ count.toRat ≤ numbers.length := by
    rw [canTakeFrom_iff bounded fits, List.length_reverse]
  split
  · rename_i within
    rw [execute_of_executes (.openStack held (met.mpr within)), popped,
      toInt_of_fitsWord bounded fits]
  · rename_i beyond
    have short : count.canTakeFrom numbers.reverse.length = false :=
      Bool.eq_false_iff.mpr fun enough => beyond (met.mp enough)
    rw [execute_of_executes (.countTooLarge held short), popped]

theorem exists_execute_openStack_iff {outer : Machine} {numbers : List Number} {count : Number}
    {register : Option Number} {beneath : List Stack}
    (holds : outer.tower = ⟨.ofList (numbers ++ [count]) register, beneath⟩)
    (bounded : count.isFinite = true) (fits : count.FitsWord) :
    (∃ opened, outer.execute .openStack = .done opened) ↔ count.toRat ≤ numbers.length := by
  rw [execute_openStack_eq holds bounded fits]
  split
  · rename_i within
    exact iff_of_true ⟨_, rfl⟩ within
  · rename_i beyond
    exact iff_of_false (by rintro ⟨_, ⟨⟩⟩) beyond

/-- The count of a new stack is compared before it is truncated. The instruction completes exactly
if the count itself is at most the number of numbers beneath it, and then moves as many as its
integer part says, none for a negative one; otherwise it fails for lack of numbers, and the count is
gone. So the integer part decides unless the count lies strictly between the number of numbers and
the next integer, and counts with the same integer part do the same unless that is the number of
numbers. -/
theorem count_compared_before_truncation {outer : Machine} {numbers : List Number}
    {count : Number} {register : Option Number} {beneath : List Stack}
    (holds : outer.tower = ⟨.ofList (numbers ++ [count]) register, beneath⟩)
    (bounded : count.isFinite = true) (fits : count.FitsWord) :
    (count.toRat ≤ numbers.length → ∃ kept moved, numbers = kept ++ moved ∧
      (moved.length : Int) = max 0 (truncateRat count.toRat) ∧
      outer.execute .openStack =
        .done { outer with
          tower := ⟨.ofList moved.reverse none, .ofList kept register :: beneath⟩ }) ∧
    (numbers.length < count.toRat →
      outer.execute .openStack =
        .failed (.fault .underflow)
          { outer with tower := ⟨.ofList numbers register, beneath⟩ }) ∧
    (((∃ opened, outer.execute .openStack = .done opened) ↔
        truncateRat count.toRat ≤ numbers.length) ↔
      ¬ (numbers.length < count.toRat ∧ count.toRat < numbers.length + 1)) ∧
    ∀ other : Number, other.isFinite = true → other.FitsWord →
      truncateRat other.toRat = truncateRat count.toRat →
      truncateRat count.toRat ≠ numbers.length →
      (outer.withValues (other :: numbers.reverse)).execute .openStack =
        outer.execute .openStack := by
  have does := execute_openStack_eq holds bounded fits
  refine ⟨fun within => ?_, fun beyond => ?_, ?_, fun other otherBounded otherFits same apart => ?_⟩
  · have whole := (truncateRat_le_iff _ _).mpr (lt_of_le_of_lt within (lt_add_one _))
    obtain ⟨kept, moved, split, length, opens⟩ :=
      Tower.exists_openStack_ofList (Int.toNat_le.mpr whole) register beneath
    refine ⟨kept, moved, split, by omega, ?_⟩
    rw [does, if_pos within, opens]
  · rw [does, if_neg (not_le.mpr beyond)]
  · rw [exists_execute_openStack_iff holds bounded fits, truncateRat_le_iff]
    constructor
    · rintro alike ⟨above, below⟩
      exact not_lt.mpr (alike.mpr below) above
    · intro outside
      refine ⟨fun within => lt_of_le_of_lt within (lt_add_one _), fun below => ?_⟩
      exact not_lt.mp fun above => outside ⟨above, below⟩
  · have holdsOther : (outer.withValues (other :: numbers.reverse)).tower =
        ⟨.ofList (numbers ++ [other]) register, beneath⟩ := by
      simp [withValues, Tower.withValues, holds, Stack.ofList]
    have alike : other.toRat ≤ numbers.length ↔ count.toRat ≤ numbers.length := by
      rw [le_iff_of_truncateRat_ne (same ▸ apart), le_iff_of_truncateRat_ne apart, same]
    rw [does, execute_openStack_eq holdsOther otherBounded otherFits, same]
    simp only [alike]
    rfl

/-- One and a half numbers are asked for, and one of two is moved. -/
theorem count_of_one_and_a_half_moves_one :
    ∃ outer : Machine,
      outer = { start (.ofRows [['[']]) (.ofDraws [0]) with
        tower := ⟨.ofList [7, 8, Number.div 3 2] none, []⟩ } ∧
      outer.execute .openStack =
        .done { outer with tower := ⟨.ofList [8] none, [.ofList [7] none]⟩ } ∧
      (outer.withValues (1 :: [8, 7])).execute .openStack = outer.execute .openStack := by
  generalize known : ({ start (.ofRows [['[']]) (.ofDraws [0]) with
    tower := ⟨.ofList [7, 8, Number.div 3 2] none, []⟩ } : Machine) = outer
  have holds : outer.tower = ⟨.ofList ([7, 8] ++ [Number.div 3 2]) none, []⟩ := by
    subst known
    rfl
  obtain ⟨completes, _, _, alike⟩ :=
    count_compared_before_truncation holds (by decide +kernel) (by decide +kernel)
  obtain ⟨kept, moved, split, length, opens⟩ := completes (by decide +kernel)
  have one : moved.length = 1 := by
    have whole : max 0 (truncateRat (Number.div 3 2).toRat) = 1 := by decide +kernel
    omega
  obtain ⟨last, rfl⟩ := List.length_eq_one_iff.mp one
  have ends : [(7 : Number)] ++ [8] = kept ++ [last] := split
  obtain ⟨rfl, same⟩ := List.append_inj' ends rfl
  cases same
  exact ⟨outer, rfl, opens, alike 1 (by decide +kernel) (by decide +kernel) (by decide +kernel)
    (by decide +kernel)⟩

/-- Two numbers are enough for a count of two, and not for a count of two and a half, although both
have the integer part 2. -/
theorem counts_of_same_integer_part_told_apart :
    ∃ outer : Machine, outer = start (.ofRows [['[']]) (.ofDraws [0]) ∧
      truncateRat (2 : Number).toRat = 2 ∧ truncateRat (Number.div 5 2).toRat = 2 ∧
      ({ outer with tower := ⟨.ofList [7, 8, 2] none, []⟩ } : Machine).execute .openStack =
        .done { outer with tower := ⟨.ofList [8, 7] none, [.ofList [] none]⟩ } ∧
      ({ outer with tower := ⟨.ofList [7, 8, Number.div 5 2] none, []⟩ } : Machine).execute
          .openStack =
        .failed (.fault .underflow) { outer with tower := ⟨.ofList [7, 8] none, []⟩ } := by
  generalize start (.ofRows [['[']]) (.ofDraws [0]) = outer
  have holds (count : Number) :
      ({ outer with tower := ⟨.ofList [7, 8, count] none, []⟩ } : Machine).tower =
        ⟨.ofList ([7, 8] ++ [count]) none, []⟩ := rfl
  have whole : truncateRat (2 : Number).toRat = 2 := by decide +kernel
  refine ⟨outer, rfl, whole, by decide +kernel, ?_, ?_⟩
  · rw [execute_openStack_eq (holds 2) (by decide +kernel) (by decide +kernel),
      if_pos (by decide +kernel), whole]
    rfl
  · rw [execute_openStack_eq (holds _) (by decide +kernel) (by decide +kernel),
      if_neg (by decide +kernel)]

end Machine

end Aquarium
