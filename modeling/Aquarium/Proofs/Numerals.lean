import Aquarium.Number.Numeral
import Mathlib.Data.Rat.Lemmas
import Mathlib.Tactic.FieldSimp
import Mathlib.Tactic.NormNum
import Mathlib.Tactic.Ring

/-!
# Reading numbers back

Every number is read back from its own text (`read_characters`). The text of a finite number is the
positional notation of a decimal, which is read as the exact value of that decimal
(`decimal?_positional`), and the decimal is one that rounds to the number (`ofRat_shortest`). The
sign plays no part in it: rounding treats the two sides of zero alike (`ofRat_neg`).
-/

namespace Aquarium

/-! ## Values of decimals -/

/-- The numerator of a rational that is not negative is a natural number. -/
theorem natCast_toNat_num {value : Rat} (magnitude : 0 ≤ value) :
    ((value.num.toNat : Nat) : Rat) = value.num := by
  have same := Int.toNat_of_nonneg (Rat.num_nonneg.mpr magnitude)
  exact_mod_cast same

namespace Decimal

/-- The value of a decimal is a multiple of a power of ten. -/
theorem toRat_eq (decimal : Decimal) :
    decimal.toRat = decimal.units * (10 : Rat) ^ decimal.exponent := by
  unfold toRat
  split
  · rename_i whole
    obtain ⟨places, same⟩ := Int.eq_ofNat_of_zero_le whole
    rw [same, Int.toNat_natCast, zpow_natCast]
    push_cast
    simp
  · rename_i fractional
    obtain ⟨places, same⟩ := Int.eq_ofNat_of_zero_le (show 0 ≤ -decimal.exponent by omega)
    have exponent : decimal.exponent = -(places : Int) := by omega
    rw [same, exponent, Int.toNat_natCast, zpow_neg, zpow_natCast, Rat.mkRat_eq_div]
    push_cast
    simp [div_eq_mul_inv]

/-- Zeros at the end of a fraction make no difference to the value. -/
theorem toRat_withoutZeros (zeros : Nat) (decimal : Decimal) :
    (withoutZeros zeros decimal).toRat = decimal.toRat := by
  induction zeros generalizing decimal with
  | zero => rfl
  | succ zeros hypothesis =>
    unfold withoutZeros
    split
    · rename_i ends
      have tens : decimal.units = decimal.units / 10 * 10 := by omega
      have units : (decimal.units : Rat) = (decimal.units / 10 : Nat) * 10 := by
        exact_mod_cast tens
      rw [hypothesis, toRat_eq, toRat_eq, units, zpow_add_one₀ (by norm_num : (10 : Rat) ≠ 0)]
      ring
    · rfl

theorem toRat_reduced (decimal : Decimal) : decimal.reduced.toRat = decimal.toRat :=
  toRat_withoutZeros _ decimal

/-- A binary fraction that is not negative is the decimal with as many places. -/
theorem toRat_exact {value : Rat} (binary : value.den = Nat.pow 2 value.den.log2)
    (magnitude : 0 ≤ value) : (exact value).toRat = value := by
  have halves : (value.den : Rat) = 2 ^ value.den.log2 := by exact_mod_cast binary
  have tens : (10 : Rat) ^ value.den.log2 = 5 ^ value.den.log2 * 2 ^ value.den.log2 := by
    rw [← mul_pow]
    norm_num
  rw [toRat_eq]
  calc ((exact value).units : Rat) * (10 : Rat) ^ (exact value).exponent
      = value.num * 5 ^ value.den.log2 * ((10 : Rat) ^ value.den.log2)⁻¹ := by
        simp only [exact, zpow_neg, zpow_natCast]
        push_cast
        rw [natCast_toNat_num magnitude]
        simp
    _ = value.num / 2 ^ value.den.log2 := by
        rw [tens]
        field_simp
    _ = value := by rw [← halves, Rat.num_div_den]

/-- A point of a grid is taken only if it reads back as the number. -/
theorem ofRat_of_onGrid? {number : Number} {value : Rat} {exponent : Int} {decimal : Decimal}
    (taken : onGrid? number value exponent = some decimal) :
    Number.ofRat decimal.toRat = number := by
  unfold onGrid? at taken
  simp only [beq_iff_eq, Bool.and_eq_true] at taken
  split at taken
  · rename_i fits
    obtain rfl | rfl : decimal = ⟨floorOn value exponent, exponent⟩ ∨
        decimal = ⟨floorOn value exponent + 1, exponent⟩ := by
      repeat' split at taken
      all_goals simp only [Option.some.injEq] at taken
      all_goals simp [← taken]
    · exact fits.1
    · exact fits.2
  · split at taken
    · rename_i fits
      rwa [← Option.some.inj taken]
    · split at taken
      · rename_i fits
        rwa [← Option.some.inj taken]
      · cases taken

/-- The shortest decimal of a number rounds to that number. -/
theorem ofRat_shortest {value : Rat} (held : Binary64.Representable value)
    (magnitude : 0 ≤ value) :
    Number.ofRat (shortest (Number.ofRat value) value).toRat = Number.ofRat value := by
  unfold shortest
  simp only
  cases found : (List.range mostDigits).findSome? fun digits : Nat =>
      onGrid? (Number.ofRat value) value
        (leadingPlace value.num.toNat value.den - (digits + 1)) with
  | none => rw [Option.getD_none, toRat_exact held.1 magnitude]
  | some decimal =>
    obtain ⟨_, _, taken⟩ := List.exists_of_findSome?_eq_some found
    exact ofRat_of_onGrid? taken

end Decimal

/-! ## The two sides of zero -/

namespace Binary64

theorem representable_neg_iff (value : Rat) : Representable (-value) ↔ Representable value := by
  simp only [Representable, Rat.neg_num, Rat.neg_den, Int.natAbs_neg]

/-- Rounding treats the two sides of zero alike. -/
theorem nearest_neg {value : Rat} (nonzero : value ≠ 0) : nearest (-value) = -nearest value := by
  unfold nearest
  simp only [Rat.neg_num, Rat.neg_den, Int.natAbs_neg]
  rcases lt_or_gt_of_ne nonzero with below | above
  · rw [if_neg (not_lt.mpr (neg_nonneg.mpr below.le)), if_pos below, neg_neg]
  · rw [if_pos (neg_lt_zero.mpr above), if_neg (not_lt.mpr above.le)]

end Binary64

namespace Number

open Binary64

/-- What rounds to a number other than zero rounds to the opposite number with the opposite sign. -/
theorem ofRat_neg {magnitude value : Rat} {held : Representable value} (nonzero : value ≠ 0)
    (rounds : ofRat magnitude = .finite value held) :
    ofRat (-magnitude) = .finite (-value) ((representable_neg_iff value).mpr held) := by
  by_cases exactly : Representable magnitude
  · rw [ofRat_of_representable exactly] at rounds
    obtain rfl : magnitude = value := by injection rounds
    exact ofRat_of_representable _
  · have present : magnitude ≠ 0 := by
      rintro rfl
      exact exactly representable_zero
    have inexact : ¬ Representable (-magnitude) := by rwa [representable_neg_iff]
    unfold ofRat at rounds ⊢
    rw [dif_neg exactly] at rounds
    rw [dif_neg inexact]
    dsimp only at rounds ⊢
    rw [nearest_neg present]
    split at rounds
    · split at rounds
      · cases rounds
      · injection rounds with zero
        exact absurd zero.symm nonzero
    · split at rounds
      · rename_i small fits
        obtain rfl : nearest magnitude = value := by injection rounds
        rw [if_neg (neg_ne_zero.mpr small), dif_pos]
      · cases rounds

end Number

/-! ## Digits -/

namespace Numeral

/-- Decimal digits spell what the library reads in them. -/
theorem digitsValue_eq {digits : List Char} (plain : ∀ digit ∈ digits, digit.isDigit) :
    digitsValue 10 digits = Nat.ofDigitChars 10 digits 0 := by
  refine List.foldl_ext _ _ 0 fun value digit member => ?_
  rw [digitValue, if_pos (plain digit member), Nat.mul_comm]

end Numeral

namespace Decimal

theorem digits_ne_nil (value : Nat) : digits value ≠ [] :=
  Nat.toDigits_ne_nil

theorem isDigit_of_mem_digits {value : Nat} {digit : Char} (member : digit ∈ digits value) :
    digit.isDigit :=
  Nat.isDigit_of_mem_toDigits (by decide) (by decide) member

theorem isDigit_of_mem_padded {width value : Nat} {digit : Char}
    (member : digit ∈ padded width value) : digit.isDigit := by
  rcases List.mem_append.mp member with zero | own
  · rw [List.eq_of_mem_replicate zero]
    rfl
  · exact isDigit_of_mem_digits own

/-- Zeros in front fill the width. -/
theorem length_padded {width value : Nat} (wide : 0 < width) (small : value < 10 ^ width) :
    (padded width value).length = width := by
  have short := (Nat.length_toDigits_le_iff (by decide) wide).mpr small
  simp only [padded, digits, List.length_append, List.length_replicate]
  omega

theorem digitsValue_digits (value : Nat) : Numeral.digitsValue 10 (digits value) = value := by
  rw [Numeral.digitsValue_eq fun digit => isDigit_of_mem_digits]
  exact Nat.ofDigitChars_ten_toDigits

/-- The digits around a point spell the whole and the fraction, each in its place. -/
theorem digitsValue_digits_append_padded (whole : Nat) {places fraction : Nat}
    (wide : 0 < places) (small : fraction < 10 ^ places) :
    Numeral.digitsValue 10 (digits whole ++ padded places fraction) =
      whole * 10 ^ places + fraction := by
  have plain : ∀ digit ∈ digits whole ++ padded places fraction, digit.isDigit := by
    intro digit member
    rcases List.mem_append.mp member with own | own
    · exact isDigit_of_mem_digits own
    · exact isDigit_of_mem_padded own
  have own : Nat.ofDigitChars 10 (padded places fraction) 0 = fraction := by
    rw [padded, Nat.ofDigitChars_append, Nat.ofDigitChars_replicate_zero, Nat.mul_zero]
    exact Nat.ofDigitChars_ten_toDigits
  rw [Numeral.digitsValue_eq plain, Nat.ofDigitChars_append, digits,
    Nat.ofDigitChars_ten_toDigits, Nat.ofDigitChars_eq_ofDigitChars_zero, own,
    length_padded wide small, Nat.mul_comm]

end Decimal

/-! ## The positional notation -/

namespace Numeral

/-- Digits are taken as a whole. -/
theorem takeWhile_isDigit {digits : List Char} (plain : ∀ digit ∈ digits, digit.isDigit)
    (rest : List Char) :
    (digits ++ rest).takeWhile (isDigit false) = digits ++ rest.takeWhile (isDigit false) :=
  List.takeWhile_append_of_pos fun digit member => by simp [isDigit, plain digit member]

theorem dropWhile_isDigit {digits : List Char} (plain : ∀ digit ∈ digits, digit.isDigit)
    (rest : List Char) :
    (digits ++ rest).dropWhile (isDigit false) = rest.dropWhile (isDigit false) :=
  List.dropWhile_append_of_pos fun digit member => by simp [isDigit, plain digit member]

/-- Digits alone are a significand without a fraction. -/
theorem significand?_digits {digits : List Char} (present : digits ≠ [])
    (plain : ∀ digit ∈ digits, digit.isDigit) :
    significand? false digits = some (digits, 0, []) := by
  have taken := takeWhile_isDigit plain []
  have dropped := dropWhile_isDigit plain []
  simp only [List.append_nil, List.takeWhile_nil, List.dropWhile_nil] at taken dropped
  simp [significand?, taken, dropped, present]

/-- Digits around a point are a significand with a fraction. -/
theorem significand?_point {whole fraction : List Char} (present : whole ≠ [])
    (wholePlain : ∀ digit ∈ whole, digit.isDigit)
    (fractionPlain : ∀ digit ∈ fraction, digit.isDigit) :
    significand? false (whole ++ '.' :: fraction) =
      some (whole ++ fraction, fraction.length, []) := by
  have point : isDigit false '.' = false := by decide
  have taken := takeWhile_isDigit fractionPlain []
  have dropped := dropWhile_isDigit fractionPlain []
  simp only [List.append_nil, List.takeWhile_nil, List.dropWhile_nil] at taken dropped
  simp [significand?, takeWhile_isDigit wholePlain, dropWhile_isDigit wholePlain, point, taken,
    dropped, present]

/-- Digits alone are read as the number that they spell. -/
theorem decimal?_digits (value : Nat) : decimal? (Decimal.digits value) = some (value : Rat) := by
  have parts := significand?_digits (Decimal.digits_ne_nil value)
    fun digit => Decimal.isDigit_of_mem_digits
  simp [decimal?, parts, Decimal.digitsValue_digits, Decimal.toRat_eq]

/-- Positional notation is read as the exact value of the decimal. -/
theorem decimal?_positional (decimal : Decimal) :
    decimal? decimal.positional = some decimal.toRat := by
  unfold Decimal.positional
  split
  · rename_i whole
    rw [decimal?_digits, Decimal.toRat, if_pos whole]
  · rename_i fractional
    obtain ⟨places, same⟩ := Int.eq_ofNat_of_zero_le (show 0 ≤ -decimal.exponent by omega)
    have exponent : decimal.exponent = -(places : Int) := by omega
    have wide : 0 < places := by omega
    have small : decimal.units % Nat.pow 10 places < 10 ^ places :=
      Nat.mod_lt _ (Nat.pow_pos (by decide))
    have parts := significand?_point (Decimal.digits_ne_nil (decimal.units / Nat.pow 10 places))
      (fun digit => Decimal.isDigit_of_mem_digits)
      (fun digit => @Decimal.isDigit_of_mem_padded places (decimal.units % Nat.pow 10 places) digit)
    have spelt := Decimal.digitsValue_digits_append_padded (decimal.units / Nat.pow 10 places) wide
      small
    have units : decimal.units / Nat.pow 10 places * 10 ^ places +
        decimal.units % Nat.pow 10 places = decimal.units := Nat.div_add_mod' _ _
    simp only [same, Int.toNat_natCast, decimal?, parts, spelt, units,
      Decimal.length_padded wide small, ← exponent]

/-! ## The whole numeral -/

/-- A positional notation begins with a digit, and its characters lie between the point and the
nine, where there is neither a letter nor an underscore. -/
structure Plain (body : List Char) : Prop where
  leads : ∃ digit rest, body = digit :: rest ∧ digit.isDigit
  range : ∀ character ∈ body, 0x2E ≤ character.toNat ∧ character.toNat ≤ 0x39

theorem range_of_isDigit {digit : Char} (plain : digit.isDigit) :
    0x30 ≤ digit.toNat ∧ digit.toNat ≤ 0x39 :=
  Char.isDigit_iff_toNat.mp plain

theorem plain_digits (value : Nat) : Plain (Decimal.digits value) where
  leads := by
    obtain ⟨digit, rest, shape⟩ := List.exists_cons_of_ne_nil (Decimal.digits_ne_nil value)
    have member : digit ∈ Decimal.digits value := shape ▸ List.mem_cons_self
    exact ⟨digit, rest, shape, Decimal.isDigit_of_mem_digits member⟩
  range character member := by
    have := range_of_isDigit (Decimal.isDigit_of_mem_digits member)
    omega

theorem plain_positional (decimal : Decimal) : Plain decimal.positional := by
  unfold Decimal.positional
  split
  · exact plain_digits _
  · obtain ⟨⟨digit, rest, shape, plain⟩, range⟩ :=
      plain_digits (decimal.units / Nat.pow 10 (-decimal.exponent).toNat)
    refine ⟨⟨digit, _, congrArg (· ++ _) shape, plain⟩, fun character member => ?_⟩
    rcases List.mem_append.mp member with whole | fraction
    · exact range character whole
    · rcases List.mem_cons.mp fraction with rfl | own
      · decide
      · have := range_of_isDigit (Decimal.isDigit_of_mem_padded own)
        omega

/-- Characters before the capital letters have no case. -/
theorem toLower_eq_self {character : Char} (before : character.toNat < 0x41) :
    character.toLower = character := by
  unfold Char.toLower
  rw [dif_neg]
  rintro ⟨above, _⟩
  have : 0x41 ≤ character.toNat := UInt32.le_iff_toNat_le.mp above
  omega

variable {body : List Char}

/-- A digit and a point are neither a mark of a base nor an exponent. -/
theorem magnitude?_of_plain (plain : Plain body) : magnitude? body = decimal? body := by
  unfold magnitude?
  split
  · rename_i mark next rest
    have range := plain.range mark (by simp)
    rw [if_neg]
    rw [toLower_eq_self (by omega)]
    rintro rfl
    exact absurd range (by decide)
  · rfl

/-- A positional notation with its sign, if it has one. -/
def signed (negative : Bool) (body : List Char) : List Char :=
  if negative then '-' :: body else body

/-- The sign comes off again. -/
theorem splitSign_signed (plain : Plain body) (negative : Bool) :
    splitSign (signed negative body) = (negative, body) := by
  cases negative with
  | true => rfl
  | false =>
    obtain ⟨digit, rest, rfl, leads⟩ := plain.leads
    rw [signed, if_neg Bool.false_ne_true]
    unfold splitSign
    split
    · rename_i same
      cases same
      cases leads
    · rename_i same
      cases same
      cases leads
    · rfl

/-- A positional notation is no word: its first digit begins none. -/
theorem word?_signed (plain : Plain body) (negative : Bool) :
    word? (signed negative body) = none := by
  have split := splitSign_signed plain negative
  obtain ⟨digit, rest, rfl, leads⟩ := plain.leads
  have before : digit.toNat < 0x41 := Nat.lt_of_le_of_lt (range_of_isDigit leads).2 (by decide)
  have own := toLower_eq_self before
  have other : ∀ letter : Char, letter.isDigit = false → digit ≠ letter := by
    rintro letter plainless rfl
    rw [leads] at plainless
    cases plainless
  unfold word?
  rw [split]
  cases negative <;> simp [signed, own, other 'i' (by decide), other 'n' (by decide)]

theorem underscore_not_mem_signed (plain : Plain body) (negative : Bool) :
    '_' ∉ signed negative body := by
  have outside : '_' ∉ body := fun member => absurd (plain.range '_' member) (by decide)
  cases negative <;> simp [signed, outside]

/-- A positional notation is read as its magnitude with its sign. -/
theorem read_signed (plain : Plain body) {magnitude : Rat}
    (found : decimal? body = some magnitude) (negative : Bool) :
    read (signed negative body) = withSign negative magnitude := by
  have absent := underscore_not_mem_signed plain negative
  have whole : (signed negative body).filter (· ≠ '_') = signed negative body :=
    List.filter_eq_self.mpr fun character member => by
      have other : character ≠ '_' := fun same => absent (same ▸ member)
      simpa using other
  have contains : (signed negative body).contains '_' = false := by simpa using absent
  simp only [read, word?_signed plain, contains, whole, splitSign_signed plain,
    magnitude?_of_plain plain, found, Bool.false_and, Bool.false_eq_true, if_false]

end Numeral

/-! ## Numbers -/

namespace Number

open Binary64 Numeral

/-- The characters of a magnitude are a positional notation, and its value rounds to the
magnitude. -/
theorem magnitudeCharacters_spec {value : Rat} (held : Representable value)
    (magnitude : 0 ≤ value) :
    Plain (magnitudeCharacters value) ∧
      ∃ rounded, decimal? (magnitudeCharacters value) = some rounded ∧
        ofRat rounded = .finite value held := by
  unfold magnitudeCharacters
  split
  · rename_i whole
    refine ⟨plain_digits _, _, decimal?_digits _, ?_⟩
    rw [natCast_toNat_num magnitude, Rat.coe_int_num_of_den_eq_one whole.1,
      ofRat_of_representable held]
  · refine ⟨plain_positional _, _, decimal?_positional _, ?_⟩
    rw [Decimal.toRat_reduced, Decimal.ofRat_shortest held magnitude, ofRat_of_representable held]

/-- Without a sign, what rounds to a finite number is read as that number. -/
theorem withSign_false {rounded value : Rat} {held : Representable value}
    (rounds : ofRat rounded = .finite value held) :
    withSign false rounded = .ok (.finite value held) := by
  unfold withSign
  by_cases zero : rounded = 0
  · rw [if_pos zero, ← rounds, zero]
    rfl
  · rw [if_neg zero, if_neg Bool.false_ne_true, rounds]

/-- With a sign, what rounds to a finite number other than zero is read as the opposite one. -/
theorem withSign_true {rounded value : Rat} {held : Representable value} (nonzero : value ≠ 0)
    (rounds : ofRat rounded = .finite value held) :
    withSign true rounded = .ok (.finite (-value) ((representable_neg_iff value).mpr held)) := by
  unfold withSign
  have present : rounded ≠ 0 := by
    rintro rfl
    rw [ofRat_of_representable representable_zero] at rounds
    injection rounds with zero
    exact nonzero zero.symm
  rw [if_neg present, if_pos rfl, ofRat_neg nonzero rounds]

/-- The characters of a finite number are those of its magnitude with its sign, and they are read
as the number. -/
theorem characters_finite_spec (value : Rat) (held : Representable value) :
    ∃ negative body, (finite value held).characters = signed negative body ∧ Plain body ∧
      Numeral.read (signed negative body) = .ok (.finite value held) := by
  by_cases below : value < 0
  · have opposite := (representable_neg_iff value).mpr held
    obtain ⟨plain, rounded, found, rounds⟩ :=
      magnitudeCharacters_spec opposite (neg_nonneg.mpr below.le)
    have read := read_signed plain found true
    rw [withSign_true (neg_ne_zero.mpr below.ne) rounds] at read
    refine ⟨true, _, by rw [characters, if_pos below]; rfl, plain, ?_⟩
    simpa only [neg_neg] using read
  · obtain ⟨plain, rounded, found, rounds⟩ := magnitudeCharacters_spec held (not_lt.mp below)
    have read := read_signed plain found false
    rw [withSign_false rounds] at read
    exact ⟨false, _, by rw [characters, if_neg below]; rfl, plain, read⟩

/-- Every number is read back from its characters. -/
theorem read_characters (number : Number) : Numeral.read number.characters = .ok number := by
  cases number with
  | notANumber => decide
  | infinite negative => cases negative <;> decide
  | negativeZero => exact read_signed (plain_digits 0) (decimal?_digits 0) true
  | finite value held =>
    obtain ⟨negative, body, shape, _, read⟩ := characters_finite_spec value held
    rw [shape, read]

/-- Every number has characters. -/
theorem characters_ne_nil (number : Number) : number.characters ≠ [] := by
  intro empty
  have read := number.read_characters
  rw [empty] at read
  cases read

/-- The characters of a number are among the visible ones of seven bits, and none is a comma. -/
theorem range_of_mem_characters {number : Number} {character : Char}
    (member : character ∈ number.characters) :
    0x2B ≤ character.toNat ∧ character.toNat ≠ 0x2C ∧ character.toNat < 0x7F := by
  cases number with
  | notANumber =>
    simp only [characters, List.mem_cons, List.not_mem_nil, or_false] at member
    rcases member with rfl | rfl | rfl <;> decide
  | infinite negative =>
    cases negative <;> simp only [characters, List.mem_cons, List.not_mem_nil, or_false] at member
    all_goals rcases member with rfl | rfl | rfl | rfl <;> decide
  | negativeZero =>
    simp only [characters, List.mem_cons, List.not_mem_nil, or_false] at member
    rcases member with rfl | rfl <;> decide
  | finite value held =>
    obtain ⟨negative, body, shape, plain, _⟩ := characters_finite_spec value held
    have own : character = '-' ∨ character ∈ body := by
      rw [shape] at member
      cases negative with
      | false => exact .inr member
      | true => exact List.mem_cons.mp member
    rcases own with rfl | inside
    · decide
    · have range := plain.range character inside
      omega

end Number

end Aquarium
