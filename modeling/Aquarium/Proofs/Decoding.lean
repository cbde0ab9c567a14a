import Aquarium.Text.Glyph

/-!
# Reading UTF-8

The glyphs of a text spell it out again (`bytes_read`), and the bytes of characters are read as
those characters (`characters_encodeAll`). A byte below 0x80 is never a part of a longer character,
so a text may be cut before it: `read_append` says that both parts are read on their own.
-/

namespace Aquarium

namespace Utf8

/-- The code of the character with a given code. -/
theorem toNat_ofNat {code : Nat} (valid : code.isValidChar) :
    (Char.ofNat code).toNat = code := by
  unfold Char.ofNat
  rw [dif_pos valid]
  rfl

/-- The code of a character is no surrogate and has at most 21 bits. -/
theorem scalar (character : Char) :
    character.toNat < 0xD800 ∨ 0xDFFF < character.toNat ∧ character.toNat < 0x110000 :=
  character.valid

/-! ## The bytes of a character -/

/-- A code of one byte. -/
theorem encode_one {character : Char} (small : character.toNat < 0x80) :
    encode character = [character.toNat.toUInt8] := by
  simp only [encode, small, if_true]

/-- A code of two bytes. -/
theorem encode_two {character : Char} (large : 0x80 ≤ character.toNat)
    (small : character.toNat < 0x800) :
    encode character =
      [(0xC0 + character.toNat / 64).toUInt8, (0x80 + character.toNat % 64).toUInt8] := by
  simp only [encode]
  rw [if_neg (by omega), if_pos small]

/-- A code of three bytes. -/
theorem encode_three {character : Char} (large : 0x800 ≤ character.toNat)
    (small : character.toNat < 0x10000) :
    encode character =
      [(0xE0 + character.toNat / 4096).toUInt8, (0x80 + character.toNat / 64 % 64).toUInt8,
        (0x80 + character.toNat % 64).toUInt8] := by
  simp only [encode]
  rw [if_neg (by omega), if_neg (by omega), if_pos small]

/-- A code of four bytes. -/
theorem encode_four {character : Char} (large : 0x10000 ≤ character.toNat) :
    encode character =
      [(0xF0 + character.toNat / 262144).toUInt8, (0x80 + character.toNat / 4096 % 64).toUInt8,
        (0x80 + character.toNat / 64 % 64).toUInt8, (0x80 + character.toNat % 64).toUInt8] := by
  simp only [encode]
  rw [if_neg (by omega), if_neg (by omega), if_neg (by omega)]

/-- A byte is given by its value. -/
theorem toUInt8_eq (byte : UInt8) {value : Nat} (same : value = byte.toNat) :
    value.toUInt8 = byte := by
  rw [same]
  simp

/-- The value of a byte that is given by its value. -/
theorem toNat_toUInt8 {value : Nat} (small : value < 256) : value.toUInt8.toNat = value := by
  simp [Nat.mod_eq_of_lt small]

/-- A byte below 0x80 is the one byte of its character. -/
theorem encode_ofNat {byte : UInt8} (small : byte.toNat < 0x80) :
    encode (Char.ofNat byte.toNat) = [byte] := by
  have value : (Char.ofNat byte.toNat).toNat = byte.toNat := toNat_ofNat (.inl (by omega))
  rw [encode_one (by omega), value, toUInt8_eq byte rfl]

/-! ## What a first byte promises -/

/-- The promises that a first byte can make, by the number of bytes that follow. -/
inductive Promises (byte : UInt8) : Lead → Prop where
  | two (lower : 0xC2 ≤ byte.toNat) (upper : byte.toNat < 0xE0) : Promises byte ⟨1, 0x80, 0xBF⟩
  | three (lower : 0xE0 ≤ byte.toNat) (upper : byte.toNat < 0xF0) :
      Promises byte ⟨2, if byte.toNat = 0xE0 then 0xA0 else 0x80,
        if byte.toNat = 0xED then 0x9F else 0xBF⟩
  | four (lower : 0xF0 ≤ byte.toNat) (upper : byte.toNat ≤ 0xF4) :
      Promises byte ⟨3, if byte.toNat = 0xF0 then 0x90 else 0x80,
        if byte.toNat = 0xF4 then 0x8F else 0xBF⟩

/-- The promises and the function agree. -/
theorem lead?_eq_some_iff {byte : UInt8} {lead : Lead} :
    lead? byte = some lead ↔ Promises byte lead := by
  unfold lead?
  dsimp only
  constructor
  · intro promised
    by_cases short : byte.toNat < 0xC2
    · rw [if_pos short] at promised
      cases promised
    rw [if_neg short] at promised
    by_cases two : byte.toNat < 0xE0
    · rw [if_pos two] at promised
      cases promised
      exact .two (by omega) two
    rw [if_neg two] at promised
    by_cases three : byte.toNat < 0xF0
    · have promise := Promises.three (by omega) three
      grind
    · by_cases four : byte.toNat ≤ 0xF4
      · have promise := Promises.four (by omega) four
        grind
      · grind
  · intro promises
    cases promises with
    | two lower upper => rw [if_neg (by omega), if_pos upper]
    | three lower upper => grind
    | four lower upper => grind

/-- A second byte that keeps a promise is within its bounds. -/
theorem second_of_admits {lead : Lead} {second : UInt8} {others : Bytes}
    (kept : lead.admits (second :: others) = true) :
    lead.least ≤ second.toNat ∧ second.toNat ≤ lead.most := by
  simp only [Lead.admits, Bool.and_eq_true, decide_eq_true_eq] at kept
  exact kept.1

/-- Bytes that keep a promise are tails. -/
theorem tail_of_admits {byte : UInt8} {lead : Lead} {tails : Bytes} (promises : Promises byte lead)
    (kept : lead.admits tails = true) {tail : UInt8} (member : tail ∈ tails) :
    0x80 ≤ tail.toNat ∧ tail.toNat ≤ 0xBF := by
  cases tails with
  | nil => cases member
  | cons second others =>
    rcases List.mem_cons.mp member with rfl | later
    · have bounds := second_of_admits kept
      cases promises <;> dsimp only at bounds <;> grind
    · simp only [Lead.admits, Bool.and_eq_true, List.all_eq_true] at kept
      simpa [isTail] using kept.2 tail later

/-- Two bytes of the right form are those of the character that they tell. -/
theorem encode_codeOf_two {byte second : UInt8} (lower : 0xC2 ≤ byte.toNat)
    (upper : byte.toNat < 0xE0) (tail : 0x80 ≤ second.toNat ∧ second.toNat ≤ 0xBF) :
    encode (Char.ofNat (codeOf byte [second])) = [byte, second] := by
  have code : codeOf byte [second] = byte.toNat % 32 * 64 + second.toNat % 64 := rfl
  have value : (Char.ofNat (codeOf byte [second])).toNat = codeOf byte [second] :=
    toNat_ofNat (.inl (by omega))
  rw [encode_two (by omega) (by omega), value]
  congr 1
  · exact toUInt8_eq byte (by omega)
  · rw [toUInt8_eq second (by omega)]

/-- Three bytes of the right form are those of the character that they tell. -/
theorem encode_codeOf_three {byte second third : UInt8} (lower : 0xE0 ≤ byte.toNat)
    (upper : byte.toNat < 0xF0) (tail : 0x80 ≤ second.toNat ∧ second.toNat ≤ 0xBF)
    (last : 0x80 ≤ third.toNat ∧ third.toNat ≤ 0xBF)
    (shortest : byte.toNat = 0xE0 → 0xA0 ≤ second.toNat)
    (scalar : byte.toNat = 0xED → second.toNat ≤ 0x9F) :
    encode (Char.ofNat (codeOf byte [second, third])) = [byte, second, third] := by
  have code : codeOf byte [second, third] =
      (byte.toNat % 16 * 64 + second.toNat % 64) * 64 + third.toNat % 64 := rfl
  have valid : (codeOf byte [second, third]).isValidChar := by
    unfold Nat.isValidChar
    omega
  have value := toNat_ofNat valid
  rw [encode_three (by omega) (by omega), value]
  congr 1
  · exact toUInt8_eq byte (by omega)
  · rw [toUInt8_eq second (by omega), toUInt8_eq third (by omega)]

/-- Four bytes of the right form are those of the character that they tell. -/
theorem encode_codeOf_four {byte second third fourth : UInt8} (lower : 0xF0 ≤ byte.toNat)
    (upper : byte.toNat ≤ 0xF4) (tail : 0x80 ≤ second.toNat ∧ second.toNat ≤ 0xBF)
    (next : 0x80 ≤ third.toNat ∧ third.toNat ≤ 0xBF)
    (last : 0x80 ≤ fourth.toNat ∧ fourth.toNat ≤ 0xBF)
    (shortest : byte.toNat = 0xF0 → 0x90 ≤ second.toNat)
    (scalar : byte.toNat = 0xF4 → second.toNat ≤ 0x8F) :
    encode (Char.ofNat (codeOf byte [second, third, fourth])) = [byte, second, third, fourth] := by
  have code : codeOf byte [second, third, fourth] =
      ((byte.toNat % 8 * 64 + second.toNat % 64) * 64 + third.toNat % 64) * 64 +
        fourth.toNat % 64 := rfl
  have valid : (codeOf byte [second, third, fourth]).isValidChar := by
    unfold Nat.isValidChar
    omega
  have value := toNat_ofNat valid
  rw [encode_four (by omega), value]
  congr 1
  · exact toUInt8_eq byte (by omega)
  · rw [toUInt8_eq second (by omega), toUInt8_eq third (by omega),
      toUInt8_eq fourth (by omega)]

/-- Bytes that keep a promise are those of the character that they tell. -/
theorem encode_codeOf {byte : UInt8} {lead : Lead} {tails : Bytes} (promises : Promises byte lead)
    (whole : tails.length = lead.owed) (kept : lead.admits tails = true) :
    encode (Char.ofNat (codeOf byte tails)) = byte :: tails := by
  have tail : ∀ tail ∈ tails, 0x80 ≤ tail.toNat ∧ tail.toNat ≤ 0xBF :=
    fun _ member => tail_of_admits promises kept member
  cases owed : lead.owed with
  | zero => cases promises <;> cases owed
  | succ more =>
    obtain ⟨second, others, rfl⟩ := List.exists_cons_of_length_eq_add_one (whole.trans owed)
    have bounds := second_of_admits kept
    have second := tail second List.mem_cons_self
    cases promises with
    | two lower upper =>
      obtain rfl : others = [] := List.length_eq_zero_iff.mp (Nat.succ.inj whole)
      exact encode_codeOf_two lower upper second
    | three lower upper =>
      obtain ⟨third, rfl⟩ := List.length_eq_one_iff.mp (Nat.succ.inj whole)
      refine encode_codeOf_three lower upper second (tail third (by simp)) ?_ ?_
      · intro value
        simpa [value] using bounds.1
      · intro value
        simpa [value] using bounds.2
    | four lower upper =>
      obtain ⟨third, later, rfl⟩ := List.exists_cons_of_length_eq_add_one (Nat.succ.inj whole)
      obtain ⟨fourth, rfl⟩ := List.length_eq_one_iff.mp (Nat.succ.inj (Nat.succ.inj whole))
      refine encode_codeOf_four lower upper second (tail third (by simp)) (tail fourth (by simp))
        ?_ ?_
      · intro value
        simpa [value] using bounds.1
      · intro value
        simpa [value] using bounds.2

end Utf8

namespace Glyph

open Utf8

/-! ## The first glyph -/

/-- What the glyph at the front of a text can be: a character of one byte, a longer character whose
bytes keep the promise of the first one, or a stray byte. -/
theorem first_cases (byte : UInt8) (rest : Bytes) :
    byte.toNat < 0x80 ∧ first byte rest = .character (Char.ofNat byte.toNat) ∨
      (∃ lead, Promises byte lead ∧ (rest.take lead.owed).length = lead.owed ∧
        lead.admits (rest.take lead.owed) = true ∧
        first byte rest = .character (Char.ofNat (codeOf byte (rest.take lead.owed)))) ∨
      0x80 ≤ byte.toNat ∧ first byte rest = .stray byte := by
  unfold first
  by_cases small : byte.toNat < 0x80
  · exact .inl ⟨small, if_pos small⟩
  · rw [if_neg small]
    cases promised : lead? byte with
    | none => exact .inr (.inr ⟨by omega, rfl⟩)
    | some lead =>
      dsimp only
      split
      · rename_i kept
        rw [Bool.and_eq_true, decide_eq_true_eq] at kept
        exact .inr (.inl ⟨lead, lead?_eq_some_iff.mp promised, kept.1, kept.2, rfl⟩)
      · exact .inr (.inr ⟨by omega, rfl⟩)

/-- The bytes of the first glyph are the front of the text. -/
theorem bytes_first (byte : UInt8) (rest : Bytes) :
    (first byte rest).bytes ++ rest.drop ((first byte rest).size - 1) = byte :: rest := by
  rcases first_cases byte rest with
    ⟨small, found⟩ | ⟨lead, promises, whole, kept, found⟩ | ⟨_, found⟩
  · simp [found, size, bytes, encode_ofNat small]
  · have spelled := encode_codeOf promises whole kept
    simp [found, size, bytes, spelled, whole]
  · simp [found, size, bytes]

/-- The first glyph takes no more bytes than there are. -/
theorem size_first_le (byte : UInt8) (rest : Bytes) :
    (first byte rest).size - 1 ≤ rest.length := by
  have spelled := congrArg List.length (bytes_first byte rest)
  have positive := (first byte rest).size_pos
  simp only [List.length_append, List.length_drop, List.length_cons] at spelled
  unfold size at *
  omega

/-- The first glyph does not depend on what follows a byte below 0x80: such a byte keeps no
promise. -/
theorem first_append (byte : UInt8) (rest later : Bytes) {next : UInt8}
    (small : next.toNat < 0x80) : first byte (rest ++ next :: later) = first byte rest := by
  unfold first
  split
  · rfl
  · cases promised : lead? byte with
    | none => rfl
    | some lead =>
      dsimp only
      by_cases enough : lead.owed ≤ rest.length
      · rw [List.take_append_of_le_length enough]
      · -- The promise is broken either way: bytes are missing, or the small one is among them.
        have missing : ¬ (rest.take lead.owed).length = lead.owed := by
          rw [List.length_take]
          omega
        have broken : lead.admits ((rest ++ next :: later).take lead.owed) = false := by
          rw [← Bool.not_eq_true]
          intro kept
          have member : next ∈ (rest ++ next :: later).take lead.owed := by
            rw [List.take_append, List.mem_append]
            right
            rw [List.take_cons (by omega)]
            exact List.mem_cons_self
          have tail := tail_of_admits (lead?_eq_some_iff.mp promised) kept member
          omega
        simp only [broken, missing, decide_false, Bool.and_false, Bool.false_and]
        rfl

/-- Bytes that keep a promise are read as the character that they tell, whatever follows. -/
theorem first_of_promises {byte : UInt8} {lead : Lead} {tails : Bytes}
    (promises : Promises byte lead) (whole : tails.length = lead.owed)
    (kept : lead.admits tails = true) (rest : Bytes) :
    first byte (tails ++ rest) = .character (Char.ofNat (codeOf byte tails)) := by
  have large : ¬ byte.toNat < 0x80 := by
    cases promises <;> omega
  have front : (tails ++ rest).take lead.owed = tails := List.take_left' whole
  unfold first
  rw [if_neg large, lead?_eq_some_iff.mpr promises]
  simp [front, whole, kept]

/-- Two bytes made from a code are read as its character. -/
theorem first_two {byte second : UInt8} {code : Nat} (lower : 0x80 ≤ code) (upper : code < 0x800)
    (lead : byte.toNat = 0xC0 + code / 64) (last : second.toNat = 0x80 + code % 64)
    (rest : Bytes) : first byte (second :: rest) = .character (Char.ofNat code) := by
  have told : codeOf byte [second] = code := by
    show byte.toNat % 32 * 64 + second.toNat % 64 = code
    omega
  have kept : Lead.admits ⟨1, 0x80, 0xBF⟩ [second] = true := by
    simp only [Lead.admits, List.all_nil, Bool.and_true, Bool.and_eq_true, decide_eq_true_eq]
    omega
  rw [← told]
  exact first_of_promises (.two (by omega) (by omega)) rfl kept rest

/-- Three bytes made from a code are read as its character. -/
theorem first_three {byte second third : UInt8} {code : Nat} (lower : 0x800 ≤ code)
    (upper : code < 0x10000) (scalar : code.isValidChar)
    (lead : byte.toNat = 0xE0 + code / 4096) (next : second.toNat = 0x80 + code / 64 % 64)
    (last : third.toNat = 0x80 + code % 64) (rest : Bytes) :
    first byte (second :: third :: rest) = .character (Char.ofNat code) := by
  have told : codeOf byte [second, third] = code := by
    show (byte.toNat % 16 * 64 + second.toNat % 64) * 64 + third.toNat % 64 = code
    omega
  have promises : Promises byte _ := .three (by omega) (by omega)
  have kept : Lead.admits ⟨2, if byte.toNat = 0xE0 then 0xA0 else 0x80,
      if byte.toNat = 0xED then 0x9F else 0xBF⟩ [second, third] = true := by
    unfold Nat.isValidChar at scalar
    simp only [Lead.admits, isTail, List.all_cons, List.all_nil, Bool.and_true, Bool.and_eq_true,
      decide_eq_true_eq]
    refine ⟨⟨?_, ?_⟩, by omega, by omega⟩ <;> split <;> omega
  rw [← told]
  exact first_of_promises promises rfl kept rest

/-- Four bytes made from a code are read as its character. -/
theorem first_four {byte second third fourth : UInt8} {code : Nat} (lower : 0x10000 ≤ code)
    (upper : code < 0x110000) (lead : byte.toNat = 0xF0 + code / 262144)
    (next : second.toNat = 0x80 + code / 4096 % 64) (later : third.toNat = 0x80 + code / 64 % 64)
    (last : fourth.toNat = 0x80 + code % 64) (rest : Bytes) :
    first byte (second :: third :: fourth :: rest) = .character (Char.ofNat code) := by
  have told : codeOf byte [second, third, fourth] = code := by
    show ((byte.toNat % 8 * 64 + second.toNat % 64) * 64 + third.toNat % 64) * 64 +
      fourth.toNat % 64 = code
    omega
  have promises : Promises byte _ := .four (by omega) (by omega)
  have kept : Lead.admits ⟨3, if byte.toNat = 0xF0 then 0x90 else 0x80,
      if byte.toNat = 0xF4 then 0x8F else 0xBF⟩ [second, third, fourth] = true := by
    simp only [Lead.admits, isTail, List.all_cons, List.all_nil, Bool.and_true, Bool.and_eq_true,
      decide_eq_true_eq]
    refine ⟨⟨?_, ?_⟩, ⟨by omega, by omega⟩, by omega, by omega⟩ <;> split <;> omega
  rw [← told]
  exact first_of_promises promises rfl kept rest

/-- The first glyph of the bytes of a character is that character. -/
theorem first_encode (character : Char) (rest : Bytes) :
    ∃ byte tails, encode character = byte :: tails ∧
      first byte (tails ++ rest) = .character character := by
  have scalar := scalar character
  have found : ∀ glyph, glyph = Glyph.character (Char.ofNat character.toNat) →
      glyph = .character character := by
    intro glyph
    rw [Char.ofNat_toNat]
    exact id
  rcases Nat.lt_or_ge character.toNat 0x80 with one | aboveOne
  · refine ⟨_, _, encode_one one, found _ ?_⟩
    have value : character.toNat.toUInt8.toNat = character.toNat := toNat_toUInt8 (by omega)
    unfold first
    rw [if_pos (by omega), value]
  rcases Nat.lt_or_ge character.toNat 0x800 with two | aboveTwo
  · refine ⟨_, _, encode_two aboveOne two, found _ ?_⟩
    exact first_two aboveOne two (toNat_toUInt8 (by omega)) (toNat_toUInt8 (by omega)) rest
  rcases Nat.lt_or_ge character.toNat 0x10000 with three | aboveThree
  · refine ⟨_, _, encode_three aboveTwo three, found _ ?_⟩
    exact first_three aboveTwo three scalar (toNat_toUInt8 (by omega)) (toNat_toUInt8 (by omega))
      (toNat_toUInt8 (by omega)) rest
  · refine ⟨_, _, encode_four aboveThree, found _ ?_⟩
    exact first_four aboveThree (by omega) (toNat_toUInt8 (by omega)) (toNat_toUInt8 (by omega))
      (toNat_toUInt8 (by omega)) (toNat_toUInt8 (by omega)) rest

/-! ## All glyphs -/

/-- Bytes that have been read already are passed over. -/
theorem readSkipping_eq (skipped : Nat) (text : Bytes) :
    readSkipping skipped text = read (text.drop skipped) := by
  induction text generalizing skipped with
  | nil => cases skipped <;> rfl
  | cons byte rest hypothesis =>
    cases skipped with
    | zero => rfl
    | succ skipped => exact hypothesis skipped

/-- The glyphs of a text are the first one and those of the bytes after it. -/
theorem read_cons (byte : UInt8) (rest : Bytes) :
    read (byte :: rest) = first byte rest :: read (rest.drop ((first byte rest).size - 1)) := by
  rw [← readSkipping_eq]
  rfl

/-- The glyphs of a text spell it out again. -/
theorem bytes_read (text : Bytes) : (read text).flatMap bytes = text := by
  generalize bound : text.length = size
  induction size using Nat.strongRecOn generalizing text with
  | ind size hypothesis =>
    cases text with
    | nil => rfl
    | cons byte rest =>
      rw [List.length_cons] at bound
      have shorter : (rest.drop ((first byte rest).size - 1)).length < size := by
        rw [List.length_drop]
        omega
      rw [read_cons, List.flatMap_cons, hypothesis _ shorter _ rfl, bytes_first]

/-- A text may be cut before a byte below 0x80. -/
theorem read_append (text later : Bytes) {next : UInt8} (small : next.toNat < 0x80) :
    read (text ++ next :: later) = read text ++ read (next :: later) := by
  generalize bound : text.length = size
  induction size using Nat.strongRecOn generalizing text with
  | ind size hypothesis =>
    cases text with
    | nil => rfl
    | cons byte rest =>
      rw [List.length_cons] at bound
      have shorter : (rest.drop ((first byte rest).size - 1)).length < size := by
        rw [List.length_drop]
        omega
      rw [List.cons_append, read_cons, read_cons, first_append byte rest later small,
        List.drop_append_of_le_length (size_first_le byte rest), hypothesis _ shorter _ rfl,
        List.cons_append]

/-- The bytes of a character are read as that character. -/
theorem read_encode (character : Char) (rest : Bytes) :
    read (encode character ++ rest) = .character character :: read rest := by
  obtain ⟨byte, tails, spelled, found⟩ := first_encode character rest
  have length : (Glyph.character character).size - 1 = tails.length := by
    simp [size, bytes, spelled]
  rw [spelled, List.cons_append, read_cons, found, length, List.drop_left]

end Glyph

namespace Utf8

/-- The bytes of characters are read as those characters. -/
theorem characters_encodeAll (text : List Char) : characters (encodeAll text) = text := by
  induction text with
  | nil => rfl
  | cons character rest hypothesis =>
    unfold characters at hypothesis ⊢
    rw [encodeAll, List.flatMap_cons, Glyph.read_encode, List.map_cons]
    exact congrArg (character :: ·) hypothesis

/-- A text may be cut before a byte below 0x80. -/
theorem characters_append (text later : Bytes) {next : UInt8} (small : next.toNat < 0x80) :
    characters (text ++ next :: later) = characters text ++ characters (next :: later) := by
  unfold characters
  rw [Glyph.read_append text later small, List.map_append]

/-- A byte below 0x80 is a character of its own. -/
theorem characters_cons {byte : UInt8} (small : byte.toNat < 0x80) (rest : Bytes) :
    characters (byte :: rest) = Char.ofNat byte.toNat :: characters rest := by
  have read := Glyph.read_encode (Char.ofNat byte.toNat) rest
  rw [encode_ofNat small, List.singleton_append] at read
  unfold characters
  rw [read]
  rfl

/-- A byte below 0x80 is a character of its own, wherever it stands. -/
theorem mem_characters_of_mem {text : Bytes} {byte : UInt8} (member : byte ∈ text)
    (small : byte.toNat < 0x80) : Char.ofNat byte.toNat ∈ characters text := by
  obtain ⟨before, after, rfl⟩ := List.append_of_mem member
  rw [characters_append before after small, characters_cons small]
  exact List.mem_append_right _ List.mem_cons_self

/-- A text has no more characters than bytes. -/
theorem length_characters_le (text : Bytes) : (characters text).length ≤ text.length := by
  have positive : ∀ glyphs : List Glyph, glyphs.length ≤ (glyphs.flatMap Glyph.bytes).length := by
    intro glyphs
    induction glyphs with
    | nil => exact Nat.le_refl 0
    | cons glyph rest hypothesis =>
      have size : 0 < glyph.bytes.length := glyph.size_pos
      rw [List.flatMap_cons, List.length_append, List.length_cons]
      omega
  have spelled := positive (Glyph.read text)
  rw [Glyph.bytes_read] at spelled
  rwa [characters, List.length_map]

/-- A character below 0x80 stands in a text only as its own byte. -/
theorem mem_of_mem_characters {text : Bytes} {character : Char}
    (member : character ∈ characters text) (small : character.toNat < 0x80) :
    character.toNat.toUInt8 ∈ text := by
  obtain ⟨glyph, found, shown⟩ := List.mem_map.mp member
  cases glyph with
  | stray byte =>
    have large : 0x80 ≤ Glyph.replacement.toNat := by decide
    rw [← shown] at small
    exact absurd small (Nat.not_lt.mpr large)
  | character value =>
    obtain rfl : value = character := shown
    rw [← Glyph.bytes_read text, List.mem_flatMap]
    refine ⟨_, found, ?_⟩
    rw [Glyph.bytes, encode_one small]
    exact List.mem_singleton.mpr rfl

end Utf8

end Aquarium
