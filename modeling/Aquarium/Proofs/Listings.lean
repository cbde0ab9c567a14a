import Aquarium.Proofs.FaultConditions
import Aquarium.Proofs.Numerals
import Aquarium.Proofs.Pictures
import Aquarium.Proofs.Relaying
import Aquarium.Proofs.Store

/-!
# Listings line by line

A listing has one line for each cell that it lists, and the lines can be told apart and read. No
field has a control character in it (`Unbroken`), whatever the number in the cell, so tabs and line
feeds stand only where the listing puts them. `readPlace?_place` reads the place back from the first
field, and `instructionOf?_eq_some_iff` says which numbers have a name in the third. Which cells are
listed follows from what has been written into the box.
-/

namespace Aquarium

/-! ## Reading a place -/

/-- The words of a text, which is to say what stands between its blanks. -/
def words (text : List Char) : List (List Char) :=
  (text.splitOnP (· = ' ')).filter fun word => !word.isEmpty

/-- The integer that digits spell, after a sign if there is one. -/
def readInteger? (text : List Char) : Option Int :=
  let (negative, digits) := Numeral.splitSign text
  if !digits.isEmpty && digits.all Char.isDigit then
    let size : Int := Numeral.digitsValue 10 digits
    some (if negative then -size else size)
  else none

/-- The place that two integers spell. -/
def readPlace? (text : List Char) : Option Position :=
  match (words text).map readInteger? with
  | [some row, some column] => some ⟨row, column⟩
  | _ => none

theorem words_append_blank (left right : List Char) :
    words (left ++ ' ' :: right) = words left ++ words right := by
  unfold words
  rw [List.splitOnP_append_cons left right (decide_eq_true rfl), List.filter_append]

/-- Blanks in front make no words. -/
theorem words_blanks (count : Nat) (text : List Char) :
    words (List.replicate count ' ' ++ text) = words text := by
  induction count with
  | zero => rfl
  | succ count hypothesis =>
    have front := words_append_blank [] (List.replicate count ' ' ++ text)
    rw [hypothesis] at front
    exact front

theorem words_of_unbroken {text : List Char} (present : text ≠ []) (unbroken : ' ' ∉ text) :
    words text = [text] := by
  have other : ∀ character ∈ text, decide (character = ' ') = false := by
    intro character member
    exact decide_eq_false fun same => unbroken (same ▸ member)
  unfold words
  rw [List.splitOnP_eq_singleton other]
  simp [present]

/-- Digits with their sign are read as the integer that they were written for. -/
theorem readInteger?_signed (value : Int) :
    readInteger? (Numeral.signed (value < 0) (Decimal.digits value.natAbs)) = some value := by
  have plain := Numeral.plain_digits value.natAbs
  have spelled : (!(Decimal.digits value.natAbs).isEmpty &&
      (Decimal.digits value.natAbs).all Char.isDigit) = true := by
    rw [Bool.and_eq_true, List.all_eq_true]
    exact ⟨by simp [Decimal.digits_ne_nil], fun _ => Decimal.isDigit_of_mem_digits⟩
  simp only [readInteger?, Numeral.splitSign_signed plain, if_pos spelled,
    Decimal.digitsValue_digits, decide_eq_true_eq, Option.some.injEq]
  split <;> omega

namespace CodeBox

/-- A coordinate is its digits with their sign, after blanks. -/
theorem exists_toList_coordinate (value : Int) :
    ∃ count, (coordinate value).toList =
      List.replicate count ' ' ++ Numeral.signed (value < 0) (Decimal.digits value.natAbs) := by
  by_cases negative : value < 0
  · refine ⟨4 - ("-" ++ toString value.natAbs).length, ?_⟩
    simp [coordinate, negative, Numeral.signed, Decimal.digits]
  · refine ⟨4 - (" " ++ toString value.natAbs).length + 1, ?_⟩
    simp [coordinate, negative, Numeral.signed, Decimal.digits, List.replicate_succ']

/-- Digits and signs come after the blank in the order of codes. -/
theorem lt_of_mem_signed {value : Int} {character : Char}
    (member : character ∈ Numeral.signed (value < 0) (Decimal.digits value.natAbs)) :
    0x20 < character.toNat := by
  have own : character = '-' ∨ character ∈ Decimal.digits value.natAbs := by
    unfold Numeral.signed at member
    split at member
    · exact List.mem_cons.mp member
    · exact .inr member
  rcases own with rfl | digit
  · decide
  · have range := (Numeral.plain_digits _).range character digit
    omega

theorem words_coordinate (value : Int) :
    words (coordinate value).toList =
      [Numeral.signed (value < 0) (Decimal.digits value.natAbs)] := by
  obtain ⟨count, shape⟩ := exists_toList_coordinate value
  rw [shape, words_blanks]
  refine words_of_unbroken ?_ fun member => absurd (lt_of_mem_signed member) (by decide)
  unfold Numeral.signed
  split <;> simp [Decimal.digits_ne_nil]

/-- The first field of a line. -/
def place (position : Position) : List Char :=
  (coordinate position.row).toList ++ ' ' :: (coordinate position.column).toList

theorem readPlace?_place (position : Position) : readPlace? (place position) = some position := by
  have read : (words (place position)).map readInteger? =
      [some position.row, some position.column] := by
    rw [place, words_append_blank, words_coordinate, words_coordinate]
    simp only [List.singleton_append, List.map_cons, List.map_nil, readInteger?_signed]
  unfold readPlace?
  rw [read]

/-! ## Fields -/

/-- Whether a text has no control character in it, so that no tab or line feed breaks it. -/
def Unbroken (text : List Char) : Prop :=
  ∀ character ∈ text, 0x20 ≤ character.toNat

instance (text : List Char) : Decidable (Unbroken text) :=
  List.decidableBAll (fun character : Char => 0x20 ≤ character.toNat) text

theorem Unbroken.not_mem {text : List Char} (unbroken : Unbroken text) {control : Char}
    (low : control.toNat < 0x20) : control ∉ text := fun member =>
  Nat.not_le_of_lt low (unbroken control member)

theorem Unbroken.append {left right : List Char} (before : Unbroken left)
    (after : Unbroken right) : Unbroken (left ++ right) := by
  intro character member
  rcases List.mem_append.mp member with inside | inside
  · exact before character inside
  · exact after character inside

theorem unbroken_coordinate (value : Int) : Unbroken (coordinate value).toList := by
  obtain ⟨count, shape⟩ := exists_toList_coordinate value
  rw [shape]
  refine Unbroken.append ?_ fun character member => Nat.le_of_lt (lt_of_mem_signed member)
  intro character member
  rw [List.eq_of_mem_replicate member]
  decide

theorem unbroken_place (position : Position) : Unbroken (place position) := by
  refine (unbroken_coordinate _).append ?_
  have blank : Unbroken [' '] := by simp [Unbroken]
  exact blank.append (unbroken_coordinate _)

/-- The name of an instruction has no control character in it, and begins with no question mark. -/
theorem plain_mnemonic (instruction : Instruction) :
    Unbroken instruction.mnemonic.toList ∧
      instruction.mnemonic.toList.head? ≠ some '?' := by
  cases instruction with
  | face heading => cases heading <;> decide
  | reflect mirror => cases mirror <;> decide
  | combine operator => cases operator <;> decide
  | toggle quote => cases quote <;> decide
  | literal digit => revert digit; decide
  | _ => decide

end CodeBox

namespace Number

/-- A number denotes an instruction if its value is an integer that stands for it. -/
def Denotes (number : Number) (instruction : Instruction) : Prop :=
  number.isFinite = true ∧
    ∃ symbol : Int, number.toRat = symbol ∧ Instruction.ofSymbol? symbol = some instruction

theorem code?_eq_some_iff {number : Number} {code : Nat} :
    number.code? = some code ↔
      number.isFinite = true ∧ number.toRat = code ∧ code ≤ lastCode := by
  unfold code?
  simp only [Option.ite_none_right_eq_some, Bool.and_eq_true, decide_eq_true_eq, isIntegral_iff,
    Option.some.injEq]
  constructor
  · rintro ⟨⟨⟨⟨finite, whole⟩, positive⟩, small⟩, rfl⟩
    refine ⟨finite, ?_, by omega⟩
    have value : number.toRat = number.toRat.num := (Rat.coe_int_num_of_den_eq_one whole).symm
    rw [value, Rat.num_intCast, ← Int.toNat_of_nonneg positive]
    rfl
  · rintro ⟨finite, value, small⟩
    rw [value, Rat.den_natCast, Rat.num_natCast]
    exact ⟨⟨⟨⟨finite, rfl⟩, Int.natCast_nonneg code⟩, Int.ofNat_le.mpr small⟩, rfl⟩

end Number

namespace CodeBox

/-- A listing finds the instruction that a number denotes, and no other. -/
theorem instructionOf?_eq_some_iff {number : Number} {instruction : Instruction} :
    instructionOf? number = some instruction ↔ number.Denotes instruction := by
  unfold instructionOf?
  rw [Option.bind_eq_some_iff]
  constructor
  · rintro ⟨code, known, stands⟩
    obtain ⟨finite, value, _⟩ := Number.code?_eq_some_iff.mp known
    exact ⟨finite, code, value, stands⟩
  · rintro ⟨finite, symbol, value, stands⟩
    obtain ⟨positive, small⟩ := Instruction.symbol_bounds stands
    obtain ⟨code, rfl⟩ := Int.eq_ofNat_of_zero_le positive
    have low : code ≤ lastCode := by
      unfold lastCode
      omega
    exact ⟨code, Number.code?_eq_some_iff.mpr ⟨finite, value, low⟩, stands⟩

/-- The third field of a line. -/
def remarkCharacters (number : Number) : List Char :=
  (String.join (remark number)).toList

theorem remark_of_denotes {number : Number} {instruction : Instruction}
    (denotes : number.Denotes instruction) :
    remarkCharacters number = instruction.mnemonic.toList := by
  unfold remarkCharacters remark
  rw [instructionOf?_eq_some_iff.mpr denotes]
  simp

theorem remark_of_not_denotes {number : Number}
    (none : ¬ ∃ instruction, number.Denotes instruction) :
    remarkCharacters number = "??? ".toList ++ number.characters := by
  have unknown : instructionOf? number = .none :=
    Option.eq_none_iff_forall_ne_some.mpr fun instruction found =>
      none ⟨instruction, instructionOf?_eq_some_iff.mp found⟩
  unfold remarkCharacters remark
  rw [unknown]
  simp [Number.text]

/-! ## Lines -/

/-- The line of a cell, without its end. -/
def line (position : Position) (number : Number) : List Char :=
  place position ++ '\t' :: ([number.glance] ++ '\t' :: remarkCharacters number)

/-- What a line tells of a cell, in three fields with a tab after each but the last: the place, how
the number is shown, and the instruction that it denotes, or, if it denotes none, the number. -/
structure Tells (line : List Char) (position : Position) (number : Number) : Prop where
  one : '\n' ∉ line
  fields : ∃ first third, line.splitOnP (· = '\t') = [first, [number.glance], third] ∧
    readPlace? first = some position ∧
    (∀ instruction, number.Denotes instruction → third = instruction.mnemonic.toList) ∧
    ((¬ ∃ instruction, number.Denotes instruction) →
      third = "??? ".toList ++ number.characters) ∧
    ((∃ instruction : Instruction, third = instruction.mnemonic.toList) ↔
      ∃ instruction, number.Denotes instruction)

theorem unbroken_glance (number : Number) : Unbroken [number.glance] := by
  simpa [Unbroken] using Printable.le_of_isPrintable number.isPrintable_glance

theorem unbroken_remark (number : Number) : Unbroken (remarkCharacters number) := by
  by_cases denotes : ∃ instruction, number.Denotes instruction
  · obtain ⟨instruction, denoted⟩ := denotes
    rw [remark_of_denotes denoted]
    exact (plain_mnemonic instruction).1
  · rw [remark_of_not_denotes denotes]
    have marks : Unbroken "??? ".toList := by decide
    refine marks.append fun character member => ?_
    have range := Number.range_of_mem_characters member
    omega

theorem tells_line (position : Position) (number : Number) :
    Tells (line position number) position number where
  one := by
    have low : '\n'.toNat < 0x20 := by decide
    simpa [line, (unbroken_place position).not_mem low, (unbroken_remark number).not_mem low]
      using (unbroken_glance number).not_mem low
  fields := by
    have other : ∀ field, Unbroken field → ∀ character ∈ field,
        decide (character = '\t') = false := by
      intro field unbroken character member
      exact decide_eq_false fun same => unbroken.not_mem (by decide) (same ▸ member)
    refine ⟨place position, remarkCharacters number, ?_, readPlace?_place position,
      fun _ => remark_of_denotes, remark_of_not_denotes, ?_⟩
    · rw [line,
        List.splitOnP_append_cons_of_forall_mem (other _ (unbroken_place position)) _ rfl,
        List.splitOnP_append_cons_of_forall_mem (other _ (unbroken_glance number)) _ rfl,
        List.splitOnP_eq_singleton (other _ (unbroken_remark number))]
    · constructor
      · rintro ⟨instruction, named⟩
        by_contra none
        rw [remark_of_not_denotes none] at named
        exact (plain_mnemonic instruction).2 (congrArg List.head? named).symm
      · rintro ⟨instruction, denotes⟩
        exact ⟨instruction, remark_of_denotes denotes⟩

/-- The pieces for a cell make up its line. -/
theorem flatMap_cellListing (box : CodeBox) (position : Position) :
    (box.cellListing position).flatMap String.toList = line position (box.get position) := by
  have tab : "\t".toList = ['\t'] := rfl
  have blank : " ".toList = [' '] := rfl
  have glance : (box.get position).glance.toString.toList = [(box.get position).glance] := by simp
  simp only [cellListing, List.flatMap_cons, String.toList_append, line, place, remarkCharacters,
    String.toList_join, List.append_assoc, tab, blank, glance, List.cons_append, List.nil_append]

/-- The pieces of a listing make up one line per cell. -/
theorem toList_join_listing (box : CodeBox) :
    (String.join box.listing).toList =
      box.listedPositions.flatMap fun position => line position (box.get position) ++ ['\n'] := by
  rw [String.toList_join, listing, List.flatMap_assoc]
  refine congrArg box.listedPositions.flatMap (funext fun position => ?_)
  rw [List.flatMap_append, flatMap_cellListing]
  rfl

/-! ## Cells -/

/-- The places of the rectangle whose cells are listed. -/
def listedInside (box : CodeBox) : List Position :=
  ((List.range box.height).flatMap fun row : Nat =>
    (List.range box.width).map fun column : Nat => (⟨row, column⟩ : Position)).filter
      fun position => !(box.get position).isZero

theorem mem_listedInside_iff {box : CodeBox} {position : Position} :
    position ∈ box.listedInside ↔
      box.Contains position ∧ (box.get position).isZero = false := by
  rw [listedInside, List.mem_filter, Bool.not_eq_true', List.mem_flatMap]
  refine and_congr_left fun _ => ?_
  simp only [List.mem_map, List.mem_range]
  constructor
  · rintro ⟨row, tall, column, wide, rfl⟩
    exact ⟨⟨Int.natCast_nonneg _, Int.ofNat_lt.mpr tall⟩, Int.natCast_nonneg _,
      Int.ofNat_lt.mpr wide⟩
  · rintro ⟨⟨above, tall⟩, before, wide⟩
    refine ⟨position.row.toNat, by omega, position.column.toNat, by omega, ?_⟩
    rw [Int.toNat_of_nonneg above, Int.toNat_of_nonneg before]

theorem pairwise_listedInside (box : CodeBox) :
    box.listedInside.Pairwise Position.Precedes := by
  refine List.Pairwise.filter _ ?_
  rw [List.pairwise_flatMap]
  constructor
  · intro row _
    rw [List.pairwise_map]
    exact List.pairwise_lt_range.imp fun before => .inr ⟨rfl, Int.ofNat_lt.mpr before⟩
  · refine List.pairwise_lt_range.imp fun before => ?_
    intro left inLeft right inRight
    obtain ⟨_, _, rfl⟩ := List.mem_map.mp inLeft
    obtain ⟨_, _, rfl⟩ := List.mem_map.mp inRight
    exact .inl (Int.ofNat_lt.mpr before)

/-- What a sink that takes every piece has of a listing. -/
def listingText (box : CodeBox) (refusal : String) : List Char :=
  (String.join (box.writeListing (.bare (.fresh none refusal))).sink.pieces).toList

theorem listingText_eq (box : CodeBox) (refusal : String) :
    box.listingText refusal =
      (box.listedInside ++ box.outside).flatMap fun position =>
        line position (box.get position) ++ ['\n'] := by
  have delivered := (cutExactly_of_deliver box.writeListing_eq).unlimited (.fresh none refusal) rfl
  rw [listingText, delivered.1]
  exact box.toList_join_listing

/-- A listing tells every cell once and in order. Of a box into which anything has been written
anywhere, and any number of times, it lists the cells of the rectangle that are not zero, row by
row, and then all places beyond the edges that have been written, by row and column. The text has
one line for each of these cells, with a line feed after it, and nothing else, and each line tells
its cell. -/
theorem listing_tells_every_cell_once (height width : Int) (writes : List (Position × Number))
    (refusal : String) :
    ∃ (inside beyond : List Position) (line : Position → List Char),
      ((blank height width).setAll writes).listingText refusal =
        (inside ++ beyond).flatMap (fun position => line position ++ ['\n']) ∧
      (∀ position ∈ inside ++ beyond,
        Tells (line position) position ((lastWrite? writes position).getD 0)) ∧
      inside.Pairwise Position.Precedes ∧ beyond.Pairwise Position.Precedes ∧
      (∀ position, position ∈ inside ↔
        (blank height width).Contains position ∧
          ((lastWrite? writes position).getD 0).isZero = false) ∧
      ∀ position, position ∈ beyond ↔
        ¬ (blank height width).Contains position ∧ ∃ number, (position, number) ∈ writes := by
  have held : ∀ position, ((blank height width).setAll writes).get position =
      (lastWrite? writes position).getD 0 := (remembers_setAll_blank height width writes).get
  refine ⟨_, _, _, listingText_eq _ refusal, fun position _ => ?tells, pairwise_listedInside _,
    pairwise_outside _, fun position => ?inside, fun position => ?beyond⟩
  case tells =>
    rw [← held]
    exact tells_line position _
  case inside =>
    obtain ⟨tall, wide⟩ := (blank height width).sides_setAll writes
    rw [mem_listedInside_iff, held, Contains, Contains, tall, wide]
  case beyond =>
    have none : position ∉ (blank height width).outside := List.not_mem_nil
    rw [mem_outside_setAll]
    simp [none]

/-- A tab, a number that is not whole, and a zero beyond the edges. -/
example :
    ((blank 1 3).setAll [(⟨0, 0⟩, 9), (⟨0, 2⟩, Number.div 1 2), (⟨-1, 5⟩, 0)]).listingText "" =
      ("   0    0\t\uFFFD\t??? 9\n   0    2\t\uFFFD\t??? 0.5\n  -1    5\t \tnop\n").toList := by
  decide +kernel

end CodeBox

end Aquarium
