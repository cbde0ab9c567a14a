import Aquarium.Machine.Snapshot
import Aquarium.Number.Series
import Aquarium.Proofs.Numerals
import Aquarium.Proofs.Pictures
import Aquarium.Proofs.Writers

/-!
# Decoding snapshots

A snapshot tells the active stack and the picture of the code box. `Snapshot.Sections` says how the
three sections of a snapshot make up its text, and `Sections.unique` that they can be told apart:
the separators are controls, and a control stands neither in the text of a number nor in a picture.
`Series.read_numbersText` says that numbers with spaces between them are read back.
-/

namespace Aquarium

/-- The bytes of pieces of text are those of their characters. -/
theorem Utf8.flatMap_ofString (pieces : List String) :
    pieces.flatMap ofString = encodeAll (pieces.flatMap String.toList) := by
  rw [encodeAll, List.flatMap_assoc]
  rfl

/-! ## Numbers one after another -/

namespace Snapshot

/-- The characters of a list of numbers. -/
def numberCharacters (numbers : List Number) : List Char :=
  (Snapshot.numbers numbers).flatMap String.toList

/-- The text of a list of numbers. -/
def numbersText (numbers : List Number) : Bytes :=
  (Snapshot.numbers numbers).flatMap Utf8.ofString

theorem numbersText_eq (numbers : List Number) :
    numbersText numbers = Utf8.encodeAll (numberCharacters numbers) :=
  Utf8.flatMap_ofString _

theorem numberCharacters_singleton (number : Number) :
    numberCharacters [number] = number.characters := by
  simp [numberCharacters, Snapshot.numbers, Number.text]

/-- A space stands between a number and the next. -/
theorem numberCharacters_cons (number next : Number) (later : List Number) :
    numberCharacters (number :: next :: later) =
      number.characters ++ ' ' :: numberCharacters (next :: later) := by
  simp [numberCharacters, Snapshot.numbers, Number.text]

theorem isPrintable_of_mem_characters {number : Number} {character : Char}
    (member : character ∈ number.characters) : Printable.isPrintable character.toNat := by
  have range := Number.range_of_mem_characters member
  rw [Printable.isPrintable, if_pos (by omega), Bool.and_eq_true, decide_eq_true_eq,
    decide_eq_true_eq]
  omega

/-- Numbers are written with printable characters. -/
theorem isPrintable_of_mem_numberCharacters {numbers : List Number} {character : Char}
    (member : character ∈ numberCharacters numbers) : Printable.isPrintable character.toNat := by
  induction numbers with
  | nil => cases member
  | cons number later hypothesis =>
    cases later with
    | nil =>
      rw [numberCharacters_singleton] at member
      exact isPrintable_of_mem_characters member
    | cons next later =>
      rw [numberCharacters_cons] at member
      rcases List.mem_append.mp member with own | rest
      · exact isPrintable_of_mem_characters own
      · rcases List.mem_cons.mp rest with rfl | other
        · rfl
        · exact hypothesis other

/-- No control stands in the text of numbers. -/
theorem not_mem_numbersText (numbers : List Number) {byte : UInt8} (control : byte.toNat < 0x20) :
    byte ∉ numbersText numbers := by
  rw [numbersText_eq]
  exact Source.not_mem_encodeAll control fun character => isPrintable_of_mem_numberCharacters

/-! ## Sections -/

/-- The sections of a text: it opens with a control, another one stands between the sections, and
neither stands in a section. -/
structure Sections (text stack register picture : Bytes) : Prop where
  shape : text = 0x1C :: stack ++ 0x1D :: (register ++ 0x1D :: picture)
  plain : ∀ part ∈ [stack, register, picture], 0x1C ∉ part ∧ 0x1D ∉ part

/-- The sections are what stands between the dividers. -/
theorem Sections.splitOnP {text stack register picture : Bytes}
    (sections : Sections text stack register picture) :
    text.splitOnP (· == 0x1D) = [0x1C :: stack, register, picture] := by
  have other : ∀ part ∈ [stack, register, picture], ∀ byte ∈ part, (byte == 0x1D) = false := by
    intro part listed byte member
    exact beq_eq_false_iff_ne.mpr fun same => (sections.plain part listed).2 (same ▸ member)
  have opened : ∀ byte ∈ 0x1C :: stack, (byte == 0x1D) = false := by
    intro byte member
    rcases List.mem_cons.mp member with rfl | inside
    · rfl
    · exact other stack (by simp) byte inside
  rw [sections.shape, List.splitOnP_append_cons_of_forall_mem opened _ rfl,
    List.splitOnP_append_cons_of_forall_mem (other register (by simp)) _ rfl,
    List.splitOnP_eq_singleton (other picture (by simp))]

/-- A text has its sections in one way only. -/
theorem Sections.unique {text stack register picture stack' register' picture' : Bytes}
    (here : Sections text stack register picture)
    (there : Sections text stack' register' picture') :
    stack = stack' ∧ register = register' ∧ picture = picture' := by
  have same := here.splitOnP.symm.trans there.splitOnP
  simpa using same

end Snapshot

/-! ## Reading numbers -/

namespace Series

/-- White space lies before and after the characters of numbers. -/
theorem blank_ranges_apart : ∀ blank ∈ Blank.ranges, blank.2 < 0x2B ∨ 0x7F ≤ blank.1 := by
  decide

/-- A character of a number separates nothing. -/
theorem isSeparator_of_mem_characters {number : Number} {character : Char}
    (member : character ∈ number.characters) : isSeparator (.character character) = false := by
  have range := Number.range_of_mem_characters member
  have comma : character ≠ ',' := by
    rintro rfl
    exact range.2.1 rfl
  have visible : Blank.isBlank character = false := by
    refine List.any_eq_false.mpr fun blank member => ?_
    have apart := blank_ranges_apart blank member
    rw [Bool.and_eq_true, decide_eq_true_eq, decide_eq_true_eq]
    omega
  simp [isSeparator, Glyph.toChar, comma, visible]

theorem readField_characters (number : Number) :
    readField (number.characters.map .character) = .ok number := by
  have shown : (number.characters.map .character).map Glyph.toChar = number.characters := by
    rw [List.map_map]
    exact List.map_id _
  rw [readField, shown, number.read_characters]

/-- The pieces of numbers are the numbers. -/
theorem fields_numbersText (numbers : List Number) :
    fields (Snapshot.numbersText numbers) =
      numbers.map fun number => number.characters.map .character := by
  rw [fields, Snapshot.numbersText_eq, Glyph.read_encodeAll]
  induction numbers with
  | nil => rfl
  | cons number later hypothesis =>
    have whole : ∀ glyph ∈ number.characters.map Glyph.character, isSeparator glyph = false := by
      intro glyph member
      obtain ⟨character, inside, rfl⟩ := List.mem_map.mp member
      exact isSeparator_of_mem_characters inside
    have present : (number.characters.map Glyph.character).isEmpty = false := by
      simp [number.characters_ne_nil]
    cases later with
    | nil =>
      rw [Snapshot.numberCharacters_singleton, List.splitOnP_eq_singleton whole]
      simp [present]
    | cons next later =>
      rw [Snapshot.numberCharacters_cons, List.map_append, List.map_cons,
        List.splitOnP_append_cons_of_forall_mem whole _ (by decide),
        List.filter_cons_of_pos (by simp [present]), hypothesis]
      rfl

/-- Numbers with spaces between them are read back. -/
theorem read_numbersText (numbers : List Number) :
    read (Snapshot.numbersText numbers) = .ok numbers := by
  have each : (readField ∘ fun number : Number => number.characters.map Glyph.character) =
      fun number => pure (id number) := funext readField_characters
  rw [read, fields_numbersText, List.mapM_map, each, List.mapM_pure, List.map_id]
  rfl

/-- Different numbers have different texts. -/
theorem numbersText_injective : Function.Injective Snapshot.numbersText := by
  intro numbers others same
  have read := read_numbersText numbers
  rw [same, read_numbersText] at read
  exact (Except.ok.inj read).symm

end Series

/-! ## Snapshots -/

namespace CodeBox

/-- No control but the line feed stands in a picture. -/
theorem not_mem_pictureText (box : CodeBox) {byte : UInt8} (control : byte.toNat < 0x20)
    (other : byte ≠ 0x0A) : byte ∉ box.pictureText := by
  rw [pictureText_eq]
  intro member
  obtain ⟨row, shown, inside⟩ := List.mem_flatMap.mp member
  obtain ⟨cells, _, rfl⟩ := List.mem_map.mp shown
  rcases List.mem_append.mp inside with visible | feed
  · exact Source.not_mem_encodeAll control (fun _ => isPrintable_of_mem_glanceRow) visible
  · exact other (List.mem_singleton.mp feed)

/-- A picture has one line per row, each with its end. -/
theorem exists_lines_pictureText (box : CodeBox) :
    ∃ lines : List Bytes, lines.length = box.height ∧ (∀ line ∈ lines, 0x0A ∉ line) ∧
      box.pictureText = lines.flatMap (· ++ [0x0A]) := by
  refine ⟨box.glanceRows.map Utf8.encodeAll, ?_, ?_, ?_⟩
  · rw [List.length_map, length_glanceRows]
  · intro line member
    obtain ⟨row, shown, rfl⟩ := List.mem_map.mp member
    obtain ⟨cells, _, rfl⟩ := List.mem_map.mp shown
    exact Source.not_mem_encodeAll (by decide) fun _ => isPrintable_of_mem_glanceRow
  · rw [pictureText_eq, Source.spelling, List.flatMap_map]

end CodeBox

namespace Machine

/-- The text of a snapshot. -/
def snapshotText (machine : Machine) : Bytes :=
  machine.snapshot.flatMap Utf8.ofString

/-- A register is written as a list of at most one number. -/
theorem numbers_register (register : Option Number) :
    Snapshot.numbers register.toList = register.toList.map Number.text := by
  cases register <;> rfl

/-- The sections of a snapshot are the numbers of the active stack, that of its register, and the
picture. -/
theorem sections_snapshotText (machine : Machine) :
    Snapshot.Sections machine.snapshotText (Snapshot.numbersText machine.tower.active.toList)
      (Snapshot.numbersText machine.tower.active.register.toList) machine.box.pictureText where
  shape := by
    have opening : Utf8.ofString Snapshot.opening = [0x1C] := by decide
    have divider : Utf8.ofString Snapshot.divider = [0x1D] := by decide
    simp [snapshotText, snapshot, Snapshot.numbersText, numbers_register, CodeBox.pictureText,
      opening, divider]
  plain := by
    intro part listed
    simp only [List.mem_cons, List.not_mem_nil, or_false] at listed
    rcases listed with rfl | rfl | rfl
    · exact ⟨Snapshot.not_mem_numbersText _ (by decide), Snapshot.not_mem_numbersText _ (by decide)⟩
    · exact ⟨Snapshot.not_mem_numbersText _ (by decide), Snapshot.not_mem_numbersText _ (by decide)⟩
    · exact ⟨machine.box.not_mem_pictureText (by decide) (by decide),
        machine.box.not_mem_pictureText (by decide) (by decide)⟩

/-- Snapshots of the same text are taken of the same active stack and show the same picture. -/
theorem active_eq_of_snapshotText_eq {machine other : Machine}
    (same : other.snapshotText = machine.snapshotText) :
    other.tower.active = machine.tower.active ∧
      other.box.pictureText = machine.box.pictureText := by
  obtain ⟨numbers, registers, pictures⟩ :=
    other.sections_snapshotText.unique (same ▸ machine.sections_snapshotText)
  have values : other.tower.active.values = machine.tower.active.values :=
    List.reverse_injective (Series.numbersText_injective numbers)
  have register : other.tower.active.register = machine.tower.active.register := by
    simpa using congrArg List.head? (Series.numbersText_injective registers)
  refine ⟨?_, pictures⟩
  rw [Stack.mk.injEq]
  exact ⟨values, register⟩

/-- A snapshot can be decoded, and in one way only. It falls into three sections, in none of which a
separator stands. The first is read as the numbers of the active stack, the bottom one first. The
second is empty if the register is, and is otherwise read as the number in it. The third is the
picture of the code box, a line for each row. So a snapshot tells the active stack with its
register, and what the box looks like. -/
theorem snapshot_decodes_unambiguously (machine : Machine) :
    ∃ stack register : Bytes,
      Snapshot.Sections machine.snapshotText stack register machine.box.pictureText ∧
      Series.read stack = .ok machine.tower.active.toList ∧
      (register = [] ↔ machine.tower.active.register = none) ∧
      (∀ number, machine.tower.active.register = some number →
        Series.read register = .ok [number]) ∧
      (∃ lines : List Bytes, lines.length = machine.box.height ∧ (∀ line ∈ lines, 0x0A ∉ line) ∧
        machine.box.pictureText = lines.flatMap (· ++ [0x0A])) ∧
      ∀ other : Machine, other.snapshotText = machine.snapshotText →
        other.tower.active = machine.tower.active ∧
          other.box.pictureText = machine.box.pictureText := by
  refine ⟨_, _, machine.sections_snapshotText, Series.read_numbersText _, ?unset, ?set,
    machine.box.exists_lines_pictureText, fun other => active_eq_of_snapshotText_eq⟩
  case unset =>
    rw [← Option.toList_eq_nil_iff]
    exact Series.numbersText_injective.eq_iff' rfl
  case set =>
    intro number present
    rw [present]
    exact Series.read_numbersText [number]

/-- Two machines that differ in a cell, one of them with the code of a separator there, and in the
stacks beneath the active one. -/
theorem snapshots_alike_of_unseen_cells :
    ∃ here there : Machine,
      here = { start ((CodeBox.blank 1 2).set ⟨0, 0⟩ 0x1C) (.ofDraws [0]) with
        tower := ⟨⟨[Number.div 1 8, .infinite true], some .notANumber⟩, []⟩ } ∧
      there = { start ((CodeBox.blank 1 2).set ⟨0, 0⟩ (Number.div 1 2)) (.ofDraws [0]) with
        tower := ⟨⟨[Number.div 1 8, .infinite true], some .notANumber⟩, [.empty]⟩ } ∧
      here.snapshotText = Utf8.ofString "\x1c-Inf 0.125\x1dNaN\x1d\uFFFD\n" ∧
      there.snapshotText = here.snapshotText ∧
      here.box.get ⟨0, 0⟩ ≠ there.box.get ⟨0, 0⟩ ∧
      there.tower.active = here.tower.active ∧
      there.box.pictureText = here.box.pictureText := by
  refine ⟨_, _, rfl, rfl, ?_⟩
  generalize known : { start ((CodeBox.blank 1 2).set ⟨0, 0⟩ 0x1C) (.ofDraws [0]) with
    tower := ⟨⟨[Number.div 1 8, .infinite true], some .notANumber⟩, []⟩ } = here
  generalize knownToo : { start ((CodeBox.blank 1 2).set ⟨0, 0⟩ (Number.div 1 2)) (.ofDraws [0]) with
    tower := ⟨⟨[Number.div 1 8, .infinite true], some .notANumber⟩, [.empty]⟩ } = there
  obtain ⟨text, same, different⟩ :
      here.snapshotText = Utf8.ofString "\x1c-Inf 0.125\x1dNaN\x1d\uFFFD\n" ∧
        there.snapshotText = here.snapshotText ∧
        here.box.get ⟨0, 0⟩ ≠ there.box.get ⟨0, 0⟩ := by
    subst known knownToo
    decide +kernel
  obtain ⟨_, _, _, _, _, _, _, unambiguous⟩ := snapshot_decodes_unambiguously here
  exact ⟨text, same, different, unambiguous there same⟩

end Machine

end Aquarium
