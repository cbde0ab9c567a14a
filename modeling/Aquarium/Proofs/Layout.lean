import Aquarium.Proofs.SourceText
import Aquarium.Proofs.Store
import Mathlib.Data.List.Forall2

/-!
# How a source text lays out its box

`Utf8.Decodes` says without the reader what characters a text holds, and `Source.Shows` what row a
line shows. The box of a text is made of these rows at once; `ofRows_eq_setAll` says that it is the
blank box of their size with their characters written into it one after another. So the width, which
is found by counting, and the places, which are found by going along the rows, agree: nothing is
written beyond the edges.
-/

namespace Aquarium

/-! ## Characters -/

namespace Utf8

/-- How bytes are decoded. A character whose bytes come next is taken with all of them. Where no
character begins, a single byte is taken, and the replacement character stands for it. -/
inductive Decodes : Bytes → List Char → Prop where
  | nothing : Decodes [] []
  | character {value : Char} {rest : Bytes} {decoded : List Char} (later : Decodes rest decoded) :
      Decodes (encode value ++ rest) (value :: decoded)
  | stray {byte : UInt8} {rest : Bytes} {decoded : List Char}
      (none : ∀ value, ¬ encode value <+: byte :: rest) (later : Decodes rest decoded) :
      Decodes (byte :: rest) (Glyph.replacement :: decoded)

/-- The first glyph is a character exactly if the bytes of that character come first. -/
theorem first_eq_character_iff {byte : UInt8} {rest : Bytes} {value : Char} :
    Glyph.first byte rest = .character value ↔ encode value <+: byte :: rest := by
  constructor
  · intro found
    have spelled := Glyph.bytes_first byte rest
    rw [found] at spelled
    exact ⟨_, spelled⟩
  · rintro ⟨more, spelled⟩
    obtain ⟨lead, tails, same, found⟩ := Glyph.first_encode value more
    rw [same, List.cons_append, List.cons.injEq] at spelled
    obtain ⟨rfl, rfl⟩ := spelled
    exact found

/-- A glyph that is no character is the byte that it was read from. -/
theorem first_eq_stray {byte : UInt8} {rest : Bytes}
    (none : ∀ value, ¬ encode value <+: byte :: rest) : Glyph.first byte rest = .stray byte := by
  rcases Glyph.first_cases byte rest with ⟨_, found⟩ | ⟨_, _, _, _, found⟩ | ⟨_, found⟩
  · exact absurd (first_eq_character_iff.mp found) (none _)
  · exact absurd (first_eq_character_iff.mp found) (none _)
  · exact found

/-- Every text is decoded as the characters that are read from it. -/
theorem decodes_characters (text : Bytes) : Decodes text (characters text) := by
  generalize bound : text.length = size
  induction size using Nat.strongRecOn generalizing text with
  | ind size hypothesis =>
    cases text with
    | nil => exact .nothing
    | cons byte rest =>
      rw [List.length_cons] at bound
      have later : ∀ skipped, Decodes (rest.drop skipped) (characters (rest.drop skipped)) := by
        intro skipped
        refine hypothesis _ ?_ _ rfl
        rw [List.length_drop]
        omega
      have spelled := Glyph.bytes_first byte rest
      rw [characters, Glyph.read_cons, List.map_cons, ← characters]
      cases found : Glyph.first byte rest with
      | character value =>
        rw [found] at spelled
        rw [← spelled]
        exact .character (later _)
      | stray other =>
        rw [found] at spelled
        obtain rfl : other = byte := (List.cons.inj spelled).1
        refine .stray (fun value begins => ?_) (later 0)
        rw [first_eq_character_iff.mpr begins] at found
        cases found

/-- There is one way to decode a text. -/
theorem decodes_iff {text : Bytes} {decoded : List Char} :
    Decodes text decoded ↔ characters text = decoded := by
  constructor
  · intro decodes
    induction decodes with
    | nothing => rfl
    | @character value rest decoded _ hypothesis =>
      rw [characters, Glyph.read_encode, List.map_cons, ← characters, hypothesis]
      rfl
    | @stray byte rest decoded none _ hypothesis =>
      rw [characters, Glyph.read_cons, first_eq_stray none, List.map_cons, ← characters]
      exact congrArg (Glyph.replacement :: ·) hypothesis
  · rintro rfl
    exact decodes_characters text

end Utf8

/-! ## Rows -/

namespace Source

/-- What row a line shows. One carriage return at its end does not count. -/
inductive Shows : Bytes → List Char → Prop where
  | returned {line : Bytes} {row : List Char} (decodes : Utf8.Decodes line row) :
      Shows (line ++ [0x0D]) row
  | plain {line : Bytes} {row : List Char} (unreturned : line.getLast? ≠ some 0x0D)
      (decodes : Utf8.Decodes line row) : Shows line row

/-- Every line shows one row. -/
theorem shows_iff {line : Bytes} {row : List Char} :
    Shows line row ↔ Utf8.characters (withoutReturn line) = row := by
  unfold withoutReturn
  constructor
  · intro shows
    cases shows with
    | returned decodes =>
      rw [if_pos List.getLast?_concat, List.dropLast_concat]
      exact Utf8.decodes_iff.mp decodes
    | plain unreturned decodes =>
      rw [if_neg unreturned]
      exact Utf8.decodes_iff.mp decodes
  · intro shown
    split at shown
    · rename_i returned
      obtain ⟨body, rfl⟩ := List.getLast?_eq_some_iff.mp returned
      rw [List.dropLast_concat] at shown
      exact .returned (Utf8.decodes_iff.mpr shown)
    · rename_i unreturned
      exact .plain unreturned (Utf8.decodes_iff.mpr shown)

/-- The rows of a text are those that its lines show. -/
theorem rows_eq_of_spells {lines : List Bytes} {text : Bytes} {shown : List (List Char)}
    (spells : Spells lines text) (shows : List.Forall₂ Shows lines shown) :
    rows text = shown := by
  rw [rows, lines_of_spells spells, List.map_map]
  clear spells
  induction shows with
  | nil => rfl
  | cons first _ hypothesis => exact congrArg₂ List.cons (shows_iff.mp first) hypothesis

/-- Every text has lines, and they show rows. -/
theorem exists_shown (text : Bytes) :
    ∃ lines shown, Spells lines text ∧ List.Forall₂ Shows lines shown := by
  obtain ⟨lines, spells⟩ := exists_spells text
  refine ⟨lines, lines.map (Utf8.characters ∘ withoutReturn), spells, ?_⟩
  rw [List.forall₂_map_right_iff, List.forall₂_same]
  exact fun line _ => shows_iff.mpr rfl

/-- Some row is as long as the longest. -/
theorem exists_length_eq_width {rows : List (List Char)} (present : rows ≠ []) :
    ∃ row ∈ rows, row.length = width rows := by
  refine Classical.byContradiction fun shorter => ?_
  have below : ∀ row ∈ rows, row.length ≤ width rows - 1 := by
    intro row member
    have within := length_le_width member
    have different : row.length ≠ width rows := fun same => shorter ⟨row, member, same⟩
    omega
  have bound := width_le_iff.mpr below
  obtain ⟨first, later, rfl⟩ := List.exists_cons_of_ne_nil present
  refine shorter ⟨first, List.mem_cons_self, ?_⟩
  have within := length_le_width (List.mem_cons_self : first ∈ first :: later)
  omega

/-! ## Writing the rows -/

/-- What is written for a row: all its characters but the spaces, from left to right. -/
def rowWrites (row : Nat) (line : List Char) : List (Position × Number) :=
  line.zipIdx.filterMap fun (character, column) =>
    if character = ' ' then none else some (⟨row, column⟩, .ofChar character)

/-- What is written for rows, from top to bottom. -/
def writes (rows : List (List Char)) : List (Position × Number) :=
  rows.zipIdx.flatMap fun (line, row) => rowWrites row line

/-- The writes are the characters at their places, without the spaces. -/
theorem mem_writes_iff {rows : List (List Char)} {position : Position} {number : Number} :
    (position, number) ∈ writes rows ↔
      ∃ row column : Nat, ∃ character, position = ⟨row, column⟩ ∧
        (rows[row]?.bind fun cells => cells[column]?) = some character ∧ character ≠ ' ' ∧
        number = .ofChar character := by
  simp only [writes, rowWrites, List.mem_flatMap, List.mem_filterMap, Prod.exists,
    List.mem_zipIdx_iff_getElem?, Option.bind_eq_some_iff, Option.ite_none_left_eq_some,
    Option.some.injEq, Prod.mk.injEq]
  constructor
  · rintro ⟨line, row, found, character, column, here, visible, rfl, rfl⟩
    exact ⟨row, column, character, rfl, ⟨line, found, here⟩, visible, rfl⟩
  · rintro ⟨row, column, character, rfl, ⟨line, found, here⟩, visible, rfl⟩
    exact ⟨line, row, found, character, column, here, visible, rfl, rfl⟩

/-- What is written last at a place is the number of the character there, and nothing is where there
is a space or no character. -/
theorem lastWrite?_writes (rows : List (List Char)) (row column : Nat) :
    (lastWrite? (writes rows) ⟨row, column⟩).getD 0 =
      cell (rows[row]?.bind fun cells => cells[column]?) := by
  have written : ∀ number, (⟨row, column⟩, number) ∈ writes rows ↔
      ∃ character, (rows[row]?.bind fun cells => cells[column]?) = some character ∧
        character ≠ ' ' ∧ number = .ofChar character := by
    intro number
    rw [mem_writes_iff]
    constructor
    · rintro ⟨otherRow, otherColumn, character, same, found⟩
      rw [Position.mk.injEq, Int.natCast_inj, Int.natCast_inj] at same
      obtain ⟨rfl, rfl⟩ := same
      exact ⟨character, found⟩
    · rintro ⟨character, found⟩
      exact ⟨row, column, character, rfl, found⟩
  generalize (rows[row]?.bind fun cells => cells[column]?) = here at written ⊢
  cases here with
  | none =>
    rw [lastWrite?_eq_none]
    · rfl
    · rintro ⟨_, number⟩ member rfl
      simpa using (written number).mp member
  | some character =>
    by_cases blank : character = ' '
    · rw [lastWrite?_eq_none]
      · simp [cell, blank]
      · rintro ⟨_, number⟩ member rfl
        simpa [blank] using (written number).mp member
    · rw [lastWrite?_eq_some ((written _).mpr ⟨character, rfl, blank, rfl⟩)]
      · simp [cell, blank]
      · intro number member
        simpa [blank] using (written number).mp member

end Source

/-! ## Boxes -/

namespace CodeBox

/-- The place with a given index. -/
theorem exists_contains_of_lt {box : CodeBox} {index : Nat}
    (bound : index < box.height * box.width) :
    ∃ position, box.Contains position ∧ box.index position = index := by
  have wide : 0 < box.width := Nat.pos_of_lt_mul_left bound
  refine ⟨⟨(index / box.width : Nat), (index % box.width : Nat)⟩, ⟨⟨?_, ?_⟩, ?_, ?_⟩, ?_⟩
  · exact Int.natCast_nonneg _
  · exact Int.ofNat_lt.mpr (Nat.div_lt_of_lt_mul (Nat.mul_comm _ _ ▸ bound))
  · exact Int.natCast_nonneg _
  · exact Int.ofNat_lt.mpr (Nat.mod_lt _ wide)
  · show index / box.width * box.width + index % box.width = index
    rw [Nat.mul_comm]
    exact Nat.div_add_mod _ _

/-- A box is given by its sides, the numbers in its rectangle and its margin. -/
theorem eq_of_get {left right : CodeBox} (height : left.height = right.height)
    (width : left.width = right.width) (margin : left.margin = right.margin)
    (same : ∀ position, left.Contains position → left.get position = right.get position) :
    left = right := by
  obtain ⟨tall, wide, cells, around⟩ := left
  obtain ⟨_, _, others, _⟩ := right
  cases height
  cases width
  cases margin
  congr 1
  ext index bound
  obtain ⟨position, inside, rfl⟩ : ∃ position,
      (⟨tall, wide, cells, around⟩ : CodeBox).Contains position ∧
        (⟨tall, wide, cells, around⟩ : CodeBox).index position = index :=
    exists_contains_of_lt bound
  have equal := same position inside
  rw [get_of_contains inside, get_of_contains (by exact inside)] at equal
  exact equal

/-- Nothing is written beyond the edges: no row is longer than the box is wide. -/
theorem contains_of_mem_writes {rows : List (List Char)} {write : Position × Number}
    (member : write ∈ Source.writes rows) : (ofRows rows).Contains write.1 := by
  obtain ⟨position, number⟩ := write
  obtain ⟨row, column, character, rfl, found, _⟩ := Source.mem_writes_iff.mp member
  obtain ⟨line, present, here⟩ := Option.bind_eq_some_iff.mp found
  obtain ⟨tall, rfl⟩ := List.getElem?_eq_some_iff.mp present
  obtain ⟨reached, _⟩ := List.getElem?_eq_some_iff.mp here
  have wide : column < Source.width rows :=
    Nat.lt_of_lt_of_le reached (Source.length_le_width (List.getElem_mem tall))
  exact ⟨⟨Int.natCast_nonneg _, Int.ofNat_lt.mpr tall⟩, Int.natCast_nonneg _,
    Int.ofNat_lt.mpr wide⟩

/-- A box that has no place written beyond its edges has an empty margin. -/
theorem margin_eq_empty {box : CodeBox} (none : box.outside = []) : box.margin = .empty := by
  rcases same : box.margin with ⟨entries, ordered⟩
  rw [outside, same] at none
  obtain rfl : entries = [] := List.map_eq_nil_iff.mp none
  rfl

/-- The box of rows is the blank box of their size with their characters written into it. -/
theorem ofRows_eq_setAll (rows : List (List Char)) :
    ofRows rows = (blank rows.length (Source.width rows)).setAll (Source.writes rows) := by
  have sides := (blank rows.length (Source.width rows)).sides_setAll (Source.writes rows)
  have contains : ∀ position, (blank rows.length (Source.width rows)).Contains position ↔
      (ofRows rows).Contains position := fun _ => Iff.rfl
  refine eq_of_get sides.1.symm sides.2.symm ?_ ?_
  · refine (margin_eq_empty (List.eq_nil_iff_forall_not_mem.mpr fun position member => ?_)).symm
    rcases (mem_outside_setAll _ _ _).mp member with ⟨beyond, number, written⟩ | before
    · exact beyond ((contains _).mpr (contains_of_mem_writes written))
    · cases before
  · rintro ⟨row, column⟩ ⟨⟨aboveRow, tall⟩, aboveColumn, wide⟩
    obtain ⟨row, rfl⟩ := Int.eq_ofNat_of_zero_le aboveRow
    obtain ⟨column, rfl⟩ := Int.eq_ofNat_of_zero_le aboveColumn
    rw [get_setAll, get_blank, Source.lastWrite?_writes]
    exact get_ofRows rows (Int.ofNat_lt.mp tall) (Int.ofNat_lt.mp wide)

/-- What rows of characters say about their box. -/
structure LaidOut (rows : List (List Char)) (box : CodeBox) : Prop where
  height : box.height = rows.length
  fits : ∀ row ∈ rows, row.length ≤ box.width
  widest : ∃ row ∈ rows, row.length = box.width
  empty : ∀ (row column : Nat) characters, rows[row]? = some characters → column < box.width →
    characters[column]? = none ∨ characters[column]? = some ' ' → box.get ⟨row, column⟩ = .ofInt 0
  filled : ∀ (row column : Nat) characters character, rows[row]? = some characters →
    characters[column]? = some character → character ≠ ' ' →
    box.get ⟨row, column⟩ = .ofInt character.toNat
  outside : box.outside = []
  written : box = (blank rows.length box.width).setAll (Source.writes rows)
  contained : ∀ write ∈ Source.writes rows, box.Contains write.1

theorem laidOut_ofRows {rows : List (List Char)} (present : rows ≠ []) :
    LaidOut rows (ofRows rows) where
  height := rfl
  fits := fun _ member => Source.length_le_width member
  widest := Source.exists_length_eq_width present
  empty := by
    intro row column line found wide nothing
    obtain ⟨tall, _⟩ := List.getElem?_eq_some_iff.mp found
    rw [get_ofRows rows tall wide, found, Option.bind_some]
    rcases nothing with none | space
    · rw [none]
      rfl
    · rw [space]
      rfl
  filled := by
    intro row column line character found here visible
    obtain ⟨tall, rfl⟩ := List.getElem?_eq_some_iff.mp found
    obtain ⟨reached, _⟩ := List.getElem?_eq_some_iff.mp here
    have wide := Nat.lt_of_lt_of_le reached (Source.length_le_width (List.getElem_mem tall))
    rw [get_ofRows rows tall wide, found, Option.bind_some, here]
    exact if_neg visible
  outside := rfl
  written := ofRows_eq_setAll rows
  contained := fun _ => contains_of_mem_writes

/-- A text that is read to its end gives no box exactly if no row holds a character. -/
theorem ofSource_eq_noProgram_iff {text : Bytes} :
    ofSource text none = .error .noProgram ↔ ∀ row ∈ Source.rows text, row = [] := by
  have filled := @ofSource_eq_ok_iff text
  constructor
  · intro failed row member
    refine Decidable.byContradiction fun nonempty => ?_
    rw [filled.mpr ⟨⟨row, member, nonempty⟩, rfl⟩] at failed
    cases failed
  · intro empty
    cases made : ofSource? text with
    | none => simp only [ofSource, made]
    | some box =>
      have given : ofSource text none = .ok box := by simp only [ofSource, made]
      obtain ⟨⟨row, member, nonempty⟩, _⟩ := filled.mp given
      exact absurd (empty row member) nonempty

/-! ## Main statement -/

/-- A source that is read to its end gives no box exactly if it has no line or all its lines are
empty, and it is called an empty program then. Otherwise the box has as many rows as the source has
lines, and as many columns as the longest of them has characters. A cell holds the code of the
character at its place, and 0 if there is none or it is a space. Nothing is written beyond the
edges: writing the characters one after another into a blank box gives the same box. Here lines are
what line feeds end, and a last one that is not empty may go without; a carriage return at the end
of a line does not count; and each byte at which no character begins is a replacement character. -/
theorem source_lays_out_box (text : Bytes) :
    (∃ lines rows, Source.Spells lines text ∧ List.Forall₂ Source.Shows lines rows) ∧
    ∀ lines rows, Source.Spells lines text → List.Forall₂ Source.Shows lines rows →
      rows.length = lines.length ∧
      (ofSource text none = .error .noProgram ↔ lines = [] ∨ ∀ row ∈ rows, row = []) ∧
      (∀ name, SourceProblem.noProgram.layers name = [name ++ Utf8.ofString ": empty program"]) ∧
      (ofSource text none ≠ .error .noProgram →
        ∃ box, ofSource text none = .ok box ∧ LaidOut rows box) := by
  refine ⟨Source.exists_shown text, fun lines rows spells shows => ?_⟩
  have found := Source.rows_eq_of_spells spells shows
  have fails : ofSource text none = .error .noProgram ↔ lines = [] ∨ ∀ row ∈ rows, row = [] := by
    rw [ofSource_eq_noProgram_iff, found]
    refine (or_iff_right_of_imp ?_).symm
    rintro rfl row member
    rw [List.forall₂_nil_left_iff.mp shows] at member
    cases member
  refine ⟨shows.length_eq.symm, fails, fun _ => rfl, fun given => ?_⟩
  rw [ne_eq, ofSource_eq_noProgram_iff, found] at given
  have filled : ∃ row ∈ rows, row ≠ [] := by simpa using given
  have present : rows ≠ [] := by
    obtain ⟨row, member, _⟩ := filled
    exact List.ne_nil_of_mem member
  refine ⟨ofRows rows, ?_, laidOut_ofRows present⟩
  rw [ofSource_eq_ok_iff, found]
  exact ⟨filled, rfl⟩

/-- A source of three lines: a carriage return ends the first, the second is empty, and the third
holds a space, a stray byte and a character of two bytes. -/
theorem source_of_three_lines :
    ∃ box, ofSource [0x61, 0x0D, 0x0A, 0x0A, 0x20, 0x80, 0xC3, 0xA9] none = .ok box ∧
      LaidOut [['a'], [], [' ', Glyph.replacement, 'é']] box ∧ box.height = 3 ∧ box.width = 3 ∧
      box.get ⟨2, 1⟩ = .ofInt 0xFFFD := by
  have spells : Source.Spells [[0x61, 0x0D], [], [0x20, 0x80, 0xC3, 0xA9]]
      [0x61, 0x0D, 0x0A, 0x0A, 0x20, 0x80, 0xC3, 0xA9] :=
    .ended (by decide) (.ended (by decide) (.unended (by decide) (by decide)))
  have shows : List.Forall₂ Source.Shows [[0x61, 0x0D], [], [0x20, 0x80, 0xC3, 0xA9]]
      [['a'], [], [' ', Glyph.replacement, 'é']] := by
    refine .cons ?_ (.cons ?_ (.cons ?_ .nil)) <;> rw [Source.shows_iff] <;> decide +kernel
  obtain ⟨_, fails, _, gives⟩ := (source_lays_out_box _).2 _ _ spells shows
  obtain ⟨box, made, laidOut⟩ := gives (by rw [ne_eq, fails]; simp)
  refine ⟨box, made, laidOut, laidOut.height, ?_, ?_⟩
  · obtain ⟨row, member, reaches⟩ := laidOut.widest
    have longest := laidOut.fits [' ', Glyph.replacement, 'é'] (by simp)
    simp only [List.mem_cons, List.not_mem_nil, or_false] at member
    rcases member with rfl | rfl | rfl <;> simp only [List.length_cons, List.length_nil] at * <;>
      omega
  · exact laidOut.filled 2 1 _ Glyph.replacement rfl rfl (by decide)

end CodeBox

end Aquarium
