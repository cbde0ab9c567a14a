import Aquarium.CodeBox.Listing
import Aquarium.Proofs.Decoding
import Aquarium.Proofs.SourceText
import Mathlib.Data.List.DropRight
import Mathlib.Tactic.IntervalCases

/-!
# Pictures as sources

A picture is source text, and reading it gives the box back as far as it can be seen. Every
character of a picture is printable, so its lines are found again as they were written
(`rows_pictureText`), and the blanks that a row loses at its end stand for empty cells
(`cell_rdropWhile`).
-/

namespace Aquarium

/-! ## Printable characters -/

namespace Printable

/-- No printable code is a control. -/
theorem le_of_isPrintable {code : Nat} (printable : isPrintable code) : 0x20 ≤ code := by
  unfold isPrintable at printable
  split at printable
  · simp only [Bool.and_eq_true, decide_eq_true_eq] at printable
    exact printable.1
  · omega

/-- The ranges leave the surrogates out and end before the last code. -/
theorem ranges_scalar : ∀ range ∈ ranges,
    range.2 < 0xD800 ∨ 0xDFFF < range.1 ∧ range.2 < 0x110000 := by
  decide +kernel

/-- A printable code is that of a character. -/
theorem isValidChar_of_isPrintable {code : Nat} (printable : isPrintable code) :
    code.isValidChar := by
  unfold isPrintable at printable
  split at printable
  · exact .inl (by omega)
  · obtain ⟨range, member, bounds⟩ := List.any_eq_true.mp printable
    simp only [Bool.and_eq_true, decide_eq_true_eq] at bounds
    have scalar := ranges_scalar range member
    unfold Nat.isValidChar
    omega

theorem lt_of_isPrintable {code : Nat} (printable : isPrintable code) : code < 0x110000 := by
  have valid := isValidChar_of_isPrintable printable
  unfold Nat.isValidChar at valid
  omega

theorem isPrintable_replacement : isPrintable Glyph.replacement.toNat := by
  decide +kernel

end Printable

namespace Number

/-- How a code is shown. -/
theorem glance_ofInt {code : Nat} (small : code ≤ lastCode) :
    (ofInt code).glance =
      if code = 0 then ' '
      else if Printable.isPrintable code then Char.ofNat code else Glyph.replacement := by
  obtain ⟨held, exactly⟩ := ofInt_eq_finite (Nat.lt_succ_of_le small)
  have zero : (ofInt code).isZero = decide (code = 0) := by
    rw [exactly]
    simp [isZero]
  have found : (ofInt code).code? = some code := by
    rw [exactly]
    simp [code?, isIntegral, toRat, small]
  unfold glance
  rw [zero, found]
  by_cases empty : code = 0 <;> simp [empty]

/-- Only printable characters are shown. -/
theorem isPrintable_glance (number : Number) : Printable.isPrintable number.glance.toNat := by
  unfold glance
  split
  · rfl
  · split
    · rename_i code _
      split
      · rename_i printable
        rwa [Utf8.toNat_ofNat (Printable.isValidChar_of_isPrintable printable)]
      · exact Printable.isPrintable_replacement
    · exact Printable.isPrintable_replacement

/-- But for the negative zero, there is one zero. -/
theorem eq_zero_of_isZero {number : Number} (zero : number.isZero)
    (unsigned : number ≠ .negativeZero) : number = 0 := by
  cases number with
  | notANumber => cases zero
  | infinite negative => cases zero
  | negativeZero => exact absurd rfl unsigned
  | finite value held =>
    obtain rfl : value = 0 := of_decide_eq_true zero
    exact zero_eq_finite.symm

/-- Whether a number is a zero, or a printable code other than that of the space. -/
def IsLegible (number : Number) : Prop :=
  number.isZero ∨
    ∃ code : Nat, Printable.isPrintable code ∧ code ≠ 0x20 ∧ number = ofInt code

end Number

namespace Source

/-- What a picture shows of a character: a space for that of code 0, and the replacement character
for any other that is not printable. -/
def shown (character : Char) : Char :=
  if character.toNat = 0 then ' '
  else if Printable.isPrintable character.toNat then character
  else Glyph.replacement

/-- What a picture shows of a row of characters. -/
def shownRow (row : List Char) : List Char :=
  (row.map shown).rdropWhile (· = ' ')

/-- What a picture shows of a line of source text, with its end. -/
def shownLine (line : Bytes) : Bytes :=
  Utf8.encodeAll (shownRow (Utf8.characters (withoutReturn line))) ++ [0x0A]

/-- A cell shows its character. -/
theorem glance_cell (character : Char) : (cell (some character)).glance = shown character := by
  have small : character.toNat ≤ lastCode := by
    have scalar := Utf8.scalar character
    unfold lastCode
    omega
  simp only [cell]
  by_cases space : character = ' '
  · rw [if_pos space, space]
    decide
  · rw [if_neg space, Number.ofChar, Number.glance_ofInt small, Char.ofNat_toNat, shown]

/-- A printable character is shown as it is. -/
theorem shown_of_isPrintable {character : Char}
    (printable : Printable.isPrintable character.toNat) : shown character = character := by
  have visible := Printable.le_of_isPrintable printable
  rw [shown, if_neg (by omega), if_pos printable]

/-- Blanks at the end of a row make no difference to its cells. -/
theorem cell_rdropWhile (row : List Char) (column : Nat) :
    cell (row.rdropWhile (· = ' '))[column]? = cell row[column]? := by
  induction row using List.reverseRecOn with
  | nil => rfl
  | append_singleton row last hypothesis =>
    rw [List.rdropWhile_concat]
    split
    · rename_i blank
      obtain rfl : last = ' ' := of_decide_eq_true blank
      rw [hypothesis, List.getElem?_append]
      split
      · rfl
      · rename_i beyond
        rw [List.getElem?_eq_none (Nat.not_lt.mp beyond)]
        cases column - row.length <;> rfl
    · rfl

/-- A printable code other than that of the space is seen as it is. -/
theorem cell_glance_ofInt {code : Nat} (printable : Printable.isPrintable code)
    (other : code ≠ 0x20) : cell (some (Number.ofInt code).glance) = .ofInt code := by
  have visible := Printable.le_of_isPrintable printable
  have value := Utf8.toNat_ofNat (Printable.isValidChar_of_isPrintable printable)
  have small : code ≤ lastCode := Nat.le_of_lt_succ (Printable.lt_of_isPrintable printable)
  have spaceless : Char.ofNat code ≠ ' ' := by
    intro space
    rw [space] at value
    exact other value.symm
  rw [Number.glance_ofInt small, if_neg (by omega), if_pos printable, cell, if_neg spaceless,
    Number.ofChar, value]

/-- A legible number is seen as it is, but for the sign of a zero. -/
theorem cell_glance {number : Number} (legible : number.IsLegible)
    (unsigned : number ≠ .negativeZero) : cell (some number.glance) = number := by
  rcases legible with zero | ⟨code, printable, other, rfl⟩
  · rw [Number.glance, if_pos zero]
    exact (Number.eq_zero_of_isZero zero unsigned).symm
  · exact cell_glance_ofInt printable other

/-- A legible number is seen as an equal one. -/
theorem equals_cell_glance {number : Number} (legible : number.IsLegible) :
    (cell (some number.glance)).equals number := by
  by_cases signed : number = .negativeZero
  · rw [signed]
    decide
  · rw [cell_glance legible signed]
    rcases legible with zero | ⟨code, printable, other, rfl⟩
    · rw [Number.eq_zero_of_isZero zero signed]
      decide
    · obtain ⟨held, exactly⟩ := Number.ofInt_eq_finite (Printable.lt_of_isPrintable printable)
      rw [exactly]
      simp [Number.equals, Number.compare?]

/-! ## Rows of characters as source text -/

/-- Rows of characters as source text, each with its end. -/
def spelling (rows : List (List Char)) : Bytes :=
  rows.flatMap fun row => Utf8.encodeAll row ++ [0x0A]

/-- The bytes of printable characters hold no control. -/
theorem not_mem_encodeAll {row : List Char} {byte : UInt8} (control : byte.toNat < 0x20)
    (printable : ∀ character ∈ row, Printable.isPrintable character.toNat) :
    byte ∉ Utf8.encodeAll row := by
  intro member
  have found := Utf8.mem_characters_of_mem member (by omega)
  rw [Utf8.characters_encodeAll] at found
  have visible := Printable.le_of_isPrintable (printable _ found)
  rw [Utf8.toNat_ofNat (.inl (by omega))] at visible
  omega

/-- Rows of printable characters are read as they were written. -/
theorem rows_spelling {written : List (List Char)}
    (printable : ∀ row ∈ written, ∀ character ∈ row, Printable.isPrintable character.toNat) :
    rows (spelling written) = written := by
  -- Neither of the bytes that end a line is in one, so the lines are those that were written.
  have spells : Spells (written.map Utf8.encodeAll) (spelling written) := by
    induction written with
    | nil => exact .nothing
    | cons row later hypothesis =>
      have plain := @not_mem_encodeAll row 0x0A (by decide) (printable row List.mem_cons_self)
      have rest := hypothesis fun other member => printable other (List.mem_cons_of_mem _ member)
      have split : spelling (row :: later) = Utf8.encodeAll row ++ 0x0A :: spelling later := by
        simp [spelling]
      rw [split]
      exact .ended plain rest
  have whole : ∀ row ∈ written, Utf8.characters (withoutReturn (Utf8.encodeAll row)) = row := by
    intro row member
    have returnless : (Utf8.encodeAll row).getLast? ≠ some 0x0D := fun last =>
      @not_mem_encodeAll row 0x0D (by decide) (printable row member) (List.mem_of_getLast? last)
    rw [withoutReturn, if_neg returnless, Utf8.characters_encodeAll]
  rw [rows, lines_of_spells spells, List.map_map, List.map_map]
  exact (List.map_congr_left whole).trans (List.map_id written)

end Source

namespace CodeBox

/-! ## The text of a picture -/

/-- What a picture shows of a row of cells. -/
def glanceRow (cells : List Number) : List Char :=
  (cells.map Number.glance).rdropWhile (· = ' ')

/-- The text of a picture. -/
def pictureText (box : CodeBox) : Bytes :=
  box.picture.flatMap Utf8.ofString

/-- The rows that a picture shows. -/
def glanceRows (box : CodeBox) : List (List Char) :=
  box.rows.map glanceRow

theorem length_glanceRows (box : CodeBox) : box.glanceRows.length = box.height := by
  simp [glanceRows, rows]

/-- A picture spells the rows that it shows. -/
theorem pictureText_eq (box : CodeBox) : box.pictureText = Source.spelling box.glanceRows := by
  have feed : Utf8.ofString "\n" = [0x0A] := by decide
  have piece : ∀ cells, Utf8.ofString (pictureRow cells) = Utf8.encodeAll (glanceRow cells) := by
    intro cells
    rw [Utf8.ofString, pictureRow, String.toList_ofList]
    rfl
  simp [pictureText, picture, Source.spelling, glanceRows, List.flatMap_assoc, List.flatMap_map,
    piece, feed]

/-- A picture shows only printable characters. -/
theorem isPrintable_of_mem_glanceRow {cells : List Number} {character : Char}
    (member : character ∈ glanceRow cells) : Printable.isPrintable character.toNat := by
  obtain ⟨number, _, rfl⟩ := List.mem_map.mp ((List.rdropWhile_prefix _ _).subset member)
  exact number.isPrintable_glance

/-- The rows of a picture are read as they are shown. -/
theorem rows_pictureText (box : CodeBox) : Source.rows box.pictureText = box.glanceRows := by
  rw [pictureText_eq]
  apply Source.rows_spelling
  intro row shown character member
  obtain ⟨cells, _, rfl⟩ := List.mem_map.mp shown
  exact isPrintable_of_mem_glanceRow member

/-- The cells of a row of characters show these, and a blank beyond its end. -/
theorem glance_rowCells_ofRows {rows : List (List Char)} {index : Nat} {row : List Char}
    (here : rows[index]? = some row) :
    ((ofRows rows).rowCells index).map Number.glance =
      row.map Source.shown ++ List.replicate (Source.width rows - row.length) ' ' := by
  obtain ⟨tall, _⟩ := List.getElem?_eq_some_iff.mp here
  have short := Source.length_le_width (List.mem_of_getElem? here)
  have side : (ofRows rows).width = Source.width rows := rfl
  apply List.ext_getElem
  · simp only [rowCells, List.length_map, List.length_range, List.length_append,
      List.length_replicate, side]
    omega
  intro column wide _
  have inside : column < Source.width rows := by
    simpa [rowCells, side] using wide
  have cell : (ofRows rows).get ⟨index, column⟩ = Source.cell row[column]? := by
    rw [get_ofRows rows tall inside, here]
    rfl
  simp only [rowCells, List.getElem_map, List.getElem_range, List.getElem_append, cell,
    List.length_map, List.getElem_replicate]
  split
  · rename_i within
    rw [List.getElem?_eq_getElem within, Source.glance_cell]
  · rename_i beyond
    rw [List.getElem?_eq_none (Nat.not_lt.mp beyond)]
    exact Number.glance_ofInt (Nat.zero_le _)

/-- A picture shows each row of a source as far as its last character that can be seen. -/
theorem glanceRows_ofRows (rows : List (List Char)) :
    (ofRows rows).glanceRows = rows.map Source.shownRow := by
  have blanks : ∀ (row : List Char) (count : Nat),
      (row ++ List.replicate count ' ').rdropWhile (· = ' ') = row.rdropWhile (· = ' ') := by
    intro row count
    induction count with
    | zero => simp
    | succ count hypothesis =>
      rw [List.replicate_succ', ← List.append_assoc, List.rdropWhile_concat_pos _ _ _ rfl,
        hypothesis]
  have shown : ∀ index row, rows[index]? = some row →
      glanceRow ((ofRows rows).rowCells index) = Source.shownRow row := by
    intro index row here
    rw [glanceRow, glance_rowCells_ofRows here, blanks]
    rfl
  apply List.ext_getElem
  · simp [glanceRows, CodeBox.rows, ofRows]
  intro index _ tall
  rw [List.length_map] at tall
  simp only [glanceRows, CodeBox.rows, List.getElem_map, List.getElem_range]
  exact shown index _ (List.getElem?_eq_getElem tall)

/-! ## Boxes that can be seen as a whole -/

/-- A box of which a picture shows everything: a cell holds a zero or a printable code other than
that of the space, and the last column is not empty. -/
structure Legible (box : CodeBox) : Prop where
  cells : ∀ row column : Nat, row < box.height → column < box.width →
    (box.get ⟨row, column⟩).IsLegible
  edge : ∃ row column : Nat, row < box.height ∧ column + 1 = box.width ∧
    (box.get ⟨row, column⟩).isZero = false

/-- What a picture shows of a row of the rectangle. -/
theorem getElem?_glanceRows {box : CodeBox} {row : Nat} (tall : row < box.height) :
    box.glanceRows[row]? = some (glanceRow (box.rowCells row)) := by
  simp [glanceRows, rows, tall]

/-- What is shown of a row gives each of its cells as it is seen. -/
theorem cell_glanceRow (box : CodeBox) (row : Nat) {column : Nat} (wide : column < box.width) :
    Source.cell (glanceRow (box.rowCells row))[column]? =
      Source.cell (some (box.get ⟨row, column⟩).glance) := by
  rw [glanceRow, Source.cell_rdropWhile]
  simp [rowCells, wide]

/-- The rows that a picture shows are as wide as the rectangle, if the last column is not empty. -/
theorem width_glanceRows {box : CodeBox} (legible : box.Legible) :
    Source.width box.glanceRows = box.width := by
  apply Nat.le_antisymm
  · rw [Source.width_le_iff]
    intro shown member
    obtain ⟨cells, held, rfl⟩ := List.mem_map.mp member
    obtain ⟨row, _, rfl⟩ := List.mem_map.mp held
    calc (glanceRow (box.rowCells row)).length
        ≤ ((box.rowCells row).map Number.glance).length :=
          (List.rdropWhile_prefix _ _).length_le
      _ = box.width := by simp [rowCells]
  · obtain ⟨row, column, tall, last, visible⟩ := legible.edge
    have member := List.mem_of_getElem? (getElem?_glanceRows tall)
    have reached : column < (glanceRow (box.rowCells row)).length := by
      -- Beyond the end of what is shown every cell is empty, and this one is not.
      by_contra beyond
      have seen := @cell_glanceRow box row column (by omega)
      have unsigned : box.get ⟨row, column⟩ ≠ .negativeZero := by
        intro signed
        rw [signed] at visible
        cases visible
      rw [Source.cell_glance (legible.cells row column tall (by omega)) unsigned,
        List.getElem?_eq_none (Nat.not_lt.mp beyond)] at seen
      rw [← seen] at visible
      cases visible
    have length := Source.length_le_width member
    omega

/-- Reading what a picture shows gives each cell as it is seen. -/
theorem get_ofRows_glanceRows {box : CodeBox} (legible : box.Legible) {row column : Nat}
    (tall : row < box.height) (wide : column < box.width) :
    (ofRows box.glanceRows).get ⟨row, column⟩ =
      Source.cell (some (box.get ⟨row, column⟩).glance) := by
  rw [get_ofRows _ (length_glanceRows box ▸ tall) (width_glanceRows legible ▸ wide),
    getElem?_glanceRows tall]
  exact box.cell_glanceRow row wide

/-- A box that can be seen as a whole is read from its picture. -/
theorem ofSource_pictureText {box : CodeBox} (legible : box.Legible) :
    ofSource box.pictureText none = .ok (ofRows box.glanceRows) := by
  have filled : ∃ row ∈ box.glanceRows, row ≠ [] := by
    by_contra empty
    have width := Source.width_eq_zero_iff.mpr (by simpa using empty)
    obtain ⟨_, column, _, last, _⟩ := legible.edge
    rw [width_glanceRows legible] at width
    omega
  rw [ofSource_eq_ok_iff, rows_pictureText]
  exact ⟨filled, rfl⟩

/-! ## Pictures of sources -/

/-- The picture of a source shows its lines in order. -/
theorem pictureText_of_spells {lines : List Bytes} {text : Bytes}
    (spells : Source.Spells lines text) :
    (ofRows (Source.rows text)).pictureText = lines.flatMap Source.shownLine := by
  rw [pictureText_eq, glanceRows_ofRows, Source.rows, Source.lines_of_spells spells]
  simp only [Source.spelling, List.flatMap_map]
  rfl

/-- What is shown is shown again as it is. -/
theorem shownRow_glanceRow (cells : List Number) :
    Source.shownRow (glanceRow cells) = glanceRow cells := by
  have same : (glanceRow cells).map Source.shown = glanceRow cells :=
    calc (glanceRow cells).map Source.shown
        = (glanceRow cells).map id := List.map_congr_left fun _ member =>
          Source.shown_of_isPrintable (isPrintable_of_mem_glanceRow member)
      _ = glanceRow cells := List.map_id _
  rw [Source.shownRow, same, glanceRow, List.rdropWhile_idempotent]

/-- A picture that is read again gives the same picture. -/
theorem pictureText_ofRows_glanceRows (box : CodeBox) :
    (ofRows box.glanceRows).pictureText = box.pictureText := by
  rw [pictureText_eq, pictureText_eq, glanceRows_ofRows]
  congr 1
  simp only [glanceRows, List.map_map]
  exact List.map_congr_left fun cells _ => shownRow_glanceRow cells

/-! ## Main statement -/

/-- Writing a picture and reading a source undo each other as far as a picture can tell. A box that
can be seen as a whole is read from its picture with the same sides and equal cells, and the same
ones but for the sign of a zero. The picture of a source shows its lines in order, each without its
carriage return and the blanks at its end, and each character that cannot be seen replaced; and if
it can be read in its turn, its own picture is the same. -/
theorem pictures_and_sources_inverse :
    (∀ box : CodeBox, box.Legible →
      ∃ read, ofSource box.pictureText none = .ok read ∧ read.height = box.height ∧
        read.width = box.width ∧ ∀ position, box.Contains position →
          (read.get position).equals (box.get position) ∧
            (box.get position ≠ .negativeZero → read.get position = box.get position)) ∧
    ∀ text box, ofSource text none = .ok box →
      (∃ lines, Source.Spells lines text ∧ box.pictureText = lines.flatMap Source.shownLine) ∧
      ∀ again, ofSource box.pictureText none = .ok again →
        again.pictureText = box.pictureText := by
  constructor
  · intro box legible
    refine ⟨_, ofSource_pictureText legible, length_glanceRows box, width_glanceRows legible, ?_⟩
    rintro ⟨row, column⟩ ⟨⟨aboveRow, tall⟩, aboveColumn, wide⟩
    lift row to Nat using aboveRow
    lift column to Nat using aboveColumn
    have rowBound : row < box.height := Int.ofNat_lt.mp tall
    have columnBound : column < box.width := Int.ofNat_lt.mp wide
    have cell := legible.cells row column rowBound columnBound
    rw [get_ofRows_glanceRows legible rowBound columnBound]
    exact ⟨Source.equals_cell_glance cell, Source.cell_glance cell⟩
  · intro text box made
    obtain ⟨_, rfl⟩ := ofSource_eq_ok_iff.mp made
    constructor
    · obtain ⟨lines, spells⟩ := Source.exists_spells text
      exact ⟨lines, spells, pictureText_of_spells spells⟩
    · intro again repeated
      obtain ⟨_, rfl⟩ := ofSource_eq_ok_iff.mp repeated
      rw [rows_pictureText]
      exact pictureText_ofRows_glanceRows _

/-- A source with a carriage return before the end of a line, and with a byte 0, a control and a
blank in another: its picture is read again, as a box that can be seen as a whole. -/
theorem picture_of_unseen_characters :
    ∃ box again read,
      ofSource [0x61, 0x0D, 0x0A, 0x00, 0x07, 0x20, 0x0A] none = .ok box ∧
        box.pictureText = [0x61, 0x0A, 0x20, 0xEF, 0xBF, 0xBD, 0x0A] ∧
        ofSource box.pictureText none = .ok again ∧ again.pictureText = box.pictureText ∧
        again.Legible ∧ ofSource again.pictureText none = .ok read ∧
        read.height = 2 ∧ read.width = 2 ∧ read.get ⟨1, 1⟩ = .ofChar Glyph.replacement := by
  have first : ['a'] ∈ Source.rows [0x61, 0x0D, 0x0A, 0x00, 0x07, 0x20, 0x0A] := by
    decide +kernel
  have made := ofSource_eq_ok_iff.mpr ⟨⟨_, first, List.cons_ne_nil _ _⟩, rfl⟩
  have picture : (ofRows (Source.rows [0x61, 0x0D, 0x0A, 0x00, 0x07, 0x20, 0x0A])).pictureText =
      [0x61, 0x0A, 0x20, 0xEF, 0xBF, 0xBD, 0x0A] := by
    decide +kernel
  have shown : Source.rows [0x61, 0x0A, 0x20, 0xEF, 0xBF, 0xBD, 0x0A] =
      [['a'], [' ', Glyph.replacement]] := by
    decide +kernel
  have reread : ofSource [0x61, 0x0A, 0x20, 0xEF, 0xBF, 0xBD, 0x0A] none =
      .ok (ofRows [['a'], [' ', Glyph.replacement]]) := by
    rw [ofSource_eq_ok_iff, shown]
    exact ⟨⟨_, List.mem_cons_self, List.cons_ne_nil _ _⟩, rfl⟩
  have corner : (ofRows [['a'], [' ', Glyph.replacement]]).get ⟨1, 1⟩ =
      .ofChar Glyph.replacement := by
    decide +kernel
  have legible : (ofRows [['a'], [' ', Glyph.replacement]]).Legible := by
    constructor
    · intro row column tall wide
      have rowBound : row < 2 := tall
      have columnBound : column < 2 := wide
      interval_cases row <;> interval_cases column
      · exact .inr ⟨0x61, by decide, by decide, by decide +kernel⟩
      · exact .inl (by decide +kernel)
      · exact .inl (by decide +kernel)
      · exact .inr ⟨0xFFFD, by decide +kernel, by decide, by decide +kernel⟩
    · exact ⟨1, 1, by decide, by decide, by decide +kernel⟩
  rw [← picture] at reread
  obtain ⟨_, same⟩ := pictures_and_sources_inverse.2 _ _ made
  obtain ⟨read, found, height, width, cells⟩ := pictures_and_sources_inverse.1 _ legible
  have seen := (cells ⟨1, 1⟩ (by decide)).2 (by decide +kernel)
  exact ⟨_, _, read, made, picture, reread, same _ reread, legible, found, height, width,
    seen.trans corner⟩

end CodeBox

end Aquarium
