import Aquarium.CodeBox.Source
import Aquarium.Proofs.Decoding

/-!
# Source texts and their boxes

`Source.Spells` says without the splitter how lines make up a text, and `lines_of_spells` that the
splitter finds them. `get_ofRows` says what stands in each cell of the box that is made of rows of
characters, and `width_le_iff` how wide it is.
-/

namespace Aquarium

namespace Source

/-! ## Lines -/

/-- Lines make up a text: none of them holds a line feed, each is ended by one, and only a last line
that is not empty may go without. -/
inductive Spells : List Bytes → Bytes → Prop where
  | nothing : Spells [] []
  | unended {line : Bytes} (plain : 0x0A ∉ line) (present : line ≠ []) : Spells [line] line
  | ended {line : Bytes} {lines : List Bytes} {text : Bytes} (plain : 0x0A ∉ line)
      (later : Spells lines text) : Spells (line :: lines) (line ++ 0x0A :: text)

/-- A byte that is no line feed goes to the first line. -/
theorem Spells.cons {lines : List Bytes} {text : Bytes} (spells : Spells lines text) {byte : UInt8}
    (other : byte ≠ 0x0A) : ∃ longer, Spells longer (byte :: text) := by
  have joins : ∀ {line : Bytes}, 0x0A ∉ line → 0x0A ∉ byte :: line := by
    intro line plain member
    rcases List.mem_cons.mp member with same | inside
    · exact other same.symm
    · exact plain inside
  cases spells with
  | nothing => exact ⟨_, .unended (joins List.not_mem_nil) (List.cons_ne_nil _ _)⟩
  | unended plain present => exact ⟨_, .unended (joins plain) (List.cons_ne_nil _ _)⟩
  | @ended line later rest plain spells =>
    exact ⟨(byte :: line) :: later, .ended (joins plain) spells⟩

/-- Every text is made up of lines. -/
theorem exists_spells (text : Bytes) : ∃ lines, Spells lines text := by
  induction text with
  | nil => exact ⟨[], .nothing⟩
  | cons byte rest hypothesis =>
    obtain ⟨lines, spells⟩ := hypothesis
    by_cases feed : byte = 0x0A
    · subst feed
      exact ⟨[] :: lines, .ended List.not_mem_nil spells⟩
    · exact spells.cons feed

/-- The splitter finds the lines that make up a text. -/
theorem lines_of_spells {lines : List Bytes} {text : Bytes} (spells : Spells lines text) :
    Source.lines text = lines.map withoutReturn := by
  unfold Source.lines
  dsimp only
  congr 1
  have others : ∀ {line : Bytes}, 0x0A ∉ line → ∀ byte ∈ line, (byte == 0x0A) = false := by
    intro line plain byte member
    exact beq_eq_false_iff_ne.mpr fun same => plain (same ▸ member)
  induction spells with
  | nothing => rfl
  | unended plain present =>
    rw [List.splitOnP_eq_singleton (others plain)]
    simp [present]
  | @ended line lines text plain later hypothesis =>
    rw [List.splitOnP_append_cons_of_forall_mem (others plain) 0x0A rfl]
    have pieces := List.splitOnP_ne_nil (· == (0x0A : UInt8)) text
    generalize text.splitOnP (· == 0x0A) = found at hypothesis pieces
    rw [List.getLast?_cons_of_ne_nil pieces, List.dropLast_cons_of_ne_nil pieces, ← hypothesis]
    split <;> rfl

/-! ## Widths -/

/-- The longest row is within a bound exactly when all rows are. -/
theorem width_le_iff {rows : List (List Char)} {bound : Nat} :
    width rows ≤ bound ↔ ∀ row ∈ rows, row.length ≤ bound := by
  have fold : ∀ longest, rows.foldl (fun longest row => max longest row.length) longest ≤ bound ↔
      longest ≤ bound ∧ ∀ row ∈ rows, row.length ≤ bound := by
    induction rows with
    | nil => simp
    | cons row rest hypothesis =>
      intro longest
      rw [List.foldl_cons, hypothesis, Nat.max_le, List.forall_mem_cons, and_assoc]
  rw [width, fold]
  simp

/-- Without a character there is no width. -/
theorem width_eq_zero_iff {rows : List (List Char)} : width rows = 0 ↔ ∀ row ∈ rows, row = [] := by
  simpa only [Nat.le_zero, List.length_eq_zero_iff] using @width_le_iff rows 0

/-- No row is longer than the longest. -/
theorem length_le_width {rows : List (List Char)} {row : List Char} (member : row ∈ rows) :
    row.length ≤ width rows :=
  width_le_iff.mp (Nat.le_refl _) row member

end Source

/-! ## Cells -/

namespace Number

/-- A code is a number, exactly. -/
theorem ofInt_eq_finite {code : Nat} (small : code < 0x110000) :
    ∃ held, ofInt code = .finite (code : Int) held := by
  have bits : Nat.pow 2 Binary64.precision = 9007199254740992 := by decide
  exact ⟨_, ofInt_of_natAbs_lt code (by omega)⟩

/-- The code of a character is that integer again. -/
theorem toInt_ofChar (character : Char) : (ofChar character).toInt = character.toNat := by
  have scalar := Utf8.scalar character
  obtain ⟨held, exactly⟩ := @ofInt_eq_finite character.toNat (by omega)
  have whole : truncateRat ((character.toNat : Int) : Rat) = character.toNat := by
    simp [truncateRat]
  have least : leastWord = -9223372036854775808 := by decide
  rw [ofChar, exactly]
  simp only [toInt, whole]
  rw [if_pos (by omega)]

end Number

namespace CodeBox

/-- The number in a cell of the rectangle of rows: that of the character there, and that of an empty
cell beyond the end of a row. -/
theorem get_ofRows (rows : List (List Char)) {row column : Nat} (tall : row < rows.length)
    (wide : column < Source.width rows) :
    (ofRows rows).get ⟨row, column⟩ =
      Source.cell (rows[row]?.bind fun cells => cells[column]?) := by
  have inside : (ofRows rows).Contains ⟨row, column⟩ :=
    ⟨⟨Int.natCast_nonneg _, Int.ofNat_lt.mpr tall⟩, Int.natCast_nonneg _, Int.ofNat_lt.mpr wide⟩
  have quotient : (row * Source.width rows + column) / Source.width rows = row := by
    rw [Nat.mul_comm, Nat.mul_add_div (by omega), Nat.div_eq_of_lt wide, Nat.add_zero]
  have rest : (row * Source.width rows + column) % Source.width rows = column := by
    rw [Nat.mul_comm, Nat.mul_add_mod, Nat.mod_eq_of_lt wide]
  have held : (ofRows rows).get ⟨row, column⟩ =
      Source.cell ((rows.map List.toArray).toArray[(row * Source.width rows + column) /
        Source.width rows]?.bind
          fun cells => cells[(row * Source.width rows + column) % Source.width rows]?) := by
    unfold get
    rw [dif_pos inside]
    exact Vector.getElem_ofFn _
  rw [held, quotient, rest, List.getElem?_toArray, List.getElem?_map]
  cases rows[row]? <;> simp

/-- A text that is read to its end gives the box of its rows, unless no row holds a character. -/
theorem ofSource_eq_ok_iff {text : Bytes} {box : CodeBox} :
    ofSource text none = .ok box ↔
      (∃ row ∈ Source.rows text, row ≠ []) ∧ box = ofRows (Source.rows text) := by
  have cellless : ((ofRows (Source.rows text)).height = 0 ∨
      (ofRows (Source.rows text)).width = 0) ↔ ∀ row ∈ Source.rows text, row = [] := by
    have rowless : (ofRows (Source.rows text)).height = 0 →
        ∀ row ∈ Source.rows text, row = [] := by
      intro none row member
      rw [List.length_eq_zero_iff.mp none] at member
      cases member
    exact (or_congr_right Source.width_eq_zero_iff).trans (or_iff_right_of_imp rowless)
  have filled : (∃ row ∈ Source.rows text, row ≠ []) ↔ ¬ ∀ row ∈ Source.rows text, row = [] := by
    simp
  unfold ofSource ofSource?
  dsimp only
  rw [filled, ← cellless]
  by_cases empty : (ofRows (Source.rows text)).height = 0 ∨ (ofRows (Source.rows text)).width = 0
  · simp [empty]
  · rw [if_neg empty]
    constructor
    · intro made
      cases made
      exact ⟨empty, rfl⟩
    · rintro ⟨-, rfl⟩
      rfl

end CodeBox

end Aquarium
