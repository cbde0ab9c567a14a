import Aquarium.Machine.Setup
import Aquarium.Number.Series
import Aquarium.Proofs.Decoding
import Aquarium.Proofs.Running
import Aquarium.Proofs.SourceText
import Aquarium.Proofs.Symbols

/-!
# String literals

A program of one line that quotes a text and ends leaves the codes of the text on its stack, as
`Series.ofText` gives them. The source is cut at its quotes without touching the text between them
(`rows_literal`), an empty cell of the box is typed as the space it stands for (`step_typed`), and
`ends_of_typed` is the induction along the line: one column, one turn, one number.
-/

namespace Aquarium

/-- The byte that opens and closes a string mode. -/
def Quote.byte : Quote → UInt8
  | single => 0x27
  | double => 0x22

/-- The source of a program that quotes a text and ends. -/
def Source.literal (quote : Quote) (text : Bytes) : Bytes :=
  quote.byte :: text ++ [quote.byte, 0x3B]

/-- The numbers that an adjustment pushes. -/
def Adjustment.pushed : Adjustment → List Number
  | push numbers => numbers
  | _ => []

/-- Whether an adjustment can be made: a limit is not negative, and a trace has its journal. -/
def Adjustment.isPossible : Adjustment → Bool
  | limit steps => 0 ≤ steps
  | trace wanted => wanted.isSome
  | _ => true

/-! ## The line of a literal -/

namespace Quote

/-- The character that opens and closes a string mode. -/
def character (quote : Quote) : Char :=
  (Instruction.toggle quote).character

theorem toNat_byte (quote : Quote) : quote.byte.toNat = quote.character.toNat := by
  cases quote <;> rfl

theorem byte_lt (quote : Quote) : quote.byte.toNat < 0x80 := by
  cases quote <;> decide

/-- The symbol of a cell that holds the quote. -/
theorem symbol_eq (quote : Quote) : quote.symbol = quote.character.toNat := by
  cases quote <;> rfl

end Quote

namespace Source

/-- The characters of a literal. -/
def literalLine (quote : Quote) (characters : List Char) : List Char :=
  quote.character :: characters ++ [quote.character, ';']

theorem length_literalLine (quote : Quote) (characters : List Char) :
    (literalLine quote characters).length = characters.length + 3 := by
  simp [literalLine]

/-- The line of a literal has no more characters than the literal has bytes. -/
theorem length_literalLine_le (quote : Quote) (text : Bytes) :
    (literalLine quote (Utf8.characters text)).length ≤ (literal quote text).length := by
  have characters := Utf8.length_characters_le text
  simp only [length_literalLine, literal, List.length_append, List.length_cons]
  omega

/-- What the bytes of a text leave out, its characters leave out. -/
theorem plain_of_not_mem {quote : Quote} {text : Bytes} (quoteless : quote.byte ∉ text)
    (zeroless : 0x00 ∉ text) :
    ∀ character ∈ Utf8.characters text, character ≠ quote.character ∧ character.toNat ≠ 0 := by
  intro character member
  constructor
  · rintro rfl
    have byte := Utf8.mem_of_mem_characters member (quote.toNat_byte ▸ quote.byte_lt)
    rw [Utf8.toUInt8_eq quote.byte quote.toNat_byte.symm] at byte
    exact quoteless byte
  · intro zero
    have byte := Utf8.mem_of_mem_characters member (by omega)
    rw [zero] at byte
    exact zeroless byte

/-- A literal is one line, which holds the characters of the text as they are on their own. -/
theorem rows_literal (quote : Quote) {text : Bytes} (plain : 0x0A ∉ text) :
    rows (literal quote text) = [literalLine quote (Utf8.characters text)] := by
  have feedless : 0x0A ∉ literal quote text := by
    have quotes : (0x0A : UInt8) ≠ quote.byte := by
      cases quote <;> decide
    simp [literal, plain, quotes]
  have whole : lines (literal quote text) = [literal quote text] := by
    have last : (literal quote text).getLast? = some 0x3B := by
      rw [literal, List.getLast?_append]
      rfl
    rw [lines_of_spells (.unended feedless (List.cons_ne_nil _ _)), List.map_singleton,
      withoutReturn, last]
    rfl
  have semicolon : Char.ofNat (0x3B : UInt8).toNat = ';' := rfl
  unfold rows
  rw [whole, List.map_singleton, literal, List.cons_append, Utf8.characters_cons quote.byte_lt,
    Utf8.characters_append text _ quote.byte_lt, Utf8.characters_cons quote.byte_lt,
    Utf8.characters_cons (by decide), quote.toNat_byte, Char.ofNat_toNat, semicolon]
  rfl

end Source

namespace Machine

/-! ## Along the line -/

/-- A machine that has gone along its first row from the left edge, one step for each column. -/
def along (origin : Machine) (column : Nat) (quoting : Option Quote) (tower : Tower)
    (journal : List String) : Machine :=
  { origin with cursor := ⟨0, column⟩, count := column, quoting, tower, journal }

/-- A machine about to go along a line that is its whole box. -/
structure Facing (row : List Char) (origin : Machine) : Prop where
  box : origin.box = .ofRows [row]
  heading : origin.heading = .right
  running : origin.status = .running
  fits : row.length < Nat.pow 2 63
  allowed : ∀ limit, origin.limit = some limit → row.length ≤ limit

variable {row : List Char} {origin : Machine} {column : Nat} {quoting : Option Quote}
  {tower : Tower} {journal : List String}

/-- The symbol under the cursor is that of the character in its column. -/
theorem symbol_along (facing : Facing row origin) {character : Char}
    (here : row[column]? = some character) :
    (origin.along column quoting tower journal).symbol =
      (Source.cell (some character)).toInt := by
  have wide : Source.width [row] = row.length := by simp [Source.width]
  have inside : column < row.length := (List.getElem?_eq_some_iff.mp here).1
  show (origin.box.get ⟨(0 : Nat), column⟩).toInt = _
  rw [facing.box, CodeBox.get_ofRows _ (Nat.one_pos) (wide ▸ inside)]
  simp [here]

/-- Within the line, nothing holds a turn up. -/
theorem turn_along (facing : Facing row origin) (inside : column < row.length) :
    (origin.along column quoting tower journal).turn false =
      (origin.along column quoting tower journal).act := by
  refine turn_eq_act facing.running rfl ?_
  unfold atLimit
  cases limited : origin.limit with
  | none => simp [along, limited]
  | some limit =>
    have allowed := facing.allowed limit limited
    simp only [along, limited, decide_eq_false_iff_not]
    omega

/-- Going around a side does nothing to what is on it. -/
theorem around_of_lt {coordinate side : Nat} (inside : coordinate < side)
    (fits : side ≤ Nat.pow 2 63) : around coordinate side = coordinate := by
  have twice : Nat.pow 2 64 = 2 * Nat.pow 2 63 := rfl
  have word : Number.wrapWord coordinate = coordinate := by
    unfold Number.wrapWord
    exact Int.bmod_eq_of_le (by omega) (by omega)
  rw [around_eq_emod, word]
  exact Int.emod_eq_of_lt (by omega) (by omega)

/-- Moving on within the line leads to the next column. -/
theorem advance_along (facing : Facing row origin) (room : column + 1 < row.length) :
    (origin.along column quoting tower journal).advance.cursor = ⟨0, (column + 1 : Nat)⟩ := by
  have wide : (CodeBox.ofRows [row]).width = row.length := by simp [CodeBox.ofRows, Source.width]
  have rows : around ((0 : Int) + Heading.right.rows) 1 = 0 := by decide
  have columns : around ((column : Int) + Heading.right.columns) row.length =
      (column + 1 : Nat) := around_of_lt room (Nat.le_of_lt facing.fits)
  show Position.mk (around (0 + origin.heading.rows) origin.box.height)
    (around (column + origin.heading.columns) origin.box.width) = _
  rw [facing.box, facing.heading, wide, columns]
  exact congrArg (Position.mk · _) rows

/-- A step that only types or switches the string mode leads to the next column. -/
theorem turn_along_next (facing : Facing row origin) {character : Char}
    {switched : Option Quote} {taller : Tower} (here : row[column]? = some character)
    (room : column + 1 < row.length)
    (stepped : (origin.along column quoting tower journal).step
      (Source.cell (some character)).toInt =
        .done (origin.along column switched taller journal)) :
    ∃ later, (origin.along column quoting tower journal).turn false =
      .next (origin.along (column + 1) switched taller later) := by
  have moved : ∀ ledger, ((origin.along column switched taller journal).withLedger ledger).advance =
      { (origin.along column switched taller journal).withLedger ledger with
        cursor := (origin.along column quoting tower journal).advance.cursor } := fun _ => rfl
  have running : (origin.along column switched taller journal).status = .running := facing.running
  rw [turn_along facing (by omega), act_eq, symbol_along facing here, stepped]
  dsimp only
  rw [if_pos running, moved, advance_along facing room]
  exact ⟨_, rfl⟩

/-! ## The steps of a literal -/

/-- The symbol of a cell that holds a character: an empty cell holds the space. -/
theorem toInt_cell (character : Char) :
    (Source.cell (some character)).toInt =
      if character = ' ' then 0 else (character.toNat : Int) := by
  simp only [Source.cell]
  by_cases space : character = ' '
  · rw [if_pos space, if_pos space]
    exact Number.toInt_zero
  · rw [if_neg space, if_neg space]
    exact Number.toInt_ofChar character

/-- The symbol of a cell that holds a quote. -/
theorem toInt_cell_quote (quote : Quote) :
    (Source.cell (some quote.character)).toInt = quote.symbol := by
  rw [toInt_cell, quote.symbol_eq]
  cases quote <;> rfl

/-- String mode types each character but its quote as its own code. Only the character of code 0
would be taken for an empty cell. -/
theorem step_typed {quote : Quote} {character : Char} (other : character ≠ quote.character)
    (visible : character.toNat ≠ 0) :
    (origin.along column (some quote) tower journal).step (Source.cell (some character)).toInt =
      .done (origin.along column (some quote) (tower.push (.ofChar character)) journal) := by
  have literal : literalOf (Source.cell (some character)).toInt = .ofChar character := by
    rw [toInt_cell]
    unfold literalOf
    split
    · rename_i space
      rw [if_pos rfl, space]
      rfl
    · rw [if_neg (by omega)]
      rfl
  have taken : (origin.along column (some quote) tower journal).takesLiterally
      (Source.cell (some character)).toInt = true := by
    have code : character.toNat ≠ quote.character.toNat :=
      fun same => other (Char.toNat_inj.mp same)
    have symbols : (Source.cell (some character)).toInt ≠ quote.symbol := by
      rw [toInt_cell, quote.symbol_eq]
      split
      · cases quote <;> decide
      · omega
    exact decide_eq_true symbols
  unfold step
  rw [if_pos taken, literal]
  rfl

/-- A quote opens its string mode. -/
theorem step_opening (quote : Quote) :
    (origin.along column none tower journal).step quote.symbol =
      .done (origin.along column (some quote) tower journal) := by
  cases quote <;> rfl

/-- A quote closes its string mode. -/
theorem step_closing (quote : Quote) :
    (origin.along column (some quote) tower journal).step quote.symbol =
      .done (origin.along column none tower journal) := by
  cases quote <;> rfl

/-- The end of the line ends the program. -/
theorem ends_along (facing : Facing row origin) (here : row[column]? = some ';') :
    ∃ later, (origin.along column none tower journal).Ends .halted
      { origin.along (column + 1) none tower later with
        cursor := ⟨0, column⟩, status := .halted } := by
  have inside : column < row.length := (List.getElem?_eq_some_iff.mp here).1
  have symbol : (Source.cell (some ';')).toInt = 0x3B := by
    rw [toInt_cell]
    rfl
  have stepped : (origin.along column none tower journal).step 0x3B =
      .done { origin.along column none tower journal with status := .halted } := rfl
  have acted := (origin.along column none tower journal).act_eq
  rw [symbol_along facing here, symbol, stepped] at acted
  exact ⟨_, .of_stop ((turn_along facing inside).trans acted)⟩

/-! ## The whole literal -/

/-- What stands at the front of the rest of a line, and behind it. -/
theorem ahead_cons {character : Char} {rest : List Char}
    (ahead : row.drop column = character :: rest) :
    row[column]? = some character ∧ row.drop (column + 1) = rest := by
  constructor
  · rw [← List.head?_drop, ahead]
    rfl
  · rw [← List.tail_drop, ahead]
    rfl

/-- In string mode a machine types what it passes, up to the closing quote, and then it ends. -/
theorem ends_of_typed (facing : Facing row origin) {quote : Quote} {typed : List Char}
    (plain : ∀ character ∈ typed, character ≠ quote.character ∧ character.toNat ≠ 0)
    (ahead : row.drop column = typed ++ [quote.character, ';']) :
    ∃ later last, (origin.along column (some quote) tower journal).Ends .halted
      { origin.along (column + typed.length + 2) none
          { tower with active := tower.active.pushAll (typed.map Number.ofChar) } later with
        cursor := last, status := .halted } := by
  -- On the text that is still to be typed; what has been typed is on the tower already.
  induction typed generalizing column tower journal with
  | nil =>
    obtain ⟨closing, behind⟩ := ahead_cons ahead
    obtain ⟨ending, _⟩ := ahead_cons behind
    have room : column + 1 < row.length := (List.getElem?_eq_some_iff.mp ending).1
    obtain ⟨middle, turned⟩ := turn_along_next facing closing room
      (toInt_cell_quote quote ▸ step_closing quote)
    obtain ⟨later, ended⟩ := ends_along facing ending
    exact ⟨later, _, .of_next turned ended⟩
  | cons character rest hypothesis =>
    obtain ⟨here, behind⟩ : row[column]? = some character ∧
        row.drop (column + 1) = rest ++ [quote.character, ';'] := ahead_cons ahead
    obtain ⟨other, visible⟩ := plain character List.mem_cons_self
    have room : column + 1 < row.length := by
      have length := congrArg List.length behind
      simp only [List.length_drop, List.length_append, List.length_cons] at length
      omega
    obtain ⟨middle, turned⟩ := turn_along_next facing here room (step_typed other visible)
    obtain ⟨later, last, ended⟩ := hypothesis
      (fun character member => plain character (List.mem_cons_of_mem _ member)) behind
    refine ⟨later, last, .of_next turned ?_⟩
    rw [show column + (character :: rest).length + 2 = column + 1 + rest.length + 2 by
      rw [List.length_cons]; omega]
    exact ended

/-- A literal types its text and ends, one step for each character of the line. -/
theorem ends_of_literal {quote : Quote} {characters : List Char}
    (facing : Facing (Source.literalLine quote characters) origin)
    (plain : ∀ character ∈ characters, character ≠ quote.character ∧ character.toNat ≠ 0) :
    ∃ later last, (origin.along 0 none tower journal).Ends .halted
      { origin.along (characters.length + 3) none
          { tower with active := tower.active.pushAll (characters.map Number.ofChar) } later with
        cursor := last, status := .halted } := by
  obtain ⟨opening, ahead⟩ : (Source.literalLine quote characters)[0]? = some quote.character ∧
      (Source.literalLine quote characters).drop 1 = characters ++ [quote.character, ';'] :=
    ⟨rfl, rfl⟩
  have room : 1 < (Source.literalLine quote characters).length := by
    simp [Source.literalLine]
  obtain ⟨middle, turned⟩ := turn_along_next facing opening room
    (toInt_cell_quote quote ▸ step_opening quote)
  obtain ⟨later, last, ended⟩ := ends_of_typed facing plain ahead
  refine ⟨later, last, .of_next turned ?_⟩
  rw [show characters.length + 3 = 0 + 1 + characters.length + 2 by omega]
  exact ended

/-! ## Setting up -/

/-- What is the same in a machine before and after adjustments that push the given numbers. -/
structure Prepared (before after : Machine) (numbers : List Number) : Prop where
  box : after.box = before.box
  cursor : after.cursor = before.cursor
  heading : after.heading = before.heading
  quoting : after.quoting = before.quoting
  status : after.status = before.status
  count : after.count = before.count
  pieces : after.output.pieces = before.output.pieces
  tower : after.tower = { before.tower with active := before.tower.active.pushAll numbers }

theorem Prepared.trans {before middle after : Machine} {numbers others : List Number}
    (first : Prepared before middle numbers) (second : Prepared middle after others) :
    Prepared before after (numbers ++ others) where
  box := second.box.trans first.box
  cursor := second.cursor.trans first.cursor
  heading := second.heading.trans first.heading
  quoting := second.quoting.trans first.quoting
  status := second.status.trans first.status
  count := second.count.trans first.count
  pieces := second.pieces.trans first.pieces
  tower := by
    rw [second.tower, first.tower]
    simp only [Stack.pushAll, List.foldl_append]

/-- What an adjustment leaves as it is, and what it pushes. -/
theorem prepared_of_adjust {before after : Machine} {adjustment : Adjustment}
    (made : before.adjust adjustment = .ok after) : Prepared before after adjustment.pushed := by
  cases adjustment with
  | limit steps =>
    simp only [adjust] at made
    split at made <;> cases made
    constructor <;> rfl
  | input reader => cases made; constructor <;> rfl
  | missing name => cases made; constructor <;> rfl
  | trace wanted => cases wanted <;> cases made; constructor <;> rfl
  | push numbers => cases made; constructor <;> rfl
  | compass compass => cases made; constructor <;> rfl
  | output outlet => cases made; constructor <;> rfl

/-- What adjustments leave as it is, and what they push. -/
theorem prepared_of_adjustAll {before after : Machine} {adjustments : List Adjustment}
    (made : before.adjustAll adjustments = (none, after)) :
    Prepared before after (adjustments.flatMap Adjustment.pushed) := by
  induction adjustments generalizing before with
  | nil =>
    cases made
    constructor <;> rfl
  | cons adjustment others hypothesis =>
    unfold adjustAll at made
    split at made
    · rename_i adjusted done
      rw [List.flatMap_cons]
      exact (prepared_of_adjust done).trans (hypothesis made)
    · cases made

/-- A machine that could be set up has pushed what its adjustments push, and has done nothing. -/
theorem prepared_of_create {box : CodeBox} {compass : Compass} {adjustments : List Adjustment}
    {machine : Machine} (created : create (some box) compass adjustments = .ok machine) :
    Prepared (start box compass) machine (adjustments.flatMap Adjustment.pushed) := by
  unfold create at created
  dsimp only at created
  split at created
  · cases created
  · split at created
    · rename_i made
      cases created
      exact prepared_of_adjustAll made
    · cases created

/-- A possible adjustment is made. -/
theorem exists_adjust (before : Machine) {adjustment : Adjustment}
    (possible : adjustment.isPossible) : ∃ after, before.adjust adjustment = .ok after := by
  cases adjustment with
  | limit steps =>
    have counts : ¬ steps < 0 := Int.not_lt.mpr (of_decide_eq_true possible)
    exact ⟨_, if_neg counts⟩
  | input reader => exact ⟨_, rfl⟩
  | missing name => exact ⟨_, rfl⟩
  | trace wanted =>
    cases wanted with
    | none => cases possible
    | some wanted => exact ⟨_, rfl⟩
  | push numbers => exact ⟨_, rfl⟩
  | compass compass => exact ⟨_, rfl⟩
  | output outlet => exact ⟨_, rfl⟩

/-- Possible adjustments are made. -/
theorem exists_adjustAll (before : Machine) {adjustments : List Adjustment}
    (possible : ∀ adjustment ∈ adjustments, adjustment.isPossible) :
    ∃ after, before.adjustAll adjustments = (none, after) := by
  induction adjustments generalizing before with
  | nil => exact ⟨_, rfl⟩
  | cons adjustment others hypothesis =>
    obtain ⟨adjusted, made⟩ := before.exists_adjust (possible _ List.mem_cons_self)
    obtain ⟨after, rest⟩ := hypothesis adjusted
      fun other member => possible other (List.mem_cons_of_mem _ member)
    refine ⟨after, ?_⟩
    rw [adjustAll, made]
    exact rest

/-- A machine for a box with a cell can be set up with possible adjustments. -/
theorem exists_create {box : CodeBox} (present : ¬(box.height = 0 ∨ box.width = 0))
    (compass : Compass) {adjustments : List Adjustment}
    (possible : ∀ adjustment ∈ adjustments, adjustment.isPossible) :
    ∃ machine, create (some box) compass adjustments = .ok machine := by
  obtain ⟨machine, made⟩ := (start box compass).exists_adjustAll possible
  refine ⟨machine, ?_⟩
  unfold create
  dsimp only
  rw [if_neg present, made]

/-- A machine that has done nothing stands at the left end of its line. -/
theorem eq_along_of_prepared {box : CodeBox} {compass : Compass} {machine : Machine}
    {numbers : List Number} (prepared : Prepared (start box compass) machine numbers) :
    machine = machine.along 0 none machine.tower machine.journal := by
  obtain ⟨_, cursor, _, quoting, _, count, _, _⟩ := prepared
  cases machine
  cases cursor
  cases quoting
  cases count
  rfl

/-- A machine for a line, if its limit allows it, is about to go along it. -/
theorem facing_of_prepared {compass : Compass} {machine : Machine} {numbers : List Number}
    (prepared : Prepared (start (.ofRows [row]) compass) machine numbers)
    (fits : row.length < Nat.pow 2 63)
    (allowed : ∀ limit, machine.limit = some limit → row.length ≤ limit) :
    Facing row machine where
  box := prepared.box
  heading := prepared.heading
  running := prepared.status
  fits
  allowed

/-! ## Main statement -/

/-- The program that quotes a text without the quote, line feeds and bytes 0, valid or not as UTF-8
and of any length that a word can count, is read, and a machine can be set up for it in every
possible way. If its limit allows one step for each character and three more, it ends: with one
stack, on which the codes of the text stand above what had been pushed, out of string mode, still
heading where it did, without output, and after exactly those steps. -/
theorem string_literal_pushes_encoded_text {quote : Quote} {text : Bytes}
    (quoteless : quote.byte ∉ text) (feedless : 0x0A ∉ text) (zeroless : 0x00 ∉ text)
    (fits : (Source.literal quote text).length < Nat.pow 2 63) :
    ∃ box, CodeBox.ofSource (Source.literal quote text) none = .ok box ∧
      ∀ compass adjustments, (∀ adjustment ∈ adjustments, adjustment.isPossible) →
        ∃ machine, create (some box) compass adjustments = .ok machine ∧
          ((∀ limit, machine.limit = some limit → (Utf8.characters text).length + 3 ≤ limit) →
            ∃ final, machine.Ends .halted final ∧ final.status = .halted ∧
              final.tower.toList.map Stack.toList =
                [adjustments.flatMap Adjustment.pushed ++ Series.ofText text] ∧
              final.quoting = none ∧ final.heading = machine.heading ∧
              final.output.pieces = [] ∧ final.count = (Utf8.characters text).length + 3) := by
  have length := Source.length_literalLine quote (Utf8.characters text)
  have short := Source.length_literalLine_le quote text
  have source := Source.rows_literal quote feedless
  have opened : ∃ row ∈ Source.rows (Source.literal quote text), row ≠ [] := by
    rw [source]
    exact ⟨_, List.mem_singleton.mpr rfl, List.cons_ne_nil _ _⟩
  refine ⟨_, CodeBox.ofSource_eq_ok_iff.mpr ⟨opened, rfl⟩, ?_⟩
  rw [source]
  have present : ¬((CodeBox.ofRows [Source.literalLine quote (Utf8.characters text)]).height = 0 ∨
      (CodeBox.ofRows [Source.literalLine quote (Utf8.characters text)]).width = 0) := by
    simp [CodeBox.ofRows, Source.width, length]
  intro compass adjustments possible
  obtain ⟨machine, created⟩ := exists_create present compass possible
  refine ⟨machine, created, fun allowed => ?_⟩
  have prepared := prepared_of_create created
  have facing := facing_of_prepared prepared (by omega) (length ▸ allowed)
  obtain ⟨later, last, ended⟩ :=
    ends_of_literal facing (Source.plain_of_not_mem quoteless zeroless)
  rw [eq_along_of_prepared prepared]
  refine ⟨_, ended, rfl, ?_, rfl, rfl, prepared.pieces, rfl⟩
  have stack : machine.tower.active.toList = adjustments.flatMap Adjustment.pushed := by
    rw [prepared.tower, Stack.toList_pushAll]
    rfl
  have single : machine.tower.beneath = [] := by
    rw [prepared.tower]
    rfl
  simp [along, Tower.toList, single, stack, Series.ofText]

/-- A space, a letter of two bytes, a stray byte and a carriage return, quoted above a 7 and with
just enough steps. -/
theorem string_literal_with_stray_byte :
    ∃ box machine final,
      CodeBox.ofSource (Source.literal .double [0x20, 0xC3, 0xA9, 0xFF, 0x0D]) none = .ok box ∧
        create (some box) (.ofDraws [0]) [.push [.ofInt 7], .limit 7] = .ok machine ∧
        machine.limit = some 7 ∧ machine.Ends .halted final ∧
        final.tower.toList.map Stack.toList =
          [[.ofInt 7, .ofChar ' ', .ofChar 'é', .ofChar Glyph.replacement, .ofChar '\r']] ∧
        final.count = 7 := by
  obtain ⟨box, read, runs⟩ := @string_literal_pushes_encoded_text .double
    [0x20, 0xC3, 0xA9, 0xFF, 0x0D] (by decide) (by decide) (by decide) (by decide)
  obtain ⟨machine, created, ends⟩ :=
    runs (.ofDraws [0]) [.push [.ofInt 7], .limit 7] (List.all_eq_true.mp rfl)
  have limited : machine.limit = some 7 := by
    unfold create at created
    dsimp only at created
    split at created <;> cases created
    rfl
  have allowed : ∀ limit, machine.limit = some limit →
      (Utf8.characters [0x20, 0xC3, 0xA9, 0xFF, 0x0D]).length + 3 ≤ limit := by
    intro limit found
    rw [limited] at found
    cases found
    decide
  obtain ⟨final, ended, _, pushed, _, _, _, count⟩ := ends allowed
  exact ⟨box, machine, final, read, created, limited, ended, pushed, count⟩

end Machine

end Aquarium
