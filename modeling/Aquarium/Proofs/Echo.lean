import Aquarium.Proofs.InputStream
import Aquarium.Proofs.Literals
import Aquarium.Proofs.Writers

/-!
# The program that copies its input

A program of one row goes around it for ever. `Machine.At` is what such a program depends on at a
head: the column of the cursor, the numbers of the only stack, the runes still to be read, and the
output. Each instruction of the row has a contract, one turn from one such state to the next, and a
round of the copying program is six of them in a row: `At.round` copies a character, `At.lastRound`
finds the end of input. The induction is on the characters that are still to be copied.
-/

namespace Aquarium

/-- The source of the program that copies its input. -/
def Source.echo : Bytes :=
  Utf8.ofString "i:0(?;o"

/-- The row of the program that copies its input. -/
def Source.echoRow : List Char :=
  ['i', ':', '0', '(', '?', ';', 'o']

/-! ## Characters as numbers -/

namespace Number

/-- The code of a character stands for that character. -/
theorem toChar?_ofChar (character : Char) : (ofChar character).toChar? = some character := by
  have scalar := Utf8.scalar character
  obtain ⟨held, exactly⟩ := @ofInt_eq_finite character.toNat (by omega)
  rw [ofChar, exactly]
  simp [toChar?, isIntegral, toRat, scalar]

/-- No code of a character is negative. -/
theorem lessThan_ofChar (character : Char) : (ofChar character).lessThan 0 = false := by
  have scalar := Utf8.scalar character
  obtain ⟨held, exactly⟩ := @ofInt_eq_finite character.toNat (by omega)
  have positive : ¬ ((character.toNat : Int) : Rat) < 0 :=
    Rat.not_lt.mpr (Rat.intCast_nonneg.mpr (Int.natCast_nonneg _))
  have compared : (finite ((character.toNat : Int) : Rat) held).compare?
        (.finite 0 Binary64.representable_zero) =
      if ((character.toNat : Int) : Rat) < 0 then some .lt
      else if ((character.toNat : Int) : Rat) = 0 then some .eq
      else some .gt := rfl
  rw [ofChar, exactly, zero_eq_finite, lessThan, compared, if_neg positive]
  split
  · rfl
  · rfl

end Number

namespace Stream

/-- What can be seen of the pending runes, line feeds left out. -/
def letters (pending : List Char) : List Char :=
  pending.filter (· ≠ '\n')

/-- A read instruction takes the first letter of the pending runes, or finds that there is none. -/
theorem next_cases (pending : List Char) :
    letters pending = [] ∧ next pending = (.ofInt (-1), []) ∨
      ∃ letter left, letters pending = letter :: letters left ∧
        next pending = (.ofChar letter, left) := by
  induction pending with
  | nil => exact .inl ⟨rfl, rfl⟩
  | cons rune rest hypothesis =>
    by_cases feed : rune = '\n'
    · have skipped : letters (rune :: rest) = letters rest := by simp [letters, feed]
      have later : next (rune :: rest) = next rest := by simp [next, visible, feed]
      rw [skipped, later]
      exact hypothesis
    · exact .inr ⟨rune, rest, by simp [letters, feed], by simp [next, visible, feed]⟩

end Stream

namespace Machine

/-! ## Programs of one row -/

/-- What a program of one row depends on at a head of its run. -/
structure At (row : List Char) (column : Nat) (values : List Number) (pending : List Char)
    (output : Output) (count : Nat) (machine : Machine) : Prop where
  box : machine.box = .ofRows [row]
  cursor : machine.cursor = ⟨0, column⟩
  heading : machine.heading = .right
  quoting : machine.quoting = none
  running : machine.status = .running
  unlimited : machine.limit = none
  tower : machine.tower = ⟨⟨values, none⟩, []⟩
  pending : machine.input.pending = pending
  exhausts : machine.input.Exhausts
  output : machine.output = output
  count : machine.count = count

namespace At

variable {row : List Char} {column : Nat} {values : List Number} {pending : List Char}
  {output : Output} {count : Nat} {machine : Machine}

/-- The symbol under the cursor is that of the character in its column. -/
theorem meets (state : At row column values pending output count machine) {character : Char}
    (here : row[column]? = some character) (visible : character ≠ ' ') :
    machine.Meets character := by
  have inside : column < row.length := (List.getElem?_eq_some_iff.mp here).1
  have wide : Source.width [row] = row.length := by simp [Source.width]
  have symbol : machine.symbol = character.toNat := by
    have cell : machine.symbol = (Source.cell (some character)).toInt := by
      show (machine.box.get machine.cursor).toInt = _
      rw [state.box, state.cursor]
      show ((CodeBox.ofRows [row]).get ⟨(0 : Nat), column⟩).toInt = _
      rw [CodeBox.get_ofRows _ Nat.one_pos (wide ▸ inside)]
      simp [here]
    rw [cell, toInt_cell, if_neg visible]
  refine ⟨?_, symbol⟩
  simp only [takesLiterally, state.quoting]

/-- Moving on leads to the next column, or around the edge to the first. -/
theorem advance (state : At row column values pending output count machine)
    (inside : column < row.length) (fits : row.length < Nat.pow 2 63) :
    At row ((column + 1) % row.length) values pending output count machine.advance := by
  have twice : Nat.pow 2 64 = 2 * Nat.pow 2 63 := rfl
  have rows : around ((0 : Int) + Heading.right.rows) 1 = 0 := by decide
  have wide : (CodeBox.ofRows [row]).width = row.length := by simp [CodeBox.ofRows, Source.width]
  have columns : around ((column : Int) + Heading.right.columns) row.length =
      ((column + 1) % row.length : Nat) := by
    have word : Number.wrapWord ((column : Int) + 1) = (column + 1 : Nat) :=
      Int.bmod_eq_of_le (by omega) (by omega)
    rw [around_eq_emod]
    show Number.wrapWord ((column : Int) + 1) % row.length = _
    rw [word]
    rfl
  have moved : machine.advance.cursor = ⟨0, ((column + 1) % row.length : Nat)⟩ := by
    show Position.mk (around (machine.cursor.row + machine.heading.rows) machine.box.height)
      (around (machine.cursor.column + machine.heading.columns) machine.box.width) = _
    rw [state.box, state.cursor, state.heading, wide, columns]
    exact congrArg (Position.mk · _) rows
  exact { state with cursor := moved }

/-- A turn whose instruction completes leads one column on from where the instruction leaves the
cursor. -/
theorem turn {left : Nat} {numbers : List Number} {runes : List Char} {written : Output}
    {after : Machine} (state : At row column values pending output count machine)
    (instruction : Instruction) (here : row[column]? = some instruction.character)
    (visible : instruction.character ≠ ' ') (executed : machine.execute instruction = .done after)
    (reached : At row left numbers runes written count after) (inside : left < row.length)
    (fits : row.length < Nat.pow 2 63) :
    ∃ next, machine.turn false = .next next ∧
      At row ((left + 1) % row.length) numbers runes written (count + 1) next := by
  have acts : instruction ≠ .rest := by
    rintro rfl
    exact visible rfl
  have stepped := step_of_meets instruction acts (state.meets here visible)
  have below : machine.atLimit = false := by simp only [atLimit, state.unlimited]
  have counted : At row left numbers runes written (count + 1)
      (after.withLedger (machine.settled after)) :=
    { reached with
      unlimited := state.unlimited
      count := congrArg (· + 1) state.count }
  refine ⟨_, ?_, counted.advance inside fits⟩
  rw [turn_eq_act state.running rfl below, act_eq, stepped, executed]
  exact if_pos reached.running

/-! ## Contracts of instructions -/

theorem values_eq (state : At row column values pending output count machine) :
    machine.values = values := by
  rw [Machine.values, state.tower]

theorem withValues (state : At row column values pending output count machine)
    (numbers : List Number) :
    At row column numbers pending output count (machine.withValues numbers) :=
  { state with
    tower := by
      show machine.tower.withValues numbers = _
      rw [state.tower]
      rfl }

theorem push (state : At row column values pending output count machine) (number : Number) :
    At row column (number :: values) pending output count (machine.push number) :=
  { state with
    tower := by
      show machine.tower.push number = _
      rw [state.tower]
      rfl }

variable (fits : row.length < Nat.pow 2 63)

include fits

/-- A read instruction pushes the next number of the stream. -/
theorem read (state : At row column values pending output count machine)
    (here : row[column]? = some 'i') :
    ∃ next, machine.turn false = .next next ∧
      At row ((column + 1) % row.length) ((Stream.next pending).1 :: values)
        (Stream.next pending).2 output (count + 1) next := by
  have inside := (List.getElem?_eq_some_iff.mp here).1
  obtain ⟨input, closed, executed, left, kept⟩ := execute_readCharacter state.exhausts
  rw [state.pending] at executed left
  have taken : At row column values (Stream.next pending).2 output count
      { machine with input, closed := machine.closed ++ closed } :=
    { state with
      pending := left
      exhausts := kept }
  exact state.turn .readCharacter here (by decide) executed (taken.push _) inside fits

theorem duplicate {top : Number} {rest : List Number}
    (state : At row column (top :: rest) pending output count machine)
    (here : row[column]? = some ':') :
    ∃ next, machine.turn false = .next next ∧
      At row ((column + 1) % row.length) (top :: top :: rest) pending output (count + 1) next := by
  have inside := (List.getElem?_eq_some_iff.mp here).1
  have changed : machine.tower.active.duplicate? = some (machine.tower.active.push top) := by
    rw [state.tower]
    rfl
  have executed := execute_of_executes (@Executes.reshape machine .duplicate _ _ rfl changed)
  exact state.turn .duplicate here (by decide) executed (state.push top) inside fits

theorem literal (state : At row column values pending output count machine) (digit : Fin 16)
    (here : row[column]? = some (Instruction.literal digit).character) :
    ∃ next, machine.turn false = .next next ∧
      At row ((column + 1) % row.length) (.ofInt digit.val :: values) pending output (count + 1)
        next := by
  have inside := (List.getElem?_eq_some_iff.mp here).1
  have visible : (Instruction.literal digit).character ≠ ' ' := by
    clear here
    revert digit
    decide
  exact state.turn (.literal digit) here visible rfl (state.push _) inside fits

theorem combine {operator : Operator} {right left result : Number} {rest : List Number}
    (state : At row column (right :: left :: rest) pending output count machine)
    (here : row[column]? = some (Instruction.combine operator).character)
    (applied : operator.apply? left right = some result) :
    ∃ next, machine.turn false = .next next ∧
      At row ((column + 1) % row.length) (result :: rest) pending output (count + 1) next := by
  have inside := (List.getElem?_eq_some_iff.mp here).1
  have visible : (Instruction.combine operator).character ≠ ' ' := by
    cases operator <;> decide
  have executed := execute_of_executes (.combine state.values_eq applied)
  exact state.turn (.combine operator) here visible executed (state.withValues _) inside fits

/-- A condition that is a zero skips a cell. -/
theorem skip {condition : Number} {rest : List Number}
    (state : At row column (condition :: rest) pending output count machine)
    (here : row[column]? = some '?') (zero : condition.isZero = true) :
    ∃ next, machine.turn false = .next next ∧
      At row (((column + 1) % row.length + 1) % row.length) rest pending output (count + 1)
        next := by
  have inside := (List.getElem?_eq_some_iff.mp here).1
  have executed := execute_of_executes (.skipped state.values_eq zero)
  exact state.turn .skipUnless here (by decide) executed
    ((state.withValues rest).advance inside fits) (Nat.mod_lt _ (by omega)) fits

/-- Any other condition skips none. -/
theorem pass {condition : Number} {rest : List Number}
    (state : At row column (condition :: rest) pending output count machine)
    (here : row[column]? = some '?') (nonzero : condition.isZero = false) :
    ∃ next, machine.turn false = .next next ∧
      At row ((column + 1) % row.length) rest pending output (count + 1) next := by
  have inside := (List.getElem?_eq_some_iff.mp here).1
  have executed := execute_of_executes (.notSkipped state.values_eq nonzero)
  exact state.turn .skipUnless here (by decide) executed (state.withValues rest) inside fits

theorem writeCharacter {character : Char} {rest : List Number}
    (state : At row column (.ofChar character :: rest) pending output count machine)
    (here : row[column]? = some 'o') (allows : output.Allows 1) :
    ∃ next, machine.turn false = .next next ∧
      At row ((column + 1) % row.length) rest pending (output.taking [.character character])
        (count + 1) next := by
  have inside := (List.getElem?_eq_some_iff.mp here).1
  have taken : machine.output.write (.character character) =
      .ok (output.taking [.character character]) := by
    rw [state.output]
    exact Output.write_of_allows allows _
  have prints : Instruction.Prints .writeCharacter (.ofChar character) (.character character) :=
    .character (Number.toChar?_ofChar character)
  have executed := execute_of_executes (.write state.values_eq prints taken)
  have left : At row column rest pending (output.taking [.character character]) count
      { machine.withValues rest with output := output.taking [.character character] } :=
    { state.withValues rest with output := rfl }
  exact state.turn .writeCharacter here (by decide) executed left inside fits

omit fits in
/-- The program ends where it stands. -/
theorem finish (state : At row column values pending output count machine)
    (here : row[column]? = some ';') :
    ∃ final, machine.Ends .halted final ∧ final.status = .halted ∧
      final.tower = ⟨⟨values, none⟩, []⟩ ∧ final.output = output ∧ final.count = count + 1 := by
  have stepped := step_of_meets .finish (by simp) (state.meets here (by decide))
  have below : machine.atLimit = false := by simp only [atLimit, state.unlimited]
  have halted : machine.turn false = .stop .halted
      ({ machine with status := .halted }.withLedger
        (machine.settled { machine with status := .halted })) := by
    rw [turn_eq_act state.running rfl below, act_eq, stepped]
    exact if_neg (by simp)
  exact ⟨_, .of_stop halted, rfl, state.tower, state.output, congrArg (· + 1) state.count⟩

end At

/-! ## Rounds of the copying program -/

/-- A round of the copying program copies a letter. -/
theorem At.round {pending left : List Char} {letter : Char} {output : Output} {count : Nat}
    {machine : Machine} (state : At Source.echoRow 0 [] pending output count machine)
    (found : Stream.next pending = (.ofChar letter, left)) (allows : output.Allows 1) :
    ∃ next, machine.run false 6 = .going next ∧
      At Source.echoRow 0 [] left (output.taking [.character letter]) (count + 6) next := by
  have fits : Source.echoRow.length < Nat.pow 2 63 := by decide
  obtain ⟨first, read, state⟩ := state.read fits rfl
  rw [found] at state
  obtain ⟨second, doubled, state⟩ := state.duplicate fits rfl
  obtain ⟨third, zero, state⟩ := state.literal fits 0 rfl
  have compared : Operator.apply? .less (.ofChar letter) (.ofInt 0) = some (.ofBool false) :=
    congrArg (fun less => some (Number.ofBool less)) (Number.lessThan_ofChar letter)
  obtain ⟨fourth, less, state⟩ := state.combine fits rfl compared
  obtain ⟨fifth, skipped, state⟩ := state.skip fits rfl (by decide)
  obtain ⟨sixth, written, state⟩ := state.writeCharacter fits rfl allows
  refine ⟨sixth, ?_, state⟩
  rw [run_of_next read, run_of_next doubled, run_of_next zero, run_of_next less,
    run_of_next skipped, run_of_next written]
  rfl

/-- The round of the copying program that finds the end of input ends it. -/
theorem At.lastRound {pending left : List Char} {output : Output} {count : Nat}
    {machine : Machine} (state : At Source.echoRow 0 [] pending output count machine)
    (ended : Stream.next pending = (.ofInt (-1), left)) :
    ∃ final, machine.Ends .halted final ∧ final.status = .halted ∧
      final.tower = ⟨⟨[.ofInt (-1)], none⟩, []⟩ ∧ final.output = output ∧
      final.count = count + 6 := by
  have fits : Source.echoRow.length < Nat.pow 2 63 := by decide
  obtain ⟨first, read, state⟩ := state.read fits rfl
  rw [ended] at state
  obtain ⟨second, doubled, state⟩ := state.duplicate fits rfl
  obtain ⟨third, zero, state⟩ := state.literal fits 0 rfl
  have compared : Operator.apply? .less (.ofInt (-1)) (.ofInt 0) = some (.ofBool true) := by
    decide
  obtain ⟨fourth, less, state⟩ := state.combine fits rfl compared
  obtain ⟨fifth, passed, state⟩ := state.pass fits rfl (by decide)
  obtain ⟨final, ends, rest⟩ := state.finish rfl
  have course : machine.Ends .halted final :=
    .of_next read (.of_next doubled (.of_next zero (.of_next less (.of_next passed ends))))
  exact ⟨final, course, rest⟩

/-- From the left end of its row and with an empty stack, the copying program copies the letters
that are pending and ends. -/
theorem At.ends {pending : List Char} {output : Output} {count : Nat} {machine : Machine}
    (state : At Source.echoRow 0 [] pending output count machine)
    (allows : output.Allows (Stream.letters pending).length) :
    ∃ final, machine.Ends .halted final ∧ final.status = .halted ∧
      final.tower = ⟨⟨[.ofInt (-1)], none⟩, []⟩ ∧
      final.output = output.taking ((Stream.letters pending).map .character) ∧
      final.count = count + 6 * ((Stream.letters pending).length + 1) := by
  -- On the letters to be copied; line feeds between them are passed over by the read instruction.
  generalize copied : Stream.letters pending = letters at allows
  induction letters generalizing pending output count machine with
  | nil =>
    rcases Stream.next_cases pending with ⟨_, ended⟩ | ⟨letter, left, some, _⟩
    · obtain ⟨final, ends, halted, tower, written, counted⟩ := state.lastRound ended
      exact ⟨final, ends, halted, tower, by simp [written], by simp [counted]⟩
    · rw [copied] at some
      cases some
  | cons letter others hypothesis =>
    rcases Stream.next_cases pending with ⟨none, _⟩ | ⟨first, left, some, found⟩
    · rw [copied] at none
      cases none
    · rw [copied] at some
      obtain ⟨rfl, rest⟩ := List.cons.inj some
      have split :
          output.Allows ([Piece.character letter] ++ others.map Piece.character).length := by
        simpa using allows
      obtain ⟨next, going, after⟩ := state.round found split.of_append
      obtain ⟨final, ends, halted, tower, written, counted⟩ :=
        hypothesis after rest.symm (by simpa using split.taking)
      refine ⟨final, (ends_iff_of_going going).mpr ends, halted, tower, ?_, ?_⟩
      · rw [written, Output.taking_taking]
        rfl
      · rw [counted, List.length_cons]
        omega

/-! ## Main statement -/

/-- The source of the copying program is one row. -/
theorem rows_echo : Source.rows Source.echo = [Source.echoRow] := by
  decide +kernel

/-- The program that copies its input is read, and a machine can be set up for it in every possible
way. If it has no limit, an empty stack, a reader of any bytes and an outlet that refuses nothing,
it ends: its output is the UTF-8 of the characters that were read, each stray byte replaced and each
line feed left out, its stack holds -1 and nothing else, and it has executed six instructions for
each character copied and six more. -/
theorem echo_program_copies_input :
    ∃ box, CodeBox.ofSource Source.echo none = .ok box ∧
      ∀ compass adjustments, (∀ adjustment ∈ adjustments, adjustment.isPossible) →
        ∃ machine, create (some box) compass adjustments = .ok machine ∧
          ∀ (text : Bytes) (name : Nat) (closable : Bool) (outlet : Outlet),
            machine.limit = none → machine.values = [] →
            machine.input = .single ⟨name, closable, .ofText text .exhausted⟩ →
            machine.output.outlet = some outlet → outlet.allowance = none →
            ∃ final, machine.Ends .halted final ∧ final.status = .halted ∧
              final.output.deliveries.flatMap Delivery.bytes =
                Utf8.encodeAll ((Utf8.characters text).filter (· ≠ '\n')) ∧
              final.tower.toList.map Stack.toList = [[.ofInt (-1)]] ∧
              final.count = 6 * (((Utf8.characters text).filter (· ≠ '\n')).length + 1) := by
  have opened : ∃ row ∈ Source.rows Source.echo, row ≠ [] := by
    rw [rows_echo]
    exact ⟨_, List.mem_singleton.mpr rfl, List.cons_ne_nil _ _⟩
  refine ⟨_, CodeBox.ofSource_eq_ok_iff.mpr ⟨opened, rfl⟩, ?_⟩
  rw [rows_echo]
  intro compass adjustments possible
  obtain ⟨machine, created⟩ :=
    @exists_create (.ofRows [Source.echoRow]) (by decide) compass adjustments possible
  refine ⟨machine, created, ?_⟩
  intro text name closable outlet unlimited empty reads present free
  have prepared := prepared_of_create created
  have nothing : adjustments.flatMap Adjustment.pushed = [] := by
    have pushed : machine.tower.active.toList = adjustments.flatMap Adjustment.pushed := by
      rw [prepared.tower, Stack.toList_pushAll]
      rfl
    rw [← pushed]
    exact congrArg List.reverse empty
  have state : At Source.echoRow 0 [] (Utf8.characters text) machine.output 0 machine :=
    { box := prepared.box
      cursor := prepared.cursor
      heading := prepared.heading
      quoting := prepared.quoting
      running := prepared.status
      unlimited
      tower := by
        rw [prepared.tower, nothing]
        rfl
      pending := by
        rw [reads]
        simp [Input.pending, Input.readers, Feed.ofText, Feed.runes_glyphs, Utf8.characters]
      exhausts := by
        rw [reads]
        intro reader member
        cases List.mem_singleton.mp member
        rfl
      output := rfl
      count := prepared.count }
  have allows : machine.output.Allows (Stream.letters (Utf8.characters text)).length := by
    simp [Output.Allows, present, free]
  obtain ⟨final, ends, halted, tower, written, counted⟩ := state.ends allows
  refine ⟨final, ends, halted, ?_, by rw [tower]; rfl, by rw [counted, Nat.zero_add]; rfl⟩
  have silent : machine.output.deliveries = [] := List.map_eq_nil_iff.mp prepared.pieces
  rw [written, Output.deliveries_taking present, silent, List.nil_append,
    outlet.flatMap_bytes_delivery, List.flatMap_map]
  rfl

/-- Two letters with a stray byte and two line feeds among them are copied in four rounds. -/
theorem echo_of_stray_byte_and_line_feeds :
    ∃ box machine final,
      CodeBox.ofSource Source.echo none = .ok box ∧
        create (some box) (.ofDraws [0])
          [.output (some ⟨none, "", false, false, none⟩),
            .input ⟨0, false, .ofText [0x61, 0x0A, 0xFF, 0xC3, 0xA9, 0x0A] .exhausted⟩] =
          .ok machine ∧
        machine.Ends .halted final ∧
        final.output.deliveries.flatMap Delivery.bytes =
          [0x61, 0xEF, 0xBF, 0xBD, 0xC3, 0xA9] ∧
        final.tower.toList.map Stack.toList = [[.ofInt (-1)]] ∧ final.count = 24 := by
  obtain ⟨box, read, runs⟩ := echo_program_copies_input
  obtain ⟨machine, created, copies⟩ := runs (.ofDraws [0])
    [.output (some ⟨none, "", false, false, none⟩),
      .input ⟨0, false, .ofText [0x61, 0x0A, 0xFF, 0xC3, 0xA9, 0x0A] .exhausted⟩]
    (List.all_eq_true.mp rfl)
  obtain ⟨unlimited, empty, reads, present⟩ : machine.limit = none ∧ machine.values = [] ∧
      machine.input =
        .single ⟨0, false, .ofText [0x61, 0x0A, 0xFF, 0xC3, 0xA9, 0x0A] .exhausted⟩ ∧
      machine.output.outlet = some ⟨none, "", false, false, none⟩ := by
    unfold create at created
    dsimp only at created
    split at created <;> cases created
    exact ⟨rfl, rfl, rfl, rfl⟩
  obtain ⟨final, ends, _, written, stack, counted⟩ :=
    copies _ _ _ _ unlimited empty reads present rfl
  have text : Utf8.encodeAll ((Utf8.characters [0x61, 0x0A, 0xFF, 0xC3, 0xA9, 0x0A]).filter
      (· ≠ '\n')) = [0x61, 0xEF, 0xBF, 0xBD, 0xC3, 0xA9] := by
    decide +kernel
  have rounds : ((Utf8.characters [0x61, 0x0A, 0xFF, 0xC3, 0xA9, 0x0A]).filter
      (· ≠ '\n')).length = 3 := by
    decide +kernel
  rw [text] at written
  rw [rounds] at counted
  exact ⟨box, machine, final, read, created, ends, written, stack, counted⟩

end Machine

end Aquarium
