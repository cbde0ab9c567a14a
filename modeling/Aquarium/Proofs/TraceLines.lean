import Aquarium.Proofs.FaultConditions
import Aquarium.Proofs.Tracing

/-!
# What the line before a step names

The line has two forms, `Trace.naming` and `Trace.numbering`, and no line has both. Which one a
symbol gets is decided by its lowest 32 bits (`traceNames_iff`, `traceNumbers_iff`), while the step
goes by the whole symbol (`rejects_iff`). `parts_iff` says on which symbols the two part, and the
main statement that they agree on all others.
-/

namespace Aquarium

namespace Trace

/-- Where a line before a step finds the machine. -/
def whereabouts (number : Nat) (place : Position) : String :=
  " n=" ++ toString number ++ " ip=" ++ toString place.row ++ "," ++ toString place.column

/-- The form of a line that shows a symbol as a character and names an instruction. -/
def naming (character : Char) (name : String) (number : Nat) (place : Position) : String :=
  "instr [" ++ character.toString ++ "] " ++ name ++ whereabouts number place

/-- The form of a line that shows a symbol as a number. -/
def numbering (symbol : Int) (number : Nat) (place : Position) : String :=
  "instr [" ++ toString symbol ++ "]" ++ whereabouts number place

/-- No blank stands in an integer. -/
theorem blank_not_mem_toString (symbol : Int) : ' ' ∉ (toString symbol).toList := by
  have digits (size : Nat) : ' ' ∉ (toString size).toList := by
    intro member
    rw [show toString size = size.repr from rfl, Nat.toList_repr] at member
    exact absurd (Nat.isDigit_of_mem_toDigits (by decide) (by decide) member) (by decide)
  cases symbol with
  | ofNat size => exact digits size
  | negSucc size =>
    rw [show toString (Int.negSucc size) = "-" ++ toString (size + 1) from rfl,
      String.toList_append, List.mem_append]
    rintro (sign | digit)
    · exact absurd sign (by decide)
    · exact digits _ digit

/-- A line has one form only: after the bracket a name is set off by a blank, a number is not. -/
theorem naming_ne_numbering (character : Char) (name : String) (symbol : Int) (number : Nat)
    (place : Position) : naming character name number place ≠ numbering symbol number place := by
  intro same
  have fronts := congrArg String.toList same
  simp only [naming, numbering, String.append_assoc, String.toList_append,
    List.append_cancel_left_eq] at fronts
  simp only [← List.append_assoc, List.append_cancel_right_eq] at fronts
  have blank : ' ' ∈ (toString symbol).toList ++ "]".toList := by
    rw [← fronts]
    simp
  rcases List.mem_append.mp blank with inside | bracket
  · exact blank_not_mem_toString symbol inside
  · exact absurd bracket (by decide)

/-- A line names one instruction. -/
theorem naming_inj {character other : Char} {name another : String} {number : Nat}
    {place : Position} :
    naming character name number place = naming other another number place ↔
      character = other ∧ name = another := by
  refine ⟨fun same => ?_, fun ⟨alike, named⟩ => by rw [alike, named]⟩
  have fronts := congrArg String.toList same
  simp only [naming, String.append_assoc, String.toList_append,
    List.append_cancel_left_eq] at fronts
  simpa [String.toList_inj] using fronts

/-- The line before a step, by what the lowest 32 bits of the symbol stand for. -/
theorem opening_of_some {symbol : Int} {instruction : Instruction}
    (stands : Instruction.ofSymbol? (symbol.bmod (Nat.pow 2 32)) = some instruction)
    (number : Nat) (place : Position) :
    opening symbol number place =
      naming (Machine.symbolCharacter symbol) instruction.mnemonic number place := by
  simp only [opening, naming, whereabouts, stands]

theorem opening_of_none {symbol : Int}
    (nothing : Instruction.ofSymbol? (symbol.bmod (Nat.pow 2 32)) = none) (number : Nat)
    (place : Position) : opening symbol number place = numbering symbol number place := by
  simp only [opening, numbering, whereabouts, nothing]

end Trace

namespace Instruction

/-- The symbols of instructions lie within the lowest 32 bits. -/
theorem bmod_of_stands {symbol : Int} {instruction : Instruction}
    (stands : ofSymbol? symbol = some instruction) : symbol.bmod (Nat.pow 2 32) = symbol := by
  obtain ⟨low, high⟩ := symbol_bounds stands
  apply Int.bmod_eq_of_le
  · change -((4294967296 / 2 : Nat) : Int) ≤ symbol
    omega
  · change symbol < ((4294967296 + 1) / 2 : Int)
    omega

end Instruction

namespace Machine

/-- A machine executes an instruction for a symbol. -/
def Dispatches (machine : Machine) (symbol : Int) (instruction : Instruction) : Prop :=
  machine.takesLiterally symbol = false ∧ Instruction.ofSymbol? symbol = some instruction

/-- The line before the step names an instruction. -/
def TraceNames (machine : Machine) (symbol : Int) (name : String) : Prop :=
  ∃ character,
    machine.stepNote symbol = Trace.naming character name (machine.count + 1) machine.cursor

/-- The line before the step shows the symbol as a number. -/
def TraceNumbers (machine : Machine) (symbol : Int) : Prop :=
  machine.stepNote symbol = Trace.numbering symbol (machine.count + 1) machine.cursor

/-- The step finds that the symbol stands for nothing. -/
def Rejects (machine : Machine) (symbol : Int) : Prop :=
  ∃ after, machine.step symbol = .failed (.fault .invalidInstruction) after

variable {machine : Machine} {symbol : Int}

/-- The name in a trace is that of the instruction that the lowest 32 bits stand for. -/
theorem traceNames_iff {name : String} :
    machine.TraceNames symbol name ↔
      ∃ instruction, Instruction.ofSymbol? (symbol.bmod (Nat.pow 2 32)) = some instruction ∧
        name = instruction.mnemonic := by
  unfold TraceNames
  rw [stepNote_eq]
  cases stands : Instruction.ofSymbol? (symbol.bmod (Nat.pow 2 32)) with
  | none =>
    rw [Trace.opening_of_none stands]
    constructor
    · rintro ⟨_, same⟩
      exact absurd same.symm (Trace.naming_ne_numbering _ _ _ _ _)
    · rintro ⟨_, ⟨⟩, _⟩
  | some instruction =>
    rw [Trace.opening_of_some stands]
    simp only [Trace.naming_inj, Option.some.injEq]
    constructor
    · rintro ⟨_, _, named⟩
      exact ⟨instruction, rfl, named.symm⟩
    · rintro ⟨_, rfl, rfl⟩
      exact ⟨_, rfl, rfl⟩

/-- A trace shows a number exactly if the lowest 32 bits stand for nothing. -/
theorem traceNumbers_iff :
    machine.TraceNumbers symbol ↔
      Instruction.ofSymbol? (symbol.bmod (Nat.pow 2 32)) = none := by
  unfold TraceNumbers
  rw [stepNote_eq]
  cases stands : Instruction.ofSymbol? (symbol.bmod (Nat.pow 2 32)) with
  | none => exact iff_of_true (Trace.opening_of_none stands _ _) rfl
  | some instruction =>
    rw [Trace.opening_of_some stands]
    exact iff_of_false (Trace.naming_ne_numbering _ _ _ _ _) (Option.some_ne_none _)

/-- A step rejects exactly the symbols that it executes no instruction for. -/
theorem rejects_iff (plain : machine.quoting = none) :
    machine.Rejects symbol ↔ Instruction.ofSymbol? symbol = none := by
  have executed : machine.takesLiterally symbol = false := by simp [takesLiterally, plain]
  rcases machine.step_cases symbol with
    ⟨literal, _⟩ | ⟨instruction, _, stands, stepped⟩ | ⟨_, nothing, stepped⟩
  · rw [executed] at literal
    cases literal
  · refine iff_of_false ?_ (by simp [stands])
    rintro ⟨after, failed⟩
    have condition := fails_of_execute stands (stepped.symm.trans failed)
    rw [fails_invalidInstruction_iff, stands] at condition
    cases condition
  · exact iff_of_true ⟨machine, stepped⟩ nothing

/-- A trace and the step part exactly on the symbols that are not instructions, but whose lowest 32
bits are. -/
theorem parts_iff :
    (Instruction.ofSymbol? symbol = none ∧
        (Instruction.ofSymbol? (symbol.bmod (Nat.pow 2 32))).isSome = true) ↔
      ∃ code laps : Int, laps ≠ 0 ∧ symbol = code + Nat.pow 2 32 * laps ∧
        (Instruction.ofSymbol? code).isSome = true := by
  constructor
  · rintro ⟨nothing, low⟩
    have whole := Int.bmod_add_bdiv symbol (Nat.pow 2 32)
    refine ⟨_, symbol.bdiv (Nat.pow 2 32), ?_, whole.symm, low⟩
    intro none
    rw [none, Int.mul_zero, Int.add_zero] at whole
    rw [whole, nothing] at low
    cases low
  · rintro ⟨code, laps, wide, rfl, stands⟩
    obtain ⟨instruction, stands⟩ := Option.isSome_iff_exists.mp stands
    have low : (code + Nat.pow 2 32 * laps).bmod (Nat.pow 2 32) = code := by
      rw [Int.add_mul_bmod_self_left, Instruction.bmod_of_stands stands]
    refine ⟨?_, by rw [low, stands]; rfl⟩
    obtain ⟨least, most⟩ := Instruction.symbol_bounds stands
    cases other : Instruction.ofSymbol? (code + Nat.pow 2 32 * laps) with
    | none => rfl
    | some another =>
      have width : ((Nat.pow 2 32 : Nat) : Int) = 4294967296 := rfl
      rw [width] at other
      obtain ⟨_, _⟩ := Instruction.symbol_bounds other
      omega

/-- Outside the string modes a step goes by the whole symbol and the line before it by the lowest 32
bits. A symbol that the step executes an instruction for has a line with the name of that
instruction, and a symbol whose line shows a number is rejected. The converses hold exactly for the
symbols that are not an instruction and a multiple of 2 ^ 32, other than 0, together: each of those
has the name of the instruction in its line, and is rejected. -/
theorem trace_goes_by_low_bits (plain : machine.quoting = none) (symbol : Int) :
    (∀ instruction, machine.Dispatches symbol instruction →
      machine.step symbol = machine.execute instruction ∧
        ∀ name, machine.TraceNames symbol name ↔ name = instruction.mnemonic) ∧
    (machine.TraceNumbers symbol → machine.Rejects symbol) ∧
    (∀ name, machine.TraceNames symbol name ↔
      ∃ instruction, Instruction.ofSymbol? (symbol.bmod (Nat.pow 2 32)) = some instruction ∧
        name = instruction.mnemonic) ∧
    (machine.TraceNumbers symbol ↔ ∀ name, ¬ machine.TraceNames symbol name) ∧
    (machine.Rejects symbol ↔ ∀ instruction, ¬ machine.Dispatches symbol instruction) ∧
    ((∃ name, machine.TraceNames symbol name ∧ machine.Rejects symbol) ↔
      ∃ code laps : Int, laps ≠ 0 ∧ symbol = code + Nat.pow 2 32 * laps ∧
        (Instruction.ofSymbol? code).isSome = true) := by
  have executed : machine.takesLiterally symbol = false := by simp [takesLiterally, plain]
  refine ⟨?dispatched, ?numbered, fun name => traceNames_iff, ?forms, ?ends, ?parts⟩
  case dispatched =>
    rintro instruction ⟨_, stands⟩
    refine ⟨?_, fun name => ?_⟩
    · simp [step, executed, stands]
    · rw [traceNames_iff, Instruction.bmod_of_stands stands, stands]
      simp
  case numbered =>
    intro numbered
    rw [rejects_iff plain]
    cases stands : Instruction.ofSymbol? symbol with
    | none => rfl
    | some instruction =>
      rw [traceNumbers_iff, Instruction.bmod_of_stands stands, stands] at numbered
      cases numbered
  case forms =>
    rw [traceNumbers_iff, Option.eq_none_iff_forall_ne_some]
    constructor
    · intro nothing name named
      obtain ⟨instruction, stands, _⟩ := traceNames_iff.mp named
      exact nothing instruction stands
    · intro nameless instruction stands
      exact nameless _ (traceNames_iff.mpr ⟨instruction, stands, rfl⟩)
  case ends =>
    rw [rejects_iff plain, Option.eq_none_iff_forall_ne_some]
    simp [Dispatches, executed]
  case parts =>
    rw [← parts_iff, rejects_iff plain, Option.isSome_iff_exists]
    constructor
    · rintro ⟨_, named, nothing⟩
      obtain ⟨instruction, stands, _⟩ := traceNames_iff.mp named
      exact ⟨nothing, instruction, stands⟩
    · rintro ⟨nothing, instruction, stands⟩
      exact ⟨_, traceNames_iff.mpr ⟨instruction, stands, rfl⟩, nothing⟩

/-- The end of the program is named in its line. A symbol one above 2 ^ 32 is a number there, and
rejected. -/
theorem trace_of_end_and_of_wide_number :
    ∃ machine, machine = start (.ofRows [[';']]) (.ofDraws [0]) ∧ machine.quoting = none ∧
      machine.Dispatches 59 .finish ∧ machine.TraceNames 59 "end" ∧
      machine.TraceNumbers 4294967297 ∧ machine.Rejects 4294967297 := by
  obtain ⟨machine, known⟩ : ∃ machine, machine = start (.ofRows [[';']]) (.ofDraws [0]) :=
    ⟨_, rfl⟩
  have plain : machine.quoting = none := by
    subst known
    rfl
  have dispatches : machine.Dispatches 59 .finish := by
    subst known
    exact ⟨rfl, by decide⟩
  obtain ⟨dispatched, _⟩ := trace_goes_by_low_bits plain 59
  obtain ⟨_, numbered, _⟩ := trace_goes_by_low_bits plain 4294967297
  have shown : machine.TraceNumbers 4294967297 := traceNumbers_iff.mpr (by decide)
  exact ⟨machine, known, plain, dispatches, ((dispatched _ dispatches).2 _).mpr rfl, shown,
    numbered shown⟩

/-- A program stores the sum of 59 and 2 ^ 32 in the cell behind it. The line of that cell names the
end of the program, and the step, with which the run ends, rejects it. -/
theorem trace_names_rejected_symbol :
    ∃ machine head site final,
      machine = ({ start (.ofRows [['3', '0', 'p', ' ', ';']]) (.ofDraws [0]) with
        tower := ⟨⟨[.ofInt 4294967355], none⟩, []⟩ } : Machine).withTrace true [] ∧
      machine.run false 3 = .going head ∧ head.quoting = none ∧ head.symbol = 4294967355 ∧
      machine.run false 4 = .stopped (.failed site (.fault .invalidInstruction)) final ∧
      final.notes.getLast? = some "instr [\uFFFD] end n=4 ip=0,3" ∧
      head.TraceNames head.symbol "end" ∧ ¬ head.TraceNumbers head.symbol ∧
      head.Rejects head.symbol ∧ ∀ instruction, ¬ head.Dispatches head.symbol instruction := by
  generalize known : ({ start (.ofRows [['3', '0', 'p', ' ', ';']]) (.ofDraws [0]) with
    tower := ⟨⟨[.ofInt 4294967355], none⟩, []⟩ } : Machine).withTrace true [] = machine
  obtain ⟨head, going, plain, symbol⟩ : ∃ head, machine.run false 3 = .going head ∧
      head.quoting = none ∧ head.symbol = 4294967355 := by
    subst known
    exact ⟨_, rfl, by decide +kernel, by decide +kernel⟩
  obtain ⟨stop, final, stopped, reason, last⟩ : ∃ stop final,
      machine.run false 4 = .stopped stop final ∧
        stop = .failed ⟨4294967355, ⟨0, 3⟩, 4, 1⟩ (.fault .invalidInstruction) ∧
        final.notes.getLast? = some "instr [\uFFFD] end n=4 ip=0,3" := by
    subst known
    exact ⟨_, _, rfl, by decide +kernel, by decide +kernel⟩
  subst reason
  have low : Instruction.ofSymbol? (head.symbol.bmod (Nat.pow 2 32)) = some .finish := by
    rw [symbol]
    decide
  have nothing : Instruction.ofSymbol? head.symbol = none := by
    rw [symbol]
    decide
  refine ⟨machine, head, _, final, rfl, going, plain, symbol, stopped, last,
    traceNames_iff.mpr ⟨_, low, rfl⟩, ?_, (rejects_iff plain).mpr nothing, ?_⟩
  · rw [traceNumbers_iff, low]
    exact Option.some_ne_none _
  · rintro instruction ⟨_, stands⟩
    rw [nothing] at stands
    cases stands

end Machine

end Aquarium
