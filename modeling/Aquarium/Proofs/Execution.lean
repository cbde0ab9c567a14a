import Aquarium.Machine.Step

/-!
# What an instruction does

`Executes` lists, one rule each, the ways in which an instruction can end. `executes_iff` says that
the rules and `Machine.execute` agree, so a property of instructions is proved by cases on the rules
and nothing else has to open `execute`.

The rules read and write ten of the fourteen parts of a machine. The other four are its `Ledger`:
the count, the limit and the trace belong to the run around the instructions, and `step_withLedger`
says that no instruction looks at them.
-/

namespace Aquarium

/-! ## Families of instructions -/

namespace Instruction

/-- The change of the active stack that an instruction consists in, if it consists in one. -/
def reshape? : Instruction → Option (Stack → Option Stack)
  | duplicate => some Stack.duplicate?
  | discard => some Stack.discard?
  | swap => some Stack.swap?
  | rotate => some Stack.rotate?
  | shiftRight => some fun stack => some stack.shiftRight
  | shiftLeft => some fun stack => some stack.shiftLeft
  | reverse => some fun stack => some stack.reverse
  | register => some Stack.toggleRegister?
  | _ => none

/-- How many numbers an instruction must find on the active stack. The register instruction needs
one only if the register is empty. -/
def demand (instruction : Instruction) (stack : Stack) : Nat :=
  match instruction with
  | skipUnless => 1
  | duplicate => 1
  | discard => 1
  | openStack => 1
  | writeCharacter => 1
  | writeNumber => 1
  | register => if stack.register.isSome then 0 else 1
  | jump => 2
  | combine _ => 2
  | swap => 2
  | fetch => 2
  | rotate => 3
  | store => 3
  | _ => 0

/-- The piece that a writing instruction makes of the number it takes. -/
inductive Prints : Instruction → Number → Piece → Prop where
  | character {number character} (isCharacter : number.toChar? = some character) :
      Prints .writeCharacter number (.character character)
  | number {number} : Prints .writeNumber number (.text number.text)

/-- A change of the active stack is refused exactly when numbers are missing. -/
theorem reshape_eq_none_iff {instruction : Instruction} {change : Stack → Option Stack}
    (shape : instruction.reshape? = some change) (stack : Stack) :
    change stack = none ↔ stack.size < instruction.demand stack := by
  obtain ⟨values, register⟩ := stack
  cases instruction <;> simp only [reshape?, Option.some.injEq, reduceCtorEq] at shape <;>
    subst shape
  case duplicate => cases values <;> simp [Stack.duplicate?, Stack.size, demand]
  case discard => cases values <;> simp [Stack.discard?, Stack.size, demand]
  case swap =>
    rcases values with _ | ⟨top, _ | ⟨second, rest⟩⟩ <;>
      simp [Stack.swap?, Stack.size, demand]
  case rotate =>
    rcases values with _ | ⟨top, _ | ⟨second, _ | ⟨third, rest⟩⟩⟩ <;>
      simp [Stack.rotate?, Stack.size, demand]
  case register =>
    cases register <;> cases values <;> simp [Stack.toggleRegister?, Stack.size, demand]
  all_goals simp [demand]

end Instruction

/-! ## The rules -/

/-- The ways in which an instruction can end, given the machine that it meets. -/
inductive Executes (machine : Machine) : Instruction → Outcome → Prop where
  | rest : Executes machine .rest (.done machine)
  | face (heading : Heading) : Executes machine (.face heading) (.done { machine with heading })
  | wander {heading compass} (drawn : machine.compass.turn = (heading, compass)) :
      Executes machine .wander (.done { machine with heading, compass })
  | reflect (mirror : Mirror) :
      Executes machine (.reflect mirror)
        (.done { machine with heading := machine.heading.reflect mirror })
  | skip : Executes machine .skip (.done machine.advance)
  | skipped {condition rest} (held : machine.values = condition :: rest)
      (zero : condition.isZero = true) :
      Executes machine .skipUnless (.done (machine.withValues rest).advance)
  | notSkipped {condition rest} (held : machine.values = condition :: rest)
      (nonzero : condition.isZero = false) :
      Executes machine .skipUnless (.done (machine.withValues rest))
  | jump {column row rest} (held : machine.values = column :: row :: rest) :
      Executes machine .jump
        (.done { machine.withValues rest with cursor := ⟨row.toInt, column.toInt⟩ })
  | literal (digit : Fin 16) :
      Executes machine (.literal digit) (.done (machine.push (.ofInt digit.val)))
  | combine {operator right left rest result}
      (held : machine.values = right :: left :: rest)
      (applied : Operator.apply? operator left right = some result) :
      Executes machine (.combine operator) (.done (machine.withValues (result :: rest)))
  | toggle (quote : Quote) :
      Executes machine (.toggle quote)
        (.done
          { machine with
            quoting := if machine.quoting = some quote then none else some quote })
  | reshape {instruction change active} (shape : instruction.reshape? = some change)
      (changed : change machine.tower.active = some active) :
      Executes machine instruction
        (.done { machine with tower := { machine.tower with active } })
  | length : Executes machine .length (.done (machine.push (.ofInt machine.values.length)))
  | openStack {count rest} (held : machine.values = count :: rest)
      (enough : count.canTakeFrom rest.length = true) :
      Executes machine .openStack
        (.done { machine.withValues rest with
          tower := (machine.withValues rest).tower.openStack count.toInt.toNat })
  | closeStack {tower} (merged : machine.tower.closeStack? = some tower) :
      Executes machine .closeStack (.done { machine with tower })
  | write {instruction number rest piece output} (held : machine.values = number :: rest)
      (prints : instruction.Prints number piece)
      (taken : machine.output.write piece = .ok output) :
      Executes machine instruction (.done { machine.withValues rest with output })
  | readRune {value size error input closed}
      (reading : machine.input.readVisible = (.rune value size error, input, closed)) :
      Executes machine .readCharacter
        (.done ({ machine with input, closed := machine.closed ++ closed }.push
          (.ofChar value)))
  | readNothing {ending input closed}
      (reading : machine.input.readVisible = (.ended ending, input, closed))
      (intact : ∀ cause, ending ≠ .broken cause) (answered : ending ≠ .stuck) :
      Executes machine .readCharacter
        (.done ({ machine with input, closed := machine.closed ++ closed }.push (.ofInt (-1))))
  | fetch {row column rest} (held : machine.values = row :: column :: rest) :
      Executes machine .fetch
        (.done (machine.withValues (machine.box.get ⟨row.toInt, column.toInt⟩ :: rest)))
  | store {row column number rest} (held : machine.values = row :: column :: number :: rest) :
      Executes machine .store
        (.done { machine.withValues rest with
          box := machine.box.set ⟨row.toInt, column.toInt⟩ number })
  | finish : Executes machine .finish (.done { machine with status := .halted })
  | underflow {instruction}
      (lacking : machine.values.length < instruction.demand machine.tower.active) :
      Executes machine instruction (.failed (.fault .underflow) machine)
  | countTooLarge {count rest} (held : machine.values = count :: rest)
      (short : count.canTakeFrom rest.length = false) :
      Executes machine .openStack (.failed (.fault .underflow) (machine.withValues rest))
  | divideByZero {operator right left rest} (held : machine.values = right :: left :: rest)
      (undefined : Operator.apply? operator left right = none) :
      Executes machine (.combine operator)
        (.failed (.fault .divisionByZero) (machine.withValues rest))
  | lastStack (alone : machine.tower.closeStack? = none) :
      Executes machine .closeStack (.failed (.fault .lastStack) machine)
  | notACharacter {number rest} (held : machine.values = number :: rest)
      (foreign : number.toChar? = none) :
      Executes machine .writeCharacter
        (.failed (.fault .notACharacter) (machine.withValues rest))
  | refuse {instruction number rest piece cause} (held : machine.values = number :: rest)
      (prints : instruction.Prints number piece)
      (refused : machine.output.write piece = .error cause) :
      Executes machine instruction (.failed (.writing cause) (machine.withValues rest))
  | readBroken {cause input closed}
      (reading : machine.input.readVisible = (.ended (.broken cause), input, closed)) :
      Executes machine .readCharacter
        (.failed (.reading cause) { machine with input, closed := machine.closed ++ closed })
  | readStuck {input closed}
      (reading : machine.input.readVisible = (.ended .stuck, input, closed)) :
      Executes machine .readCharacter
        (.stuck { machine with input, closed := machine.closed ++ closed })

namespace Machine

/-- A change of the active stack ends by one of the rules. -/
theorem executes_withActive? (machine : Machine) {instruction : Instruction}
    (change : Stack → Option Stack) (shape : instruction.reshape? = some change) :
    Executes machine instruction (machine.withActive? (change machine.tower.active)) := by
  cases changed : change machine.tower.active with
  | none =>
    have lacking := (instruction.reshape_eq_none_iff shape _).mp changed
    exact .underflow lacking
  | some active => exact .reshape shape changed

/-- Writing a piece ends by one of the rules. -/
theorem executes_emit {machine : Machine} {instruction : Instruction} {number : Number}
    {rest : List Number} {piece : Piece} (held : machine.values = number :: rest)
    (prints : instruction.Prints number piece) :
    Executes machine instruction ((machine.withValues rest).emit piece) := by
  unfold emit
  cases written : machine.output.write piece with
  | ok output =>
    have same : (machine.withValues rest).output.write piece = .ok output := written
    rw [same]
    exact .write held prints written
  | error cause =>
    have same : (machine.withValues rest).output.write piece = .error cause := written
    rw [same]
    exact .refuse held prints written

/-- Reading a character ends by one of the rules. -/
theorem executes_readCharacter (machine : Machine) :
    Executes machine .readCharacter machine.readCharacter := by
  unfold readCharacter
  rcases reading : machine.input.readVisible with ⟨value | ending, input, closed⟩
  · exact .readRune reading
  · cases ending with
    | exhausted => exact .readNothing reading (by simp) (by simp)
    | broken cause => exact .readBroken reading
    | mute => exact .readNothing reading (by simp) (by simp)
    | stuck => exact .readStuck reading

/-- Opening a stack ends by one of the rules. -/
theorem executes_openStack (machine : Machine) :
    Executes machine .openStack machine.openStack := by
  unfold openStack
  cases held : machine.values with
  | nil => exact .underflow (by simp [held, Instruction.demand])
  | cons count rest =>
    dsimp only
    split
    · rename_i enough
      exact .openStack held enough
    · rename_i short
      exact .countTooLarge held (by simpa using short)

/-- Every instruction ends by one of the rules. -/
theorem executes (machine : Machine) (instruction : Instruction) :
    Executes machine instruction (machine.execute instruction) := by
  cases instruction with
  | rest => exact .rest
  | face heading => exact .face heading
  | wander => exact .wander rfl
  | reflect mirror => exact .reflect mirror
  | skip => exact .skip
  | skipUnless =>
    unfold execute
    cases held : machine.values with
    | nil => exact .underflow (by simp [held, Instruction.demand])
    | cons condition rest =>
      cases test : condition.isZero with
      | true => simpa [test] using .skipped held test
      | false => simpa [test] using .notSkipped held test
  | jump =>
    unfold execute
    rcases held : machine.values with _ | ⟨column, _ | ⟨row, rest⟩⟩
    · exact .underflow (by simp [held, Instruction.demand])
    · exact .underflow (by simp [held, Instruction.demand])
    · exact .jump held
  | literal digit => exact .literal digit
  | combine operator =>
    unfold execute
    rcases held : machine.values with _ | ⟨right, _ | ⟨left, rest⟩⟩
    · exact .underflow (by simp [held, Instruction.demand])
    · exact .underflow (by simp [held, Instruction.demand])
    · cases applied : operator.apply? left right with
      | none => simpa [applied] using .divideByZero held applied
      | some result => simpa [applied] using .combine held applied
  | toggle quote => exact .toggle quote
  | duplicate => exact machine.executes_withActive? Stack.duplicate? rfl
  | discard => exact machine.executes_withActive? Stack.discard? rfl
  | swap => exact machine.executes_withActive? Stack.swap? rfl
  | rotate => exact machine.executes_withActive? Stack.rotate? rfl
  | shiftRight => exact machine.executes_withActive? (fun stack => some stack.shiftRight) rfl
  | shiftLeft => exact machine.executes_withActive? (fun stack => some stack.shiftLeft) rfl
  | reverse => exact machine.executes_withActive? (fun stack => some stack.reverse) rfl
  | length => exact .length
  | openStack => exact machine.executes_openStack
  | closeStack =>
    unfold execute
    cases merged : machine.tower.closeStack? with
    | none => exact .lastStack merged
    | some tower => exact .closeStack merged
  | writeCharacter =>
    unfold execute
    cases held : machine.values with
    | nil => exact .underflow (by simp [held, Instruction.demand])
    | cons number rest =>
      cases decoded : number.toChar? with
      | none => simpa [decoded] using .notACharacter held decoded
      | some character => simpa [decoded] using executes_emit held (.character decoded)
  | writeNumber =>
    unfold execute
    cases held : machine.values with
    | nil => exact .underflow (by simp [held, Instruction.demand])
    | cons number rest => exact executes_emit held .number
  | readCharacter => exact machine.executes_readCharacter
  | register => exact machine.executes_withActive? Stack.toggleRegister? rfl
  | fetch =>
    unfold execute
    rcases held : machine.values with _ | ⟨row, _ | ⟨column, rest⟩⟩
    · exact .underflow (by simp [held, Instruction.demand])
    · exact .underflow (by simp [held, Instruction.demand])
    · exact .fetch held
  | store =>
    unfold execute
    rcases held : machine.values with _ | ⟨row, _ | ⟨column, _ | ⟨number, rest⟩⟩⟩
    · exact .underflow (by simp [held, Instruction.demand])
    · exact .underflow (by simp [held, Instruction.demand])
    · exact .underflow (by simp [held, Instruction.demand])
    · exact .store held
  | finish => exact .finish

/-- A change of the active stack is what such an instruction executes. -/
theorem execute_of_reshape? (machine : Machine) {instruction : Instruction}
    {change : Stack → Option Stack} (shape : instruction.reshape? = some change) :
    machine.execute instruction = machine.withActive? (change machine.tower.active) := by
  cases instruction <;>
    simp only [Instruction.reshape?, Option.some.injEq, reduceCtorEq] at shape <;>
    subst shape <;> rfl

/-- A writing instruction takes a number and writes the piece made of it. -/
theorem execute_of_prints {machine : Machine} {instruction : Instruction} {number : Number}
    {rest : List Number} {piece : Piece} (held : machine.values = number :: rest)
    (prints : instruction.Prints number piece) :
    machine.execute instruction = (machine.withValues rest).emit piece := by
  cases prints with
  | character isCharacter => simp only [execute, held, isCharacter]
  | number => simp only [execute, held]

/-- An instruction that lacks numbers is an underflow and changes nothing. -/
theorem execute_of_lacking (machine : Machine) {instruction : Instruction}
    (lacking : machine.values.length < instruction.demand machine.tower.active) :
    machine.execute instruction = .failed (.fault .underflow) machine := by
  cases instruction
  all_goals try exact absurd lacking (Nat.not_lt_zero _)
  case duplicate | discard | swap | rotate | register =>
    rw [machine.execute_of_reshape? rfl,
      (Instruction.reshape_eq_none_iff rfl machine.tower.active).mpr lacking]
    rfl
  case skipUnless | openStack | writeCharacter | writeNumber =>
    have held : machine.values = [] := List.length_eq_zero_iff.mp (Nat.lt_one_iff.mp lacking)
    simp [execute, openStack, held, underflow]
  case jump | combine | fetch =>
    rcases held : machine.values with _ | ⟨_, _ | ⟨_, rest⟩⟩
    · simp [execute, held, underflow]
    · simp [execute, held, underflow]
    · simp only [held, Instruction.demand, List.length_cons] at lacking
      omega
  case store =>
    rcases held : machine.values with _ | ⟨_, _ | ⟨_, _ | ⟨_, rest⟩⟩⟩
    · simp [execute, held, underflow]
    · simp [execute, held, underflow]
    · simp [execute, held, underflow]
    · simp only [held, Instruction.demand, List.length_cons] at lacking
      omega

/-- The rules allow an instruction no other end. -/
theorem execute_of_executes {machine : Machine} {instruction : Instruction} {outcome : Outcome}
    (rule : Executes machine instruction outcome) : machine.execute instruction = outcome := by
  cases rule with
  | underflow lacking => exact machine.execute_of_lacking lacking
  | reshape shape changed => rw [machine.execute_of_reshape? shape, changed]; rfl
  | write held prints taken =>
    rw [execute_of_prints held prints]
    simp only [emit, withValues, taken]
  | refuse held prints refused =>
    rw [execute_of_prints held prints]
    simp only [emit, withValues, refused]
  | @readNothing ending input closed reading intact answered =>
    cases ending <;> simp_all [execute, readCharacter]
  | _ => simp_all [execute, openStack, readCharacter, underflow]

end Machine

/-- The rules and the function agree. -/
theorem executes_iff {machine : Machine} {instruction : Instruction} {outcome : Outcome} :
    Executes machine instruction outcome ↔ machine.execute instruction = outcome := by
  constructor
  · exact Machine.execute_of_executes
  · rintro rfl
    exact machine.executes instruction

/-! ## The ledger -/

namespace Outcome

/-- The machine that a step leaves behind, completed or not, or is stuck with. -/
def machine : Outcome → Machine
  | done machine => machine
  | failed _ machine => machine
  | stuck machine => machine

/-- The same end with another machine. -/
def map (change : Machine → Machine) : Outcome → Outcome
  | done machine => .done (change machine)
  | failed failure machine => .failed failure (change machine)
  | stuck machine => .stuck (change machine)

@[simp] theorem machine_map (change : Machine → Machine) (outcome : Outcome) :
    (outcome.map change).machine = change outcome.machine := by
  cases outcome <;> rfl

end Outcome

/-- The parts of a machine that serve the run and not the program. -/
structure Ledger where
  count : Nat
  limit : Option Nat
  tracing : Bool
  journal : List String

namespace Machine

/-- The ledger of a machine. -/
def ledger (machine : Machine) : Ledger :=
  ⟨machine.count, machine.limit, machine.tracing, machine.journal⟩

/-- Replaces the ledger of a machine. -/
def withLedger (machine : Machine) (ledger : Ledger) : Machine :=
  { machine with
    count := ledger.count
    limit := ledger.limit
    tracing := ledger.tracing
    journal := ledger.journal }

@[simp] theorem ledger_withLedger (machine : Machine) (ledger : Ledger) :
    (machine.withLedger ledger).ledger = ledger := rfl

@[simp] theorem withLedger_ledger (machine : Machine) :
    machine.withLedger machine.ledger = machine := rfl

end Machine

/-- Every rule applies under any other ledger too, which stays as it is. -/
theorem Executes.withLedger {machine : Machine} {instruction : Instruction} {outcome : Outcome}
    (rule : Executes machine instruction outcome) (ledger : Ledger) :
    Executes (machine.withLedger ledger) instruction (outcome.map (·.withLedger ledger)) := by
  cases rule with
  | rest => exact .rest
  | face heading => exact .face heading
  | wander drawn => exact .wander drawn
  | reflect mirror => exact .reflect mirror
  | skip => exact .skip
  | skipped held zero => exact .skipped held zero
  | notSkipped held nonzero => exact .notSkipped held nonzero
  | jump held => exact .jump held
  | literal digit => exact .literal digit
  | combine held applied => exact .combine held applied
  | toggle quote => exact .toggle quote
  | reshape shape changed => exact .reshape shape changed
  | length => exact .length
  | openStack held enough => exact .openStack held enough
  | closeStack merged => exact .closeStack merged
  | write held prints taken => exact .write held prints taken
  | readRune reading => exact .readRune reading
  | readNothing reading intact answered => exact .readNothing reading intact answered
  | fetch held => exact .fetch held
  | store held => exact .store held
  | finish => exact .finish
  | underflow lacking => exact .underflow lacking
  | countTooLarge held short => exact .countTooLarge held short
  | divideByZero held undefined => exact .divideByZero held undefined
  | lastStack alone => exact .lastStack alone
  | notACharacter held foreign => exact .notACharacter held foreign
  | refuse held prints refused => exact .refuse held prints refused
  | readBroken reading => exact .readBroken reading
  | readStuck reading => exact .readStuck reading

namespace Machine

/-- No instruction looks at the ledger. -/
theorem execute_withLedger (machine : Machine) (ledger : Ledger) (instruction : Instruction) :
    (machine.withLedger ledger).execute instruction =
      (machine.execute instruction).map (·.withLedger ledger) :=
  execute_of_executes ((machine.executes instruction).withLedger ledger)

/-! ## Steps -/

/-- What a step comes down to: string mode takes the symbol as it is, the symbol is executed, or it
stands for nothing. -/
theorem step_cases (machine : Machine) (symbol : Int) :
    machine.takesLiterally symbol = true ∧
        machine.step symbol = .done (machine.push (literalOf symbol)) ∨
      (∃ instruction, machine.takesLiterally symbol = false ∧
        Instruction.ofSymbol? symbol = some instruction ∧
        machine.step symbol = machine.execute instruction) ∨
      machine.takesLiterally symbol = false ∧ Instruction.ofSymbol? symbol = none ∧
        machine.step symbol = .failed (.fault .invalidInstruction) machine := by
  unfold step
  cases machine.takesLiterally symbol with
  | true => exact .inl ⟨rfl, rfl⟩
  | false =>
    cases Instruction.ofSymbol? symbol with
    | some instruction => exact .inr (.inl ⟨instruction, rfl, rfl, rfl⟩)
    | none => exact .inr (.inr ⟨rfl, rfl, rfl⟩)

/-- A step is stuck only in a read, and nothing but the readers is then as it was not before. -/
theorem exists_of_step_stuck {machine after : Machine} {symbol : Int}
    (stuck : machine.step symbol = .stuck after) :
    machine.takesLiterally symbol = false ∧
      Instruction.ofSymbol? symbol = some .readCharacter ∧
      ∃ input closed, machine.input.readVisible = (.ended .stuck, input, closed) ∧
        after = { machine with input, closed := machine.closed ++ closed } := by
  rcases machine.step_cases symbol with
    ⟨_, stepped⟩ | ⟨instruction, executed, stands, stepped⟩ | ⟨_, _, stepped⟩
  · rw [stepped] at stuck
    cases stuck
  · rw [stepped] at stuck
    cases executes_iff.mpr stuck with
    | readStuck reading => exact ⟨executed, stands, _, _, reading, rfl⟩
  · rw [stepped] at stuck
    cases stuck

/-- Outside string mode a symbol is executed. -/
theorem step_of_stands {machine : Machine} (plain : machine.quoting = none) {symbol : Int}
    {instruction : Instruction} (stands : Instruction.ofSymbol? symbol = some instruction) :
    machine.step symbol = machine.execute instruction := by
  simp [step, takesLiterally, plain, stands]

/-- No step looks at the ledger. -/
theorem step_withLedger (machine : Machine) (ledger : Ledger) (symbol : Int) :
    (machine.withLedger ledger).step symbol =
      (machine.step symbol).map (·.withLedger ledger) := by
  have same : (machine.withLedger ledger).takesLiterally symbol =
      machine.takesLiterally symbol := rfl
  unfold step
  rw [same]
  split
  · rfl
  · cases Instruction.ofSymbol? symbol with
    | none => rfl
    | some instruction => exact machine.execute_withLedger ledger instruction

/-- A step leaves the ledger as it is. -/
theorem ledger_step (machine : Machine) (symbol : Int) :
    (machine.step symbol).machine.ledger = machine.ledger := by
  have kept := congrArg Outcome.machine (machine.step_withLedger machine.ledger symbol)
  rw [withLedger_ledger, Outcome.machine_map] at kept
  rw [kept, ledger_withLedger]

end Machine

end Aquarium
