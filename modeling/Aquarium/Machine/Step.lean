import Aquarium.Fault
import Aquarium.Machine.Basic
import Aquarium.Number.Decimal

/-!
# One step of the machine

What a symbol does. A step either completes or fails, and a failed step leaves behind the machine
without the numbers it had taken from the active stack. Only a step that reads may do neither.
-/

namespace Aquarium

/-- The end of a step: a machine, and why the step failed if it did. A step that is stuck does not
come to an end, and the machine is the one that it is stuck with. -/
inductive Outcome where
  | done (machine : Machine)
  | failed (failure : Failure) (machine : Machine)
  | stuck (machine : Machine)

/-- The result of an operator, unless it divides by zero. -/
def Operator.apply? (operator : Operator) (left right : Number) : Option Number :=
  match operator with
  | add => some (left.add right)
  | subtract => some (left.sub right)
  | multiply => some (left.mul right)
  | divide => if right.isZero then none else some (left.div right)
  | modulo => if right.isZero then none else some (left.modulo right)
  | equal => some (.ofBool (left.equals right))
  | greater => some (.ofBool (left.greaterThan right))
  | less => some (.ofBool (left.lessThan right))

/-- Whether a count of numbers to take can be met from as many as are left. The count is compared
before its fraction is dropped. Beyond 2 ^ 53 the comparison is with a rounded length, so it does
not say by itself that there are enough. -/
def Number.canTakeFrom (count : Number) (left : Nat) : Bool :=
  count.isFinite && !count.greaterThan (.ofInt left) && count.toInt.toNat ≤ left

namespace Machine

/-- A step that fails for lack of numbers. -/
def underflow (machine : Machine) : Outcome :=
  .failed (.fault .underflow) machine

/-- A step that changes the active stack, if it holds enough numbers. -/
def withActive? (machine : Machine) (changed : Option Stack) : Outcome :=
  match changed with
  | some active => .done { machine with tower := { machine.tower with active } }
  | none => machine.underflow

/-- A step that writes a piece. -/
def emit (machine : Machine) (piece : Piece) : Outcome :=
  match machine.output.write piece with
  | .ok output => .done { machine with output }
  | .error cause => .failed (.writing cause) machine

/-- Reads the next character that is not a line feed and puts its code on the stack, or -1 at the
end of input. An error that came together with a character is passed over. -/
def readCharacter (machine : Machine) : Outcome :=
  let (reading, input, closed) := machine.input.readVisible
  let after := { machine with input, closed := machine.closed ++ closed }
  match reading with
  | .rune value _ _ => .done (after.push (.ofChar value))
  | .ended (.broken cause) => .failed (.reading cause) after
  | .ended .stuck => .stuck after
  | .ended _ => .done (after.push (.ofInt (-1)))

/-- Takes a count from the active stack and opens a new stack with that many numbers of it. -/
def openStack (machine : Machine) : Outcome :=
  match machine.values with
  | [] => machine.underflow
  | count :: rest =>
    let popped := machine.withValues rest
    if count.canTakeFrom rest.length then
      .done { popped with tower := popped.tower.openStack count.toInt.toNat }
    else popped.underflow

/-- Executes an instruction. -/
def execute (machine : Machine) (instruction : Instruction) : Outcome :=
  match instruction with
  | .rest => .done machine
  | .face heading => .done { machine with heading }
  | .wander =>
    let (heading, compass) := machine.compass.turn
    .done { machine with heading, compass }
  | .reflect mirror => .done { machine with heading := machine.heading.reflect mirror }
  | .skip => .done machine.advance
  | .skipUnless =>
    match machine.values with
    | [] => machine.underflow
    | condition :: rest =>
      let popped := machine.withValues rest
      .done (if condition.isZero then popped.advance else popped)
  | .jump =>
    match machine.values with
    | column :: row :: rest =>
      .done { machine.withValues rest with cursor := ⟨row.toInt, column.toInt⟩ }
    | _ => machine.underflow
  | .literal digit => .done (machine.push (.ofInt digit.val))
  | .combine operator =>
    match machine.values with
    | right :: left :: rest =>
      match operator.apply? left right with
      | some result => .done (machine.withValues (result :: rest))
      | none => .failed (.fault .divisionByZero) (machine.withValues rest)
    | _ => machine.underflow
  | .toggle quote =>
    .done { machine with quoting := if machine.quoting = some quote then none else some quote }
  | .duplicate => machine.withActive? machine.tower.active.duplicate?
  | .discard => machine.withActive? machine.tower.active.discard?
  | .swap => machine.withActive? machine.tower.active.swap?
  | .rotate => machine.withActive? machine.tower.active.rotate?
  | .shiftRight => machine.withActive? (some machine.tower.active.shiftRight)
  | .shiftLeft => machine.withActive? (some machine.tower.active.shiftLeft)
  | .reverse => machine.withActive? (some machine.tower.active.reverse)
  | .length => .done (machine.push (.ofInt machine.values.length))
  | .openStack => machine.openStack
  | .closeStack =>
    match machine.tower.closeStack? with
    | some tower => .done { machine with tower }
    | none => .failed (.fault .lastStack) machine
  | .writeCharacter =>
    match machine.values with
    | [] => machine.underflow
    | number :: rest =>
      match number.toChar? with
      | some character => (machine.withValues rest).emit (.character character)
      | none => .failed (.fault .notACharacter) (machine.withValues rest)
  | .writeNumber =>
    match machine.values with
    | [] => machine.underflow
    | number :: rest => (machine.withValues rest).emit (.text number.text)
  | .readCharacter => machine.readCharacter
  | .register => machine.withActive? machine.tower.active.toggleRegister?
  | .fetch =>
    match machine.values with
    | row :: column :: rest =>
      .done (machine.withValues (machine.box.get ⟨row.toInt, column.toInt⟩ :: rest))
    | _ => machine.underflow
  | .store =>
    match machine.values with
    | row :: column :: number :: rest =>
      .done
        { machine.withValues rest with
          box := machine.box.set ⟨row.toInt, column.toInt⟩ number }
    | _ => machine.underflow
  | .finish => .done { machine with status := .halted }

/-- Whether string mode takes a symbol as it is: every symbol but the one that ends the mode. -/
def takesLiterally (machine : Machine) (symbol : Int) : Bool :=
  match machine.quoting with
  | none => false
  | some quote => symbol ≠ quote.symbol

/-- Whether the symbol under the cursor reads input. -/
def awaitsInput (machine : Machine) : Bool :=
  !machine.takesLiterally machine.symbol &&
    Instruction.ofSymbol? machine.symbol = some .readCharacter

/-- The number that string mode puts on the stack for a symbol: an empty cell counts as a space. -/
def literalOf (symbol : Int) : Number :=
  .ofInt (if symbol = 0 then 0x20 else symbol)

/-- Takes a symbol as it is or executes it. -/
def step (machine : Machine) (symbol : Int) : Outcome :=
  if machine.takesLiterally symbol then .done (machine.push (literalOf symbol))
  else
    match Instruction.ofSymbol? symbol with
    | some instruction => machine.execute instruction
    | none => .failed (.fault .invalidInstruction) machine

end Machine

end Aquarium
