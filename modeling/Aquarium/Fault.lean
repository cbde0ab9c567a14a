/-!
# Faults and failures

A fault is an error of the running program; a failure is any way an instruction can go wrong, that
is, a fault or trouble with input or output. Their wording is layered: what was being done stands
before what went wrong.
-/

namespace Aquarium

/-- An error of the running program. -/
inductive Fault where
  | underflow
  | divisionByZero
  | invalidInstruction
  | lastStack
  | notACharacter
  deriving DecidableEq, Repr

namespace Fault

/-- The wording of a fault. -/
def message : Fault → String
  | underflow => "stack underflow"
  | divisionByZero => "division by zero"
  | invalidInstruction => "invalid instruction"
  | lastStack => "cannot remove the last stack"
  | notACharacter => "value is not a character"

/-- The fault with a given number, counted from 1. -/
def ofCode? (code : Int) : Option Fault :=
  match code with
  | 1 => some .underflow
  | 2 => some .divisionByZero
  | 3 => some .invalidInstruction
  | 4 => some .lastStack
  | 5 => some .notACharacter
  | _ => none

/-- The wording of the fault with a given number, which may not exist. -/
def messageOfCode (code : Int) : String :=
  match ofCode? code with
  | some fault => fault.message
  | none => "unknown fault"

end Fault

/-- Why an instruction did not complete. -/
inductive Failure where
  | fault (cause : Fault)
  | writing (cause : String)
  | reading (cause : String)
  deriving DecidableEq, Repr

namespace Failure

/-- The wording of a failure, outermost part first. -/
def layers : Failure → List String
  | fault cause => [cause.message]
  | writing cause => ["write failed", cause]
  | reading cause => ["read failed", cause]

/-- Whether the running program is to blame. -/
def isFault : Failure → Bool
  | fault _ => true
  | _ => false

end Failure

/-- The wording of layers in one line. -/
def layersMessage (layers : List String) : String :=
  String.intercalate ": " layers

end Aquarium
