import Aquarium.Machine.Basic

/-!
# Setting up a machine

A machine is made for a code box and then adjusted, one adjustment after another. The first one that
cannot be made ends the setup; those before it stand.
-/

namespace Aquarium

/-- Something to change about a machine. A reader may not be there, and a trace needs a journal,
which may not be there either. -/
inductive Adjustment where
  | push (numbers : List Number)
  | limit (steps : Int)
  | compass (compass : Compass)
  | input (reader : Reader)
  | missing (name : Nat)
  | output (outlet : Option Outlet)
  | trace (wanted : Option Bool)

/-- Why a machine cannot be set up. -/
inductive SetupProblem where
  | emptyBox
  | negativeLimit (steps : Int)
  | noJournal
  deriving DecidableEq

/-- The wording of a problem. -/
def SetupProblem.message : SetupProblem → String
  | emptyBox => "empty grid"
  | negativeLimit steps => "invalid instruction limit " ++ toString steps
  | noJournal => "nil logger"

namespace Machine

/-- Sets the limit. A limit of 0 is none. -/
def withLimit (machine : Machine) (steps : Nat) : Machine :=
  { machine with limit := if steps = 0 then none else some steps }

/-- Makes an adjustment. -/
def adjust (machine : Machine) : Adjustment → Except SetupProblem Machine
  | .push numbers =>
    .ok
      { machine with
        tower := { machine.tower with active := machine.tower.active.pushAll numbers } }
  | .limit steps =>
    if steps < 0 then .error (.negativeLimit steps) else .ok (machine.withLimit steps.toNat)
  | .compass compass => .ok { machine with compass }
  | .input reader => .ok (machine.pushInput reader)
  | .missing name => .ok (machine.pushMissing name)
  | .output outlet => .ok { machine with output := machine.output.redirect outlet }
  | .trace none => .error .noJournal
  | .trace (some wanted) => .ok { machine with tracing := wanted }

/-- Makes adjustments up to the first that cannot be made. -/
def adjustAll (machine : Machine) : List Adjustment → Option SetupProblem × Machine
  | [] => (none, machine)
  | adjustment :: rest =>
    match machine.adjust adjustment with
    | .ok adjusted => adjusted.adjustAll rest
    | .error problem => (some problem, machine)

/-- A machine for a box, with adjustments. The box must have a cell. -/
def create (box : Option CodeBox) (compass : Compass) (adjustments : List Adjustment) :
    Except SetupProblem Machine :=
  match box with
  | none => .error .emptyBox
  | some box =>
    if box.height = 0 ∨ box.width = 0 then .error .emptyBox
    else
      match (start box compass).adjustAll adjustments with
      | (none, machine) => .ok machine
      | (some problem, _) => .error problem

end Machine

end Aquarium
