import Aquarium.CodeBox.Listing
import Aquarium.Machine.Step

/-!
# Runs

A run repeats steps until the program ends, a step fails, the limit is reached or the run is
cancelled. Cancellation is looked at every 256 steps, before the limit. Each completed step counts;
a failed one does not. A step that does not come to an end leaves the run where it is.
-/

namespace Aquarium

/-- Where a step failed. -/
structure Site where
  symbol : Int
  position : Position
  step : Nat
  depth : Nat
  deriving DecidableEq

/-- The wording of a site. -/
def Site.message (site : Site) : String :=
  "symbol " ++ toString site.symbol ++ " @" ++ toString site.position.row ++ "," ++
    toString site.position.column ++ ", step " ++ toString site.step ++ ", stack " ++
    toString site.depth

/-- Why a run goes no further. A run that is stuck in a step gives nothing back. -/
inductive Stop where
  | halted
  | limitReached
  | cancelled
  | failed (site : Site) (failure : Failure)
  | notRunning (status : Status)
  | stuck
  deriving DecidableEq

namespace Stop

/-- The wording of a stop, outermost part first. A program that ended leaves nothing to say, and
neither does a run that gives nothing back. -/
def layers : Stop → List String
  | halted => []
  | limitReached => ["instruction limit reached"]
  | cancelled => ["context canceled"]
  | failed site failure => site.message :: failure.layers
  | notRunning status => ["cannot run a " ++ status.name ++ " VM"]
  | stuck => []

/-- Whether the running program is to blame. -/
def isFault : Stop → Bool
  | failed _ failure => failure.isFault
  | _ => false

end Stop

/-- One turn of a run: it stops, or goes on with the next cell. -/
inductive Turn where
  | stop (stop : Stop) (machine : Machine)
  | next (machine : Machine)

/-- How far a run has come: it has stopped, or is still going. -/
inductive Progress where
  | stopped (stop : Stop) (machine : Machine)
  | going (machine : Machine)

namespace Machine

/-! ## Tracing -/

/-- The character that shows a symbol in a trace. -/
def symbolCharacter (symbol : Int) : Char :=
  if 0 ≤ symbol ∧ symbol ≤ lastCode then Char.ofNat symbol.toNat else Glyph.replacement

/-- What a trace says before a step. The lowest 32 bits of the symbol name the instruction. -/
def stepNote (machine : Machine) (symbol : Int) : String :=
  let place := " n=" ++ toString (machine.count + 1) ++ " ip=" ++
    toString machine.cursor.row ++ "," ++ toString machine.cursor.column
  match Instruction.ofSymbol? (symbol.bmod (Nat.pow 2 32)) with
  | some instruction =>
    "instr [" ++ (symbolCharacter symbol).toString ++ "] " ++ instruction.mnemonic ++ place
  | none => "instr [" ++ toString symbol ++ "]" ++ place

/-- Numbers in brackets, the bottom one first. -/
def stackText (stack : Stack) : String :=
  "[" ++ String.intercalate " " (stack.toList.map Number.text) ++ "]"

/-- What a trace says after a step. -/
def stackNote (machine : Machine) : String :=
  "stack " ++ stackText machine.tower.active

/-- Writes down the symbol about to be executed, if a trace is wanted. -/
def noteStep (machine : Machine) (symbol : Int) : Machine :=
  if machine.tracing then
    { machine with journal := machine.stepNote symbol :: machine.journal }
  else machine

/-- Writes down the active stack, if a trace is wanted. -/
def noteStack (machine : Machine) : Machine :=
  if machine.tracing then { machine with journal := machine.stackNote :: machine.journal }
  else machine

/-! ## Running -/

/-- How often cancellation is looked at. -/
def pollInterval : Nat := 256

/-- Whether the limit allows no further step. -/
def atLimit (machine : Machine) : Bool :=
  match machine.limit with
  | none => false
  | some limit => limit ≤ machine.count

/-- Where the next step would fail. -/
def site (machine : Machine) (symbol : Int) : Site where
  symbol
  position := machine.cursor
  step := machine.count + 1
  depth := machine.tower.size

/-- Counts a completed step, and moves on unless the program has ended. -/
def complete (machine : Machine) : Turn :=
  let counted := { machine.noteStack with count := machine.count + 1 }
  if counted.status = .running then .next counted.advance else .stop .halted counted

/-- One turn of a run. -/
def turn (cancelled : Bool) (machine : Machine) : Turn :=
  if machine.status ≠ .running then .stop (.notRunning machine.status) machine
  else if cancelled && machine.count % pollInterval = 0 then .stop .cancelled machine
  else if machine.atLimit then .stop .limitReached machine
  else
    let symbol := machine.symbol
    match (machine.noteStep symbol).step symbol with
    | .done after => after.complete
    | .failed failure after =>
      .stop (.failed (machine.site symbol) failure) { after with status := .faulted }
    | .stuck after => .stop .stuck after

/-- A run of at most so many turns. -/
def run (cancelled : Bool) : Nat → Machine → Progress
  | 0, machine => .going machine
  | turns + 1, machine =>
    match machine.turn cancelled with
    | .stop stop after => .stopped stop after
    | .next after => run cancelled turns after

end Machine

end Aquarium
