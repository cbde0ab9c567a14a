import Aquarium.CodeBox.Basic
import Aquarium.Compass.Basic
import Aquarium.Input
import Aquarium.Instruction
import Aquarium.Output
import Aquarium.Tower

/-!
# The machine

A cursor moves over a code box, which is closed to a torus, and executes the symbols it meets. All
that a program can see or change is a part of the machine, the world included: what the readers are
still going to deliver, and what has been written.
-/

namespace Aquarium

/-- Whether a machine can go on. -/
inductive Status where
  | running
  | halted
  | faulted
  deriving DecidableEq, Repr

namespace Status

/-- The name of a status. -/
def name : Status → String
  | running => "running"
  | halted => "halted"
  | faulted => "faulted"

/-- The status with a given number, counted from 0. -/
def ofCode? (code : Int) : Option Status :=
  match code with
  | 0 => some .running
  | 1 => some .halted
  | 2 => some .faulted
  | _ => none

/-- The name of the status with a given number, which may not exist. -/
def nameOfCode (code : Int) : String :=
  match ofCode? code with
  | some status => status.name
  | none => "unknown"

end Status

/-- A machine with its program and its world. The journal holds the lines of a trace, the latest
first. -/
structure Machine where
  box : CodeBox
  cursor : Position
  heading : Heading
  quoting : Option Quote
  status : Status
  tower : Tower
  count : Nat
  limit : Option Nat
  compass : Compass
  input : Input
  closed : List Nat
  output : Output
  tracing : Bool
  journal : List String

namespace Machine

/-- A machine at the upper left cell of a box, heading right, with one empty stack and no input,
output or limit. -/
def start (box : CodeBox) (compass : Compass) : Machine where
  box
  cursor := ⟨0, 0⟩
  heading := .right
  quoting := none
  status := .running
  tower := .base
  count := 0
  limit := none
  compass
  input := .absent
  closed := []
  output := .closed
  tracing := false
  journal := []

/-- The lines of a trace, in order. -/
def notes (machine : Machine) : List String :=
  machine.journal.reverse

/-- The numbers of the active stack, the top one first. -/
def values (machine : Machine) : List Number :=
  machine.tower.active.values

/-- Replaces the numbers of the active stack. -/
def withValues (machine : Machine) (values : List Number) : Machine :=
  { machine with tower := machine.tower.withValues values }

/-- Puts a number on the active stack. -/
def push (machine : Machine) (number : Number) : Machine :=
  { machine with tower := machine.tower.push number }

/-- Takes a number from the active stack. -/
def pop? (machine : Machine) : Option (Number × Machine) :=
  match machine.values with
  | [] => none
  | top :: rest => some (top, machine.withValues rest)

/-- Writes over a number of the active stack, at a place counted from the bottom. -/
def poke (machine : Machine) (place : Nat) (number : Number) : Machine :=
  { machine with tower := { machine.tower with active := machine.tower.active.poke place number } }

/-- Puts a reader before all others. -/
def pushInput (machine : Machine) (reader : Reader) : Machine :=
  { machine with input := machine.input.push reader }

/-- Makes a place for a reader that is not there. -/
def pushMissing (machine : Machine) (name : Nat) : Machine :=
  { machine with input := machine.input.pushMissing name }

/-- Flushes the output. -/
def flush (machine : Machine) : Option String × Machine :=
  let (failure, output) := machine.output.flush
  (failure, { machine with output })

/-- The symbol under the cursor. -/
def symbol (machine : Machine) : Int :=
  (machine.box.get machine.cursor).toInt

/-- A coordinate brought back into a side of the torus. What the division leaves has the sign of the
coordinate, so a negative rest is one side too low. -/
def around (coordinate : Int) (side : Nat) : Int :=
  let rest := (Number.wrapWord coordinate).tmod side
  if rest < 0 then rest + side else rest

/-- Going around a side takes a coordinate to its residue, which is never negative. -/
theorem around_eq_emod (coordinate : Int) (side : Nat) :
    around coordinate side = Number.wrapWord coordinate % side := by
  unfold around
  dsimp only
  generalize Number.wrapWord coordinate = word
  by_cases level : 0 ≤ word ∨ (side : Int) ∣ word
  · have rest : word.tmod side = word % side := by
      rw [Int.tmod_eq_emod, if_pos level]
      exact Int.sub_zero _
    have above : 0 ≤ word % side := by
      rcases level with nonnegative | divides
      · exact rest ▸ Int.tmod_nonneg _ nonnegative
      · exact Int.le_of_eq (Int.emod_eq_zero_of_dvd divides).symm
    rw [rest, if_neg (Int.not_lt.mpr above)]
  · have rest : word.tmod side = word % side - side := by
      rw [Int.tmod_eq_emod, if_neg level, Int.natAbs_natCast]
    have below : word % side - side < 0 := by
      rcases Nat.eq_zero_or_pos side with rfl | present
      · simpa using (not_or.mp level).1
      · exact Int.sub_neg_of_lt (Int.emod_lt_of_pos word (Int.natCast_pos.mpr present))
    rw [rest, if_pos below, Int.sub_add_cancel]

/-- Moves the cursor one cell on. -/
def advance (machine : Machine) : Machine :=
  { machine with
    cursor :=
      { row := around (machine.cursor.row + machine.heading.rows) machine.box.height
        column := around (machine.cursor.column + machine.heading.columns) machine.box.width } }

end Machine

end Aquarium
