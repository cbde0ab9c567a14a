import Aquarium.Machine.Setup
import Aquarium.Proofs.Running

/-!
# Histories of a machine

Around the runs of a machine, whoever owns it may push and pop numbers, adjust it, and write into
its stacks and its box. `Call` lists these, one rule each, with everything they leave behind, and
`History` strings them together in any order. `Turns.keeps`, `adjustAll_keeps` and `History.keeps`
are the inductions that lift what one turn, one adjustment and one call preserve.
-/

namespace Aquarium

/-- Writes over a number of a stack, at a depth counted from the active one. The numbers of a stack
that were handed out stay tied to it when other stacks are opened over it. -/
def Tower.pokeAt (tower : Tower) (depth place : Nat) (number : Number) : Tower :=
  match depth with
  | 0 => { tower with active := tower.active.poke place number }
  | below + 1 =>
    { tower with beneath := tower.beneath.modify below fun stack => stack.poke place number }

@[simp] theorem Tower.size_pokeAt (tower : Tower) (depth place : Nat) (number : Number) :
    (tower.pokeAt depth place number).size = tower.size := by
  cases depth with
  | zero => rfl
  | succ below => simp [pokeAt, size]

/-- The machine that a turn leaves. -/
def Turn.machine : Turn → Machine
  | .stop _ machine => machine
  | .next machine => machine

namespace Machine

/-- One call on a machine from outside, with the machine it leaves. A run that never stops leaves
none; one that is stuck may be given up. -/
inductive Call (machine : Machine) : Machine → Prop where
  | run {last after : Machine} {cancelled : Bool} {stop : Stop} (turns : Turns machine last)
      (stopped : last.turn cancelled = .stop stop after) : Call machine after
  | push (number : Number) : Call machine (machine.push number)
  | pop {number : Number} {after : Machine} (popped : machine.pop? = some (number, after)) :
      Call machine after
  | popNothing (empty : machine.pop? = none) : Call machine machine
  | adjust (adjustments : List Adjustment) : Call machine (machine.adjustAll adjustments).2
  | pushInput (reader : Reader) : Call machine (machine.pushInput reader)
  | pushMissing (name : Nat) : Call machine (machine.pushMissing name)
  | flush : Call machine machine.flush.2
  | poke (depth place : Nat) (number : Number) :
      Call machine { machine with tower := machine.tower.pokeAt depth place number }
  | write (position : Position) (number : Number) :
      Call machine { machine with box := machine.box.set position number }

/-- Any number of calls on a machine, in any order. -/
inductive History (machine : Machine) : Machine → Prop where
  | start : History machine machine
  | call {before after : Machine} (earlier : History machine before) (called : Call before after) :
      History machine after

/-- A run that has stopped is a call. -/
theorem call_of_stopped {cancelled : Bool} {machine after : Machine} {stop : Stop} {turns : Nat}
    (stopped : machine.run cancelled turns = .stopped stop after) : Call machine after := by
  obtain ⟨_, last, _, going, turned⟩ := exists_head_of_stopped stopped
  exact .run (turns_of_going going) turned

/-- What every turn preserves holds at every head of a run. -/
theorem Turns.keeps {holds : Machine → Prop} {machine head : Machine} (turns : Turns machine head)
    (turn : ∀ before cancelled, holds before → holds (before.turn cancelled).machine)
    (first : holds machine) : holds head := by
  induction turns with
  | start => exact first
  | @next head after cancelled earlier turned hypothesis =>
    have kept := turn head cancelled hypothesis
    rw [turned] at kept
    exact kept

/-- Adjustments preserve what each of them does, wherever they stop. -/
theorem adjustAll_keeps {holds : Machine → Prop} {machine : Machine}
    (adjust : ∀ before adjustment after, before.adjust adjustment = .ok after → holds before →
      holds after)
    (adjustments : List Adjustment) (first : holds machine) :
    holds (machine.adjustAll adjustments).2 := by
  induction adjustments generalizing machine with
  | nil => exact first
  | cons adjustment others hypothesis =>
    unfold adjustAll
    split
    · rename_i adjusted made
      exact hypothesis (adjust _ _ _ made first)
    · exact first

/-- What every call preserves holds between all calls. -/
theorem History.keeps {holds : Machine → Prop} {machine after : Machine}
    (history : History machine after)
    (call : ∀ before after, Call before after → holds before → holds after)
    (first : holds machine) : holds after := by
  induction history with
  | start => exact first
  | call earlier called hypothesis => exact call _ _ called hypothesis

end Machine

end Aquarium
