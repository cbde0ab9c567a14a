/-!
# Headings

The four ways a cursor moves, and what the mirrors make of them.
-/

namespace Aquarium

/-- The way a cursor moves. -/
inductive Heading where
  | right
  | left
  | up
  | down
  deriving DecidableEq, Repr

/-- A mirror in the way of a cursor. -/
inductive Mirror where
  | slash
  | backslash
  | upright
  | level
  | sharp
  deriving DecidableEq, Repr

namespace Heading

/-- By how many rows a step moves down. -/
def rows : Heading → Int
  | up => -1
  | down => 1
  | _ => 0

/-- By how many columns a step moves to the right. -/
def columns : Heading → Int
  | left => -1
  | right => 1
  | _ => 0

/-- The way back. -/
def opposite : Heading → Heading
  | right => .left
  | left => .right
  | up => .down
  | down => .up

/-- The heading after a mirror: a slanted one turns, an upright one turns back what comes from the
side, a level one what comes from above or below, and a sharp one everything. -/
def reflect : Mirror → Heading → Heading
  | .slash, right => .up
  | .slash, left => .down
  | .slash, up => .right
  | .slash, down => .left
  | .backslash, right => .down
  | .backslash, left => .up
  | .backslash, up => .left
  | .backslash, down => .right
  | .upright, right => .left
  | .upright, left => .right
  | .upright, heading => heading
  | .level, up => .down
  | .level, down => .up
  | .level, heading => heading
  | .sharp, heading => heading.opposite

/-- The way back from the way back is the way. -/
@[simp] theorem opposite_opposite (heading : Heading) : heading.opposite.opposite = heading := by
  cases heading <;> rfl

@[simp] theorem rows_opposite (heading : Heading) : heading.opposite.rows = -heading.rows := by
  cases heading <;> rfl

@[simp] theorem columns_opposite (heading : Heading) :
    heading.opposite.columns = -heading.columns := by
  cases heading <;> rfl

/-- Meeting the same mirror twice leaves a heading as it was. -/
@[simp] theorem reflect_reflect (mirror : Mirror) (heading : Heading) :
    reflect mirror (reflect mirror heading) = heading := by
  cases mirror <;> cases heading <;> rfl

/-- The heading that a draw out of four stands for. -/
def ofDraw (draw : Fin 4) : Heading :=
  match draw with
  | 0 => .down
  | 1 => .up
  | 2 => .right
  | 3 => .left

end Heading

end Aquarium
