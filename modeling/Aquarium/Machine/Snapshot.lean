import Aquarium.CodeBox.Listing
import Aquarium.Machine.Basic

/-!
# Snapshots

What a machine leaves behind: the active stack, its register and a picture of the code box, with
separators that occur in none of them. A snapshot is given as the pieces in which it is written, and
as what writing it makes of a destination.
-/

namespace Aquarium

namespace Snapshot

/-- Opens a snapshot. -/
def opening : String := "\x1c"

/-- Stands between the sections of a snapshot. -/
def divider : String := "\x1d"

/-- The pieces of a list of numbers: a space before each but the first. -/
def numbers (numbers : List Number) : List String :=
  (numbers.map Number.text).intersperse " "

end Snapshot

/-- The pieces of a snapshot. -/
def Machine.snapshot (machine : Machine) : List String :=
  Snapshot.opening :: Snapshot.numbers machine.tower.active.toList ++
    Snapshot.divider :: (machine.tower.active.register.toList.map Number.text) ++
    Snapshot.divider :: machine.box.picture

/-- Writes a snapshot. The picture is not begun once a piece has been refused. -/
def Machine.writeSnapshot (machine : Machine) (destination : Destination String) : Relay String :=
  let active := machine.tower.active
  let relay := destination.deliver
    (Snapshot.opening :: Snapshot.numbers active.toList ++
      Snapshot.divider :: active.register.toList.map Number.text ++ [Snapshot.divider])
  if relay.failure.isSome then relay else machine.box.writePicture relay.destination

end Aquarium
