import Aquarium.Compass.Generator
import Aquarium.Heading

/-!
# Compasses

Where the headings of wandering cursors come from: a seeded generator, or a fixed list of draws that
is used over and over.
-/

namespace Aquarium

/-- A source of headings. -/
inductive Compass where
  | seeded (generator : Generator)
  | scripted (draws : Array (Fin 4)) (used : Nat)

namespace Compass

/-- The compass that a seed starts. -/
def ofSeed (seed : Int) : Compass :=
  .seeded (.ofSeed seed)

/-- The compass that follows a list of draws. A draw counts modulo 4. -/
def ofDraws (draws : List Int) : Compass :=
  .scripted (draws.map fun draw => Generator.quarter (draw % 4).toNat).toArray 0

/-- The next heading, and the compass after it. -/
def turn : Compass → Heading × Compass
  | seeded generator =>
    let (draw, rest) := generator.draw
    (.ofDraw draw, .seeded rest)
  | scripted draws used =>
    (.ofDraw (draws.getD (used % draws.size) (Generator.quarter 0)), .scripted draws (used + 1))

end Compass

end Aquarium
