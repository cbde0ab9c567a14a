import Aquarium.Compass.Stirring

/-!
# Pseudo-random words

An additive lagged Fibonacci generator: each word is the sum of two earlier ones, 607 and 273 words
back, modulo `2 ^ 64`. A seed fills the register with a multiplicative congruential sequence, mixed
with fixed words.
-/

namespace Aquarium

/-- The register of the last 607 words and the two places it is read at. -/
structure Generator where
  words : Vector UInt64 607
  tap : Fin 607
  feed : Fin 607

namespace Generator

/-- The modulus of the seeding sequence. -/
def seedModulus : Nat := Nat.pow 2 31 - 1

/-- The next term of the seeding sequence. -/
def nextSeed (term : Nat) : Nat :=
  48271 * term % seedModulus

/-- The first term of the seeding sequence, never 0. -/
def firstTerm (seed : Int) : Nat :=
  let reduced := (seed % seedModulus).toNat
  if reduced = 0 then 89482311 else reduced

/-- How many terms are dropped before the first one is used. -/
def warmUp : Nat := 20

/-- The word that three terms make. -/
def wordOf (first second third : Nat) : UInt64 :=
  (first.toUInt64 <<< 40) ^^^ (second.toUInt64 <<< 20) ^^^ third.toUInt64

/-- So many words from the terms after a given one. -/
def wordsAfter (term : Nat) : Nat → List UInt64
  | 0 => []
  | count + 1 =>
    let first := nextSeed term
    let second := nextSeed first
    let third := nextSeed second
    wordOf first second third :: wordsAfter third count

/-- The generator that a seed starts. -/
def ofSeed (seed : Int) : Generator :=
  let term := Nat.repeat nextSeed warmUp (firstTerm seed)
  let drawn := (wordsAfter term 607).toArray
  { words := Vector.ofFn fun place => drawn.getD place.val 0 ^^^ stirring.get place
    tap := 0
    feed := 334 }

/-- The next word, and the generator after it. -/
def next (generator : Generator) : UInt64 × Generator :=
  let tap := generator.tap - 1
  let feed := generator.feed - 1
  let word := generator.words.get feed + generator.words.get tap
  (word, ⟨generator.words.set feed.val word feed.isLt, tap, feed⟩)

/-- The remainder of a number modulo 4. -/
def quarter (number : Nat) : Fin 4 :=
  Fin.ofNat 4 number

/-- A number below 4, and the generator after it. -/
def draw (generator : Generator) : Fin 4 × Generator :=
  let (word, rest) := generator.next
  (quarter (word >>> 32).toNat, rest)

end Generator

end Aquarium
