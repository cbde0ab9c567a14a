/-!
# Relays

A sink takes pieces until it has had enough; from then on it refuses them. A relay stands before a
destination, which is a sink or has a relay before it itself, and remembers the first refusal: after
it nothing is passed on. What went wrong is worded where it arises, so every relay on the way adds
its own words to it.
-/

namespace Aquarium

/-- A destination for pieces. It refuses every piece beyond its allowance, if it has one, and keeps
those it has taken and those it has refused, the latest first. -/
structure Sink (α : Type) where
  allowance : Option Nat
  refusal : String
  accepted : List α
  refused : List α

namespace Sink

/-- A sink that has been offered nothing yet. -/
def fresh {α : Type} (allowance : Option Nat) (refusal : String) : Sink α :=
  ⟨allowance, refusal, [], []⟩

/-- Offers a piece: the sink afterwards, and why the piece is refused if it is. -/
def offer {α : Type} (sink : Sink α) (piece : α) : Sink α × Option String :=
  match sink.allowance with
  | none => ({ sink with accepted := piece :: sink.accepted }, none)
  | some 0 => ({ sink with refused := piece :: sink.refused }, some sink.refusal)
  | some (left + 1) =>
    ({ sink with allowance := some left, accepted := piece :: sink.accepted }, none)

/-- The pieces that a sink has taken, in order. -/
def pieces {α : Type} (sink : Sink α) : List α :=
  sink.accepted.reverse

/-- The pieces that a sink has been offered and has not taken, in order. -/
def refusals {α : Type} (sink : Sink α) : List α :=
  sink.refused.reverse

end Sink

/-- Where pieces are to go: to a sink, or through a relay to another destination. The relay has the
wording of the first refusal that it has met, outermost part first. -/
inductive Destination (α : Type) where
  | bare (sink : Sink α)
  | relayed (target : Destination α) (failure : Option (List String))

namespace Destination

/-- Offers a piece: the destination afterwards, and the wording of the refusal if there is one. -/
def offer {α : Type} (piece : α) : Destination α → Destination α × Option (List String)
  | bare sink =>
    let (sink, refusal) := sink.offer piece
    (.bare sink, refusal.map fun cause => [cause])
  | relayed target (some failure) => (.relayed target (some failure), some failure)
  | relayed target none =>
    let (target, refusal) := target.offer piece
    let failure := refusal.map ("write failed" :: ·)
    (.relayed target failure, failure)

/-- The sink that a destination comes down to. -/
def sink {α : Type} : Destination α → Sink α
  | bare sink => sink
  | relayed target _ => target.sink

end Destination

/-- A relay before a destination, with the wording of the first refusal that it has met. -/
structure Relay (α : Type) where
  target : Destination α
  failure : Option (List String)

namespace Relay

variable {α : Type}

/-- A new relay before a destination. -/
def before (target : Destination α) : Relay α :=
  ⟨target, none⟩

/-- A relay as a destination for others. -/
def destination (relay : Relay α) : Destination α :=
  .relayed relay.target relay.failure

/-- The sink that a relay comes down to. -/
def sink (relay : Relay α) : Sink α :=
  relay.target.sink

/-- Passes a piece on, unless one has been refused before. -/
def pass (relay : Relay α) (piece : α) : Relay α :=
  match relay.failure with
  | some _ => relay
  | none =>
    let (target, refusal) := relay.target.offer piece
    ⟨target, refusal.map ("write failed" :: ·)⟩

/-- To pass a piece on is to be offered it as a destination. -/
theorem offer_destination (relay : Relay α) (piece : α) :
    relay.destination.offer piece =
      ((relay.pass piece).destination, (relay.pass piece).failure) := by
  obtain ⟨target, failure⟩ := relay
  cases failure <;> rfl

/-- Passes pieces on, one after another. -/
def passAll (relay : Relay α) (pieces : List α) : Relay α :=
  pieces.foldl pass relay

/-- The relay for what is written to a destination: the one that stands before it already, or a new
one. -/
def toward : Destination α → Relay α
  | .bare sink => before (.bare sink)
  | .relayed target failure => ⟨target, failure⟩

/-- A relay is not put before a relay. -/
@[simp] theorem toward_destination (relay : Relay α) : toward relay.destination = relay := rfl

/-- After a refusal nothing is passed on. -/
theorem passAll_of_failure (relay : Relay α) (pieces : List α)
    (failed : relay.failure.isSome) : relay.passAll pieces = relay := by
  induction pieces with
  | nil => rfl
  | cons piece rest hypothesis =>
    obtain ⟨cause, known⟩ := Option.isSome_iff_exists.mp failed
    have kept : relay.pass piece = relay := by simp [pass, known]
    change (relay.pass piece).passAll rest = relay
    rw [kept, hypothesis]

end Relay

/-- Passes pieces on to a destination. -/
def Destination.deliver {α : Type} (destination : Destination α) (pieces : List α) : Relay α :=
  (Relay.toward destination).passAll pieces

end Aquarium
