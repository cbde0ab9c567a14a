import Aquarium.Machine.Snapshot

/-!
# Writing under a sink that refuses

Listings, pictures and snapshots never look at what becomes of a piece: they leave it to the relay
to stop. `Relay.passAll_eq` says what a relay passes on of any pieces under any allowance, and
`writeListing_eq`, `writePicture_eq` and `writeSnapshot_eq` that a part written through the relay of
the whole is written as if its pieces stood in the list of the whole. So each of them is cut where
the sink refuses, and nowhere else.
-/

namespace Aquarium

namespace Relay

variable {α : Type}

theorem passAll_cons (relay : Relay α) (piece : α) (pieces : List α) :
    relay.passAll (piece :: pieces) = (relay.pass piece).passAll pieces := rfl

/-- Pieces may be passed on in two goes. -/
theorem passAll_append (relay : Relay α) (earlier later : List α) :
    relay.passAll (earlier ++ later) = (relay.passAll earlier).passAll later :=
  List.foldl_append

/-- What passes the pieces of one item after another passes on the pieces of all items. -/
theorem foldl_passAll {β : Type} (relay : Relay α) (items : List β) (pieces : β → List α) :
    items.foldl (fun relay item => relay.passAll (pieces item)) relay =
      relay.passAll (items.flatMap pieces) := by
  induction items generalizing relay with
  | nil => rfl
  | cons item items hypothesis =>
    rw [List.foldl_cons, hypothesis, List.flatMap_cons, passAll_append]

/-- A sink without an allowance takes every piece. -/
theorem passAll_of_unlimited {sink : Sink α} (unlimited : sink.allowance = none)
    (pieces : List α) :
    (before (.bare sink)).passAll pieces =
      before (.bare { sink with accepted := pieces.reverse ++ sink.accepted }) := by
  induction pieces generalizing sink with
  | nil => rfl
  | cons piece pieces hypothesis =>
    have taken : (before (.bare sink)).pass piece =
        before (.bare { sink with accepted := piece :: sink.accepted }) := by
      simp [pass, before, Destination.offer, Sink.offer, unlimited]
    have rest := @hypothesis { sink with accepted := piece :: sink.accepted } unlimited
    rw [passAll_cons, taken, rest]
    simp

/-- A sink with an allowance takes so many pieces and refuses the next one, and none is offered to
it after that. -/
theorem passAll_of_limited {sink : Sink α} {allowance : Nat}
    (limited : sink.allowance = some allowance) (pieces : List α) :
    (before (.bare sink)).passAll pieces =
      { target := .bare
          { sink with
            allowance := some (allowance - pieces.length)
            accepted := (pieces.take allowance).reverse ++ sink.accepted
            refused := pieces[allowance]?.toList ++ sink.refused }
        failure :=
          if pieces.length ≤ allowance then none else some ["write failed", sink.refusal] } := by
  induction pieces generalizing sink allowance with
  | nil => simp [passAll, before, ← limited]
  | cons piece pieces hypothesis =>
    cases allowance with
    | zero =>
      have refused : (before (.bare sink)).pass piece =
          ⟨.bare { sink with refused := piece :: sink.refused },
            some ["write failed", sink.refusal]⟩ := by
        simp [pass, before, Destination.offer, Sink.offer, limited]
      rw [passAll_cons, refused, passAll_of_failure _ _ rfl]
      simp [← limited]
    | succ allowance =>
      have taken : (before (.bare sink)).pass piece =
          before (.bare
            { sink with allowance := some allowance, accepted := piece :: sink.accepted }) := by
        simp [pass, before, Destination.offer, Sink.offer, limited]
      rw [passAll_cons, taken, hypothesis rfl]
      simp

end Relay

/-! ## What is written, piece by piece -/

namespace CodeBox

open Relay

theorem writeListing_eq (box : CodeBox) (destination : Destination String) :
    box.writeListing destination = destination.deliver box.listing := by
  have line : (fun relay position => (box.writeCell position relay.destination).pass "\n") =
      fun relay position => Relay.passAll relay (box.cellListing position ++ ["\n"]) := by
    funext relay position
    rw [passAll_append]
    rfl
  rw [writeListing, line, foldl_passAll]
  rfl

theorem writePicture_eq (box : CodeBox) (destination : Destination String) :
    box.writePicture destination = destination.deliver box.picture :=
  foldl_passAll (toward destination) box.rows fun cells => [pictureRow cells, "\n"]

end CodeBox

/-- To leave the picture out after a refusal makes no difference. -/
theorem Machine.writeSnapshot_eq (machine : Machine) (destination : Destination String) :
    machine.writeSnapshot destination = destination.deliver machine.snapshot := by
  have whole : machine.snapshot =
      (Snapshot.opening :: Snapshot.numbers machine.tower.active.toList ++
        Snapshot.divider :: machine.tower.active.register.toList.map Number.text ++
          [Snapshot.divider]) ++ machine.box.picture := by
    simp [snapshot]
  rw [whole, Destination.deliver, Relay.passAll_append]
  simp only [writeSnapshot, CodeBox.writePicture_eq]
  split
  · rename_i failed
    exact (Relay.passAll_of_failure _ _ failed).symm
  · rfl

/-! ## Cuts -/

/-- Writing is cut by a refusal, and by nothing else. A sink without an allowance takes all chunks;
one with an allowance takes so many of them, is offered one more if there is one, and none after it.
Nothing is reported if all chunks were taken, and otherwise the refusal of the sink, with one layer
around it. A relay before the sink makes no difference, and after a refusal nothing happens. -/
structure CutExactly (write : Destination String → Relay String) (chunks : List String) :
    Prop where
  unlimited : ∀ sink : Sink String, sink.allowance = none →
    (write (.bare sink)).sink.pieces = sink.pieces ++ chunks ∧
      (write (.bare sink)).sink.refusals = sink.refusals ∧
      (write (.bare sink)).failure = none
  limited : ∀ (sink : Sink String) (allowance : Nat), sink.allowance = some allowance →
    (write (.bare sink)).sink.pieces = sink.pieces ++ chunks.take allowance ∧
      (write (.bare sink)).sink.refusals = sink.refusals ++ chunks[allowance]?.toList ∧
      ((write (.bare sink)).failure = none ↔ chunks.length ≤ allowance) ∧
      (allowance < chunks.length →
        (write (.bare sink)).failure = some ["write failed", sink.refusal])
  relayed : ∀ sink : Sink String,
    write (Relay.before (.bare sink)).destination = write (.bare sink)
  failed : ∀ relay : Relay String, relay.failure.isSome → write relay.destination = relay

/-- What delivers chunks is cut exactly. -/
theorem cutExactly_of_deliver {write : Destination String → Relay String} {chunks : List String}
    (delivers : ∀ destination, write destination = destination.deliver chunks) :
    CutExactly write chunks where
  unlimited := by
    intro sink unlimited
    have passed : write (.bare sink) = _ :=
      (delivers _).trans (Relay.passAll_of_unlimited unlimited chunks)
    rw [passed]
    simp [Relay.before, Relay.sink, Destination.sink, Sink.pieces, Sink.refusals]
  limited := by
    intro sink allowance limited
    have passed : write (.bare sink) = _ :=
      (delivers _).trans (Relay.passAll_of_limited limited chunks)
    rw [passed]
    simp only [Relay.sink, Destination.sink]
    refine ⟨by simp [Sink.pieces], ?_, by simp, fun short => ?_⟩
    · cases chunks[allowance]? <;> simp [Sink.refusals]
    · rw [if_neg (Nat.not_le.mpr short)]
  relayed := by
    intro sink
    rw [delivers, delivers]
    rfl
  failed := by
    intro relay failed
    rw [delivers]
    exact relay.passAll_of_failure chunks failed

/-- Listings, pictures and snapshots reach a sink as a list of chunks, which is cut where the sink
refuses one and nowhere else, also where a part is written through the relay of the whole. -/
theorem listings_and_snapshots_cut_exactly :
    (∀ (box : CodeBox) (position : Position),
      CutExactly (box.writeCell position) (box.cellListing position)) ∧
    (∀ box : CodeBox, CutExactly box.writeListing box.listing) ∧
    (∀ box : CodeBox, CutExactly box.writePicture box.picture) ∧
    ∀ machine : Machine, CutExactly machine.writeSnapshot machine.snapshot :=
  ⟨fun _ _ => cutExactly_of_deliver fun _ => rfl,
    fun box => cutExactly_of_deliver box.writeListing_eq,
    fun box => cutExactly_of_deliver box.writePicture_eq,
    fun machine => cutExactly_of_deliver machine.writeSnapshot_eq⟩

/-- A snapshot of two numbers is refused at the second one, and does not begin again. -/
theorem snapshot_cut_at_second_number :
    ∃ (machine : Machine) (relay : Relay String),
      machine = { Machine.start (.blank 1 1) (.ofDraws [0]) with tower := ⟨⟨[8, 7], none⟩, []⟩ } ∧
      relay = machine.writeSnapshot (.bare (.fresh (some 3) "disk full")) ∧
      relay.sink.pieces = ["\x1c", "7", " "] ∧ relay.sink.refusals = ["8"] ∧
      relay.failure = some ["write failed", "disk full"] ∧
      machine.writeSnapshot relay.destination = relay := by
  generalize known :
    ({ Machine.start (.blank 1 1) (.ofDraws [0]) with tower := ⟨⟨[8, 7], none⟩, []⟩ } : Machine) =
      machine
  have chunks : machine.snapshot = ["\x1c", "7", " ", "8", "\x1d", "\x1d", "", "\n"] := by
    subst known
    decide +kernel
  obtain ⟨_, _, _, cut⟩ := listings_and_snapshots_cut_exactly
  obtain ⟨taken, refused, _, reported⟩ := (cut machine).limited (.fresh (some 3) "disk full") 3 rfl
  rw [chunks] at taken refused reported
  have failure := reported (by decide)
  refine ⟨machine, _, rfl, rfl, taken, refused, failure, (cut machine).failed _ ?_⟩
  rw [failure]
  rfl

end Aquarium
