import Aquarium.Proofs.Reassembly
import Mathlib.Data.List.Nodup

/-!
# Contacts with readers

A machine takes readers in, asks them for characters and discards them. `Contact` is one of these
events, and `Input.Log` says step by step which contacts can follow each other. Its invariant `Fits`
tells the readers of an input from the contacts so far: they are those that have come in and are not
discarded, each as far on as it was asked. What is known when a reader is asked or closed
(`Log.exists_of_asked`, `Log.exists_of_closed`) is read off it.
-/

namespace Aquarium

namespace Feed

/-! ## Reads of one reader -/

/-- The last of so many reads comes after the others. -/
theorem after_succ (feed : Feed) (reads : Nat) :
    feed.after (reads + 1) = (feed.after reads).read.2 := by
  induction reads generalizing feed with
  | zero => rfl
  | succ reads hypothesis => exact hypothesis feed.read.2

/-- Reads do not change how a reader ends. -/
theorem ending_after (feed : Feed) (reads : Nat) : (feed.after reads).ending = feed.ending := by
  induction reads with
  | zero => rfl
  | succ reads hypothesis =>
    rw [after_succ, ← hypothesis]
    rcases (feed.after reads).read_cases with
      ⟨_, _, _, _, same, -, kept⟩ | ⟨_, same, -, -, kept⟩
    · rw [same]
      exact kept
    · rw [same]
      exact kept

/-- A reader that has reported its end has nothing left to deliver. -/
theorem after_of_ended {feed : Feed} {reads : Nat} {reason : Ending}
    (ended : (feed.after reads).read.1 = .ended reason) :
    feed.ending = reason ∧ (feed.after (reads + 1)).runes = [] := by
  rcases (feed.after reads).read_cases with ⟨_, _, _, _, same, -⟩ | ⟨_, same, again, -⟩
  · rw [same] at ended
    cases ended
  · rw [same] at ended
    cases ended
    refine ⟨(feed.ending_after reads).symm, ?_⟩
    rw [after_succ, same]
    exact runes_of_ended again

end Feed

/-- What happens between a machine and a reader: the reader comes in, is asked for a character, on
its own or as the first of a pile, or is discarded, which closes it if it can be closed. -/
inductive Contact where
  | pushed (reader : Reader)
  | asked (name : Nat) (piled : Bool) (reading : Reading)
  | discarded (name : Nat) (closes : Bool)
  deriving DecidableEq

namespace Contact

/-! ## Logs -/

/-- The reader that comes in by a contact. -/
def pushed? : Contact → Option Reader
  | pushed reader => some reader
  | _ => none

/-- The name of the reader that is discarded by a contact. -/
def discarded? : Contact → Option Nat
  | discarded name _ => some name
  | _ => none

/-- The name of the reader that is closed by a contact. -/
def closed? : Contact → Option Nat
  | discarded name true => some name
  | _ => none

/-- Whether a contact asks a given reader. -/
def isAsk (name : Nat) : Contact → Bool
  | asked other _ _ => other = name
  | _ => false

/-- The readers that have come in, in order. -/
def pushes (log : List Contact) : List Reader :=
  log.filterMap pushed?

/-- The names of the readers that have been discarded, in order. -/
def discards (log : List Contact) : List Nat :=
  log.filterMap discarded?

/-- The names of the readers that have been closed, in order. -/
def closes (log : List Contact) : List Nat :=
  log.filterMap closed?

/-- How often a reader has been asked. -/
def asks (name : Nat) (log : List Contact) : Nat :=
  log.countP (isAsk name)

/-- The readers that have come in and have not been discarded, the latest first. -/
def held (log : List Contact) : List Reader :=
  (pushes log).reverse.filter fun reader => reader.name ∉ discards log

/-- The readers that can be closed and have not been, the latest first. -/
def unclosed (log : List Contact) : List Reader :=
  (pushes log).reverse.filter fun reader => reader.closable ∧ reader.name ∉ closes log

/-- A reader as far on as it has been asked. -/
def progress (log : List Contact) (reader : Reader) : Reader :=
  { reader with feed := reader.feed.after (asks reader.name log) }

@[simp] theorem name_progress (log : List Contact) (reader : Reader) :
    (progress log reader).name = reader.name := rfl

@[simp] theorem closable_progress (log : List Contact) (reader : Reader) :
    (progress log reader).closable = reader.closable := rfl

theorem pushes_append (log later : List Contact) :
    pushes (log ++ later) = pushes log ++ pushes later :=
  List.filterMap_append

theorem closes_append (log later : List Contact) :
    closes (log ++ later) = closes log ++ closes later :=
  List.filterMap_append

section Concat

variable (log : List Contact) (reader : Reader) (name other : Nat) (piled closing : Bool)
  (reading : Reading)

@[simp] theorem pushes_pushed : pushes (log ++ [.pushed reader]) = pushes log ++ [reader] := by
  simp [pushes, pushed?]

@[simp] theorem pushes_asked : pushes (log ++ [.asked name piled reading]) = pushes log := by
  simp [pushes, pushed?]

@[simp] theorem pushes_discarded : pushes (log ++ [.discarded name closing]) = pushes log := by
  simp [pushes, pushed?]

@[simp] theorem discards_pushed : discards (log ++ [.pushed reader]) = discards log := by
  simp [discards, discarded?]

@[simp] theorem discards_asked : discards (log ++ [.asked name piled reading]) = discards log := by
  simp [discards, discarded?]

@[simp] theorem discards_discarded :
    discards (log ++ [.discarded name closing]) = discards log ++ [name] := by
  simp [discards, discarded?]

@[simp] theorem closes_pushed : closes (log ++ [.pushed reader]) = closes log := by
  simp [closes, closed?]

@[simp] theorem closes_asked : closes (log ++ [.asked name piled reading]) = closes log := by
  simp [closes, closed?]

@[simp] theorem closes_discarded :
    closes (log ++ [.discarded name closing]) = closes log ++ if closing then [name] else [] := by
  cases closing <;> simp [closes, closed?]

@[simp] theorem asks_pushed : asks name (log ++ [.pushed reader]) = asks name log := by
  simp [asks, isAsk]

@[simp] theorem asks_asked :
    asks name (log ++ [.asked other piled reading]) =
      asks name log + if other = name then 1 else 0 := by
  by_cases same : other = name <;> simp [asks, isAsk, same]

@[simp] theorem asks_discarded : asks name (log ++ [.discarded other closing]) = asks name log := by
  simp [asks, isAsk]

end Concat

/-- To close a reader is to discard it. -/
theorem closes_sublist (log : List Contact) : (closes log).Sublist (discards log) := by
  induction log with
  | nil => exact .slnil
  | cons contact rest hypothesis =>
    rcases contact with reader | ⟨name, piled, reading⟩ | ⟨name, closes⟩
    · exact hypothesis
    · exact hypothesis
    · cases closes with
      | true => exact hypothesis.cons_cons name
      | false => exact hypothesis.cons name

theorem mem_held {log : List Contact} {reader : Reader} :
    reader ∈ held log ↔ reader ∈ pushes log ∧ reader.name ∉ discards log := by
  simp [held]

end Contact

open Contact

/-! ## The readers of an input -/

namespace Input

/-- One contact with the readers of an input, after those of a log. A reader comes in once. A reader
of a pile is discarded right after it was asked and reported the end of input. -/
inductive Touch (log : List Contact) : Input → Contact → Input → Prop where
  | push {input : Input} {reader : Reader} (new : reader.name ∉ (pushes log).map Reader.name) :
      Touch log input (.pushed reader) (input.push reader)
  | askAlone {reader : Reader} {reading : Reading} {feed : Feed}
      (read : reader.feed.read = (reading, feed)) :
      Touch log (.single reader) (.asked reader.name false reading) (.single { reader with feed })
  | askFirst {reader : Reader} {others : List Reader} {reading : Reading} {feed : Feed}
      (read : reader.feed.read = (reading, feed)) :
      Touch log (.pile (reader :: others)) (.asked reader.name true reading)
        (.pile ({ reader with feed } :: others))
  | discard {earlier : List Contact} {reader : Reader} {others : List Reader}
      (ended : log = earlier ++ [.asked reader.name true (.ended .exhausted)]) :
      Touch log (.pile (reader :: others)) (.discarded reader.name reader.closable) (.pile others)

/-- The contacts of an input since it was absent, in order. -/
inductive Log : List Contact → Input → Prop where
  | start : Log [] .absent
  | next {log : List Contact} {before after : Input} {contact : Contact} (earlier : Log log before)
      (touch : Touch log before contact after) : Log (log ++ [contact]) after

/-- How many readers must have come in for an input to have its form. -/
def Counts : Input → Nat → Prop
  | absent, count => count = 0
  | single _, count => count = 1
  | pile _, count => 2 ≤ count

theorem Counts.push {input : Input} {count : Nat} (counts : input.Counts count) (reader : Reader) :
    (input.push reader).Counts (count + 1) := by
  cases input with
  | absent => exact congrArg Nat.succ counts
  | single other => exact Nat.le_of_eq (congrArg Nat.succ counts.symm)
  | pile readers => exact Nat.le_succ_of_le counts

/-- What the contacts so far tell of an input. Its readers are those that are held, each as far on
as it has been asked, and the other fields are what keeps this so: names tell readers apart, only
readers that have come in are asked or discarded, and none is discarded twice or while it is the
only one that has come in. -/
structure Fits (log : List Contact) (input : Input) : Prop where
  readers : input.readers = (held log).map (progress log)
  distinct : ((pushes log).map Reader.name).Nodup
  known : ∀ name, name ∈ discards log ∨ 0 < asks name log → name ∈ (pushes log).map Reader.name
  once : (discards log).Nodup
  closings : ∀ reader ∈ pushes log,
    reader.name ∈ closes log ↔ reader.closable ∧ reader.name ∈ discards log
  counts : input.Counts (pushes log).length
  several : discards log ≠ [] → 2 ≤ (pushes log).length

theorem fits_start : Fits [] .absent where
  readers := rfl
  distinct := .nil
  known := by simp [discards, asks]
  once := .nil
  closings := by simp [pushes]
  counts := rfl
  several := by simp [discards]

namespace Fits

variable {log : List Contact} {input : Input}

/-- The readers that are held have different names. -/
theorem nodup_held (fits : Fits log input) : ((held log).map Reader.name).Nodup := by
  have reversed : ((pushes log).reverse.map Reader.name).Nodup := by
    rw [List.map_reverse, List.nodup_reverse]
    exact fits.distinct
  exact reversed.sublist (List.filter_sublist.map Reader.name)

/-- The first reader of an input is the latest that is held. -/
theorem exists_held (fits : Fits log input) {reader : Reader} {others : List Reader}
    (first : input.readers = reader :: others) :
    ∃ owner rest, held log = owner :: rest ∧ owner ∈ pushes log ∧ owner.name ∉ discards log ∧
      progress log owner = reader ∧ rest.map (progress log) = others ∧
      ∀ other ∈ rest, other.name ≠ owner.name := by
  rw [fits.readers] at first
  obtain ⟨owner, rest, latest, progressed, others⟩ := List.map_eq_cons_iff.mp first
  have present : owner ∈ held log := latest ▸ List.mem_cons_self
  obtain ⟨owned, undiscarded⟩ := mem_held.mp present
  have distinct := fits.nodup_held
  rw [latest, List.map_cons, List.nodup_cons] at distinct
  refine ⟨owner, rest, latest, owned, undiscarded, progressed, others, ?_⟩
  intro other member same
  rw [← same] at distinct
  exact distinct.1 (List.mem_map_of_mem member)

/-- A reader that is new comes in before all that are held. -/
theorem push (fits : Fits log input) {reader : Reader}
    (new : reader.name ∉ (pushes log).map Reader.name) :
    Fits (log ++ [.pushed reader]) (input.push reader) := by
  have undiscarded : reader.name ∉ discards log := fun member =>
    new (fits.known _ (.inl member))
  have unclosed : reader.name ∉ closes log := fun member =>
    undiscarded ((closes_sublist log).subset member)
  have unasked : asks reader.name log = 0 :=
    Nat.eq_zero_of_not_pos fun positive => new (fits.known _ (.inr positive))
  refine ⟨?readers, ?distinct, ?known, ?once, ?closings, ?counts, ?several⟩
  case readers =>
    have holds : held (log ++ [.pushed reader]) = reader :: held log := by
      simp [held, undiscarded]
    have progressed : progress (log ++ [.pushed reader]) = progress log := by
      funext other
      simp [progress]
    have fresh : progress log reader = reader := by
      simp [progress, unasked, Feed.after]
    rw [holds, progressed, readers_push, fits.readers, List.map_cons, fresh]
  case distinct =>
    rw [pushes_pushed, List.map_append, List.map_singleton, ← List.concat_eq_append]
    exact fits.distinct.concat new
  case known =>
    intro name contacted
    rw [discards_pushed, asks_pushed] at contacted
    rw [pushes_pushed, List.map_append]
    exact List.mem_append_left _ (fits.known name contacted)
  case once =>
    rw [discards_pushed]
    exact fits.once
  case closings =>
    intro other member
    rw [closes_pushed, discards_pushed]
    rw [pushes_pushed, List.mem_append, List.mem_singleton] at member
    rcases member with old | rfl
    · exact fits.closings other old
    · simp [undiscarded, unclosed]
  case counts =>
    rw [pushes_pushed, List.length_append, List.length_singleton]
    exact fits.counts.push reader
  case several =>
    intro some
    rw [discards_pushed] at some
    rw [pushes_pushed, List.length_append]
    exact Nat.le_add_right_of_le (fits.several some)

/-- A reader that is asked goes on, and the others stay as they are. -/
theorem ask (fits : Fits log input) {after : Input} {reader : Reader} {others : List Reader}
    {reading : Reading} {feed : Feed} (piled : Bool) (first : input.readers = reader :: others)
    (read : reader.feed.read = (reading, feed))
    (left : after.readers = { reader with feed } :: others)
    (form : ∀ count, input.Counts count → after.Counts count) :
    Fits (log ++ [.asked reader.name piled reading]) after := by
  obtain ⟨owner, rest, latest, owned, -, rfl, rfl, different⟩ := fits.exists_held first
  have delivered : (owner.feed.after (asks owner.name log)).read = (reading, feed) := read
  have holds : held (log ++ [.asked owner.name piled reading]) = owner :: rest := by
    rw [← latest]
    simp [held]
  rw [name_progress]
  refine ⟨?readers, ?distinct, ?known, ?once, ?closings, ?counts, ?several⟩
  case readers =>
    have goes : progress (log ++ [.asked owner.name piled reading]) owner =
        { progress log owner with feed } := by
      simp [progress, Feed.after_succ, delivered]
    have stay : rest.map (progress (log ++ [.asked owner.name piled reading])) =
        rest.map (progress log) := by
      apply List.map_congr_left
      intro other member
      simp [progress, (different other member).symm]
    rw [left, holds, List.map_cons, goes, stay]
  case distinct =>
    rw [pushes_asked]
    exact fits.distinct
  case known =>
    intro name contacted
    rw [discards_asked, asks_asked] at contacted
    rw [pushes_asked]
    by_cases same : owner.name = name
    · exact same ▸ List.mem_map_of_mem owned
    · rw [if_neg same] at contacted
      exact fits.known name contacted
  case once =>
    rw [discards_asked]
    exact fits.once
  case closings =>
    intro other member
    rw [pushes_asked] at member
    rw [closes_asked, discards_asked]
    exact fits.closings other member
  case counts =>
    rw [pushes_asked]
    exact form _ fits.counts
  case several =>
    rw [discards_asked, pushes_asked]
    exact fits.several

/-- The first reader of a pile leaves the others as they are when it is discarded. -/
theorem discard (fits : Fits log input) {reader : Reader} {others : List Reader}
    (first : input = .pile (reader :: others)) :
    Fits (log ++ [.discarded reader.name reader.closable]) (.pile others) := by
  subst first
  obtain ⟨owner, rest, latest, owned, undiscarded, rfl, rfl, different⟩ := fits.exists_held rfl
  rw [name_progress, closable_progress]
  refine ⟨?readers, ?distinct, ?known, ?once, ?closings, ?counts, ?several⟩
  case readers =>
    have holds : held (log ++ [.discarded owner.name owner.closable]) = rest := by
      have parts : held (log ++ [.discarded owner.name owner.closable]) =
          (held log).filter fun other => other.name ≠ owner.name := by
        simp [held, List.filter_filter, and_comm]
      rw [parts, latest, List.filter_cons_of_neg (by simp), List.filter_eq_self]
      simpa using different
    have progressed : progress (log ++ [.discarded owner.name owner.closable]) = progress log := by
      funext other
      simp [progress]
    rw [holds, progressed]
    rfl
  case distinct =>
    rw [pushes_discarded]
    exact fits.distinct
  case known =>
    intro name contacted
    rw [discards_discarded, asks_discarded, List.mem_append, List.mem_singleton] at contacted
    rw [pushes_discarded]
    rcases contacted with (old | rfl) | asked
    · exact fits.known name (.inl old)
    · exact List.mem_map_of_mem owned
    · exact fits.known name (.inr asked)
  case once =>
    rw [discards_discarded, ← List.concat_eq_append]
    exact fits.once.concat undiscarded
  case closings =>
    intro other member
    rw [pushes_discarded] at member
    rw [closes_discarded, discards_discarded]
    by_cases same : other.name = owner.name
    · obtain rfl : other = owner := List.inj_on_of_nodup_map fits.distinct member owned same
      cases closable : other.closable <;> simp [fits.closings other member, closable]
    · cases owner.closable <;> simp [fits.closings other member, same]
  case counts =>
    rw [pushes_discarded]
    exact fits.counts
  case several =>
    intro _
    rw [pushes_discarded]
    exact fits.counts

/-- Every contact keeps what the contacts tell of the input. -/
theorem touch (fits : Fits log input) {contact : Contact} {after : Input}
    (touch : Touch log input contact after) : Fits (log ++ [contact]) after := by
  cases touch with
  | push new => exact fits.push new
  | askAlone read => exact fits.ask false rfl read rfl fun _ => id
  | askFirst read => exact fits.ask true rfl read rfl fun _ => id
  | discard ended => exact fits.discard rfl

/-- If all readers that have come in end with the end of input, so do those that are left. -/
theorem exhausts (fits : Fits log input)
    (ends : ∀ reader ∈ pushes log, reader.feed.ending = .exhausted) : input.Exhausts := by
  intro reader member
  rw [fits.readers] at member
  obtain ⟨owner, held, rfl⟩ := List.mem_map.mp member
  exact (owner.feed.ending_after _).trans (ends owner (mem_held.mp held).1)

/-- An input that several readers have come into is a pile. -/
theorem exists_pile (fits : Fits log input) (several : 2 ≤ (pushes log).length) :
    ∃ readers, input = .pile readers := by
  have counts := fits.counts
  cases input with
  | pile readers => exact ⟨readers, rfl⟩
  | absent =>
    simp only [Counts] at counts
    omega
  | single reader =>
    simp only [Counts] at counts
    omega

end Fits

/-- The contacts of an input tell what it has become. -/
theorem Log.fits {log : List Contact} {input : Input} (history : Log log input) :
    Fits log input := by
  induction history with
  | start => exact fits_start
  | next earlier touch hypothesis => exact hypothesis.touch touch

/-! ## What is known at a contact -/

/-- Every contact of a log was made after those before it. -/
theorem Log.exists_touch {log earlier : List Contact} {input : Input} {contact : Contact}
    (history : Log log input) (part : earlier ++ [contact] <+: log) :
    ∃ before after, Log earlier before ∧ Touch earlier before contact after := by
  induction history with
  | start => simp at part
  | next past touch hypothesis =>
    rcases List.prefix_concat_iff.mp part with same | part
    · obtain ⟨rfl, last⟩ := List.append_inj' same rfl
      cases last
      exact ⟨_, _, past, touch⟩
    · exact hypothesis part

/-- A reader that is asked is the first of the input, and gives what it has. -/
theorem Touch.exists_of_asked {log : List Contact} {before after : Input} {name : Nat}
    {piled : Bool} {reading : Reading}
    (touch : Touch log before (.asked name piled reading) after) :
    ∃ reader others, before.readers = reader :: others ∧ reader.name = name ∧
      reader.feed.read.1 = reading := by
  cases touch with
  | askAlone read => exact ⟨_, _, rfl, rfl, congrArg Prod.fst read⟩
  | askFirst read => exact ⟨_, _, rfl, rfl, congrArg Prod.fst read⟩

/-- A reader that is closed is the first of a pile, can be closed and has just reported the end of
input. -/
theorem Touch.exists_of_closed {log : List Contact} {before after : Input} {name : Nat}
    (touch : Touch log before (.discarded name true) after) :
    ∃ earlier reader others, log = earlier ++ [.asked name true (.ended .exhausted)] ∧
      before = .pile (reader :: others) ∧ reader.name = name ∧ reader.closable := by
  generalize same : Contact.discarded name true = contact at touch
  cases touch with
  | discard ended =>
    obtain ⟨rfl, closable⟩ := Contact.discarded.inj same
    exact ⟨_, _, _, ended, rfl, rfl, closable.symm⟩
  | push new => cases same
  | askAlone read => cases same
  | askFirst read => cases same

/-- A reader that is asked has come in and has not been discarded, and gives what it has after all
that it was asked before. -/
theorem Log.exists_of_asked {log earlier : List Contact} {input : Input} {name : Nat}
    {piled : Bool} {reading : Reading} (history : Log log input)
    (part : earlier ++ [.asked name piled reading] <+: log) :
    ∃ owner ∈ pushes earlier, owner.name = name ∧ name ∉ discards earlier ∧
      (owner.feed.after (asks name earlier)).read.1 = reading := by
  obtain ⟨before, after, past, touch⟩ := history.exists_touch part
  obtain ⟨reader, others, first, rfl, reading⟩ := touch.exists_of_asked
  obtain ⟨owner, rest, -, owned, undiscarded, rfl, -⟩ := past.fits.exists_held first
  exact ⟨owner, owned, rfl, undiscarded, reading⟩

/-- The readers that can be closed and have not been are those of the held ones that can be. -/
theorem Fits.unclosed_eq {log : List Contact} {input : Input} (fits : Fits log input) :
    unclosed log = (held log).filter Reader.closable := by
  rw [unclosed, held, List.filter_filter]
  apply List.filter_congr
  intro reader member
  have closings := fits.closings reader (List.mem_reverse.mp member)
  cases closable : reader.closable <;> simp [closings, closable]

/-- A reader that is closed has just been asked as the first of a pile and has reported the end of
input. It is the latest that has not been discarded, and the latest of those that can be closed and
have not been. It ends with the end of input, and has delivered all its runes. -/
theorem Log.exists_of_closed {log earlier : List Contact} {input : Input} {name : Nat}
    (history : Log log input) (part : earlier ++ [.discarded name true] <+: log) :
    ∃ before owner, earlier = before ++ [.asked name true (.ended .exhausted)] ∧
      owner.name = name ∧ (held earlier).head? = some owner ∧
      (unclosed earlier).head? = some owner ∧ owner.feed.ending = .exhausted ∧
      (owner.feed.after (asks name earlier)).runes = [] := by
  obtain ⟨_, _, past, touch⟩ := history.exists_touch part
  obtain ⟨before, reader, others, rfl, rfl, readerNamed, closable⟩ := touch.exists_of_closed
  obtain ⟨owner, rest, latest, owned, -, progressed, -⟩ := past.fits.exists_held rfl
  have named : owner.name = name := (congrArg Reader.name progressed).trans readerNamed
  have closes : owner.closable = true := (congrArg Reader.closable progressed).trans closable
  obtain ⟨asked, present, askedNamed, -, ended⟩ := past.exists_of_asked List.prefix_rfl
  -- The reader that was asked is the one that is closed, since names are distinct.
  obtain rfl : asked = owner := by
    have distinct := past.fits.distinct
    rw [pushes_asked] at distinct owned
    exact List.inj_on_of_nodup_map distinct present owned (askedNamed.trans named.symm)
  obtain ⟨ending, nothing⟩ := Feed.after_of_ended ended
  refine ⟨before, asked, rfl, named, ?_, ?_, ending, ?_⟩
  · rw [latest, List.head?_cons]
  · rw [past.fits.unclosed_eq, latest, List.filter_cons_of_pos closes, List.head?_cons]
  · simpa using nothing

end Input

end Aquarium
