import Aquarium.Proofs.Contacts
import Aquarium.Proofs.Contexts
import Aquarium.Proofs.History
import Aquarium.Proofs.SourceText

/-!
# How readers are discarded

The contacts of a read are listed beside the definitions of reading, case by case, and `Leads` says
that they lead from the input before it to the input after it and close the readers that it closes.
`Machine.Attends` is a machine with all the contacts that it has had with its readers, whatever else
was done with it (`Attends.exists_of_history`), so the main statement has only to look at logs.
-/

namespace Aquarium

open Contact

namespace Input

/-! ## The contacts of a read -/

/-- The contacts of a read from a pile. -/
def contactsPile : List Reader → List Contact
  | [] => []
  | reader :: others =>
    match reader.feed.read with
    | (.ended .exhausted, _) =>
      .asked reader.name true (.ended .exhausted) :: .discarded reader.name reader.closable ::
        contactsPile others
    | (reading, _) => [.asked reader.name true reading]

/-- The contacts of a read. -/
def contacts : Input → List Contact
  | absent => []
  | single reader => [.asked reader.name false reader.feed.read.1]
  | pile readers => contactsPile readers

/-- The contacts of a read that passes over at most so many line feeds. -/
def contactsPast : Nat → Input → List Contact
  | 0, input => input.contacts
  | attempts + 1, input =>
    let (reading, left, _) := input.read
    if isLineFeed reading then input.contacts ++ contactsPast attempts left else input.contacts

/-- The contacts of a read that passes over line feeds. -/
def contactsVisible (input : Input) : List Contact :=
  input.contactsPast input.size

/-- What a read from the first reader of a pile does: it discards the reader and goes on with the
others, or that reader is all it asks. -/
theorem readPile_cases (reader : Reader) (others : List Reader) :
    (∃ feed, reader.feed.read = (.ended .exhausted, feed) ∧
      readPile (reader :: others) =
        ((readPile others).1, (readPile others).2.1,
          (if reader.closable then [reader.name] else []) ++ (readPile others).2.2) ∧
      contactsPile (reader :: others) =
        [.asked reader.name true (.ended .exhausted)] ++
          [.discarded reader.name reader.closable] ++ contactsPile others) ∨
    ∃ reading feed, reader.feed.read = (reading, feed) ∧ reading ≠ .ended .exhausted ∧
      readPile (reader :: others) = (reading.pardoned, { reader with feed } :: others, []) ∧
      contactsPile (reader :: others) = [.asked reader.name true reading] := by
  rcases found : reader.feed.read with ⟨⟨value, size, error⟩ | ending, feed⟩
  · exact .inr ⟨_, feed, rfl, nofun, by simp [readPile, found], by simp [contactsPile, found]⟩
  · cases ending with
    | exhausted =>
      refine .inl ⟨feed, rfl, ?_, by simp [contactsPile, found]⟩
      cases closable : reader.closable <;> simp [readPile, found, closable]
    | broken cause =>
      exact .inr ⟨_, feed, rfl, nofun, by simp [readPile, found], by simp [contactsPile, found]⟩
    | mute =>
      exact .inr ⟨_, feed, rfl, nofun, by simp [readPile, found], by simp [contactsPile, found]⟩
    | stuck =>
      exact .inr ⟨_, feed, rfl, nofun, by simp [readPile, found], by simp [contactsPile, found]⟩

/-- Contacts that lead from one input to another, and close some readers. No reader comes in. -/
structure Leads (input : Input) (contacts : List Contact) (left : Input) (closed : List Nat) :
    Prop where
  log {log : List Contact} : Log log input → Log (log ++ contacts) left
  closes : closes contacts = closed
  pushes : pushes contacts = []

theorem leads_nil (input : Input) : Leads input [] input [] :=
  ⟨fun history => by simpa using history, rfl, rfl⟩

theorem Leads.append {input middle left : Input} {contacts later : List Contact}
    {closed closedLater : List Nat} (first : Leads input contacts middle closed)
    (second : Leads middle later left closedLater) :
    Leads input (contacts ++ later) left (closed ++ closedLater) := by
  refine ⟨fun history => ?_, ?_, ?_⟩
  · rw [← List.append_assoc]
    exact second.log (first.log history)
  · rw [closes_append, first.closes, second.closes]
  · rw [pushes_append, first.pushes, second.pushes, List.append_nil]

/-- The first reader of a pile that is exhausted is discarded. -/
theorem leads_discard {reader : Reader} {feed : Feed}
    (read : reader.feed.read = (.ended .exhausted, feed)) (others : List Reader) :
    Leads (.pile (reader :: others))
      ([.asked reader.name true (.ended .exhausted)] ++ [.discarded reader.name reader.closable])
      (.pile others) (if reader.closable then [reader.name] else []) := by
  refine ⟨fun history => ?_, ?_, ?_⟩
  · rw [← List.append_assoc]
    have asked := history.next (.askFirst read)
    exact asked.next (.discard rfl)
  · cases closable : reader.closable <;> rfl
  · rfl

theorem leads_contactsPile (readers : List Reader) :
    Leads (.pile readers) (contactsPile readers) (.pile (readPile readers).2.1)
      (readPile readers).2.2 := by
  induction readers with
  | nil => exact leads_nil _
  | cons reader others hypothesis =>
    rcases readPile_cases reader others with
      ⟨feed, read, same, listed⟩ | ⟨reading, feed, read, -, same, listed⟩
    · rw [same, listed]
      exact (leads_discard read others).append hypothesis
    · rw [same, listed]
      exact ⟨fun history => history.next (.askFirst read), rfl, rfl⟩

theorem leads_contacts (input : Input) :
    Leads input input.contacts input.read.2.1 input.read.2.2 := by
  cases input with
  | absent => exact leads_nil _
  | single reader => exact ⟨fun history => history.next (.askAlone rfl), rfl, rfl⟩
  | pile readers => exact leads_contactsPile readers

theorem leads_contactsPast (attempts : Nat) (input : Input) :
    Leads input (input.contactsPast attempts) (input.readPast attempts).2.1
      (input.readPast attempts).2.2 := by
  induction attempts generalizing input with
  | zero => exact leads_contacts input
  | succ attempts hypothesis =>
    have first := leads_contacts input
    rcases read : input.read with ⟨reading, left, closed⟩
    rw [read] at first
    cases blank : isLineFeed reading with
    | false => simpa [contactsPast, readPast, read, blank] using first
    | true => simpa [contactsPast, readPast, read, blank] using first.append (hypothesis left)

/-- A read that passes over line feeds makes the contacts listed for it. -/
theorem leads_contactsVisible (input : Input) :
    Leads input input.contactsVisible input.readVisible.2.1 input.readVisible.2.2 :=
  leads_contactsPast input.size input

/-! ## Reads that find nothing -/

/-- A pile that has nothing to deliver is left without readers. -/
theorem readPile_of_exhausted {readers : List Reader}
    (ended : (readPile readers).1 = .ended .exhausted) : (readPile readers).2.1 = [] := by
  induction readers with
  | nil => rfl
  | cons reader others hypothesis =>
    rcases readPile_cases reader others with ⟨_, -, same, -⟩ | ⟨_, _, -, other, same, -⟩
    · rw [same] at ended ⊢
      exact hypothesis ended
    · rw [same] at ended
      exact absurd (Reading.eq_ended_of_pardoned ended) other

theorem readPast_of_exhausted (attempts : Nat) {readers : List Reader}
    (ended : ((Input.pile readers).readPast attempts).1 = .ended .exhausted) :
    ((Input.pile readers).readPast attempts).2.1 = .pile [] := by
  induction attempts generalizing readers with
  | zero => exact congrArg Input.pile (readPile_of_exhausted ended)
  | succ attempts hypothesis =>
    rcases read : readPile readers with ⟨reading, left, closed⟩
    cases blank : isLineFeed reading with
    | false =>
      have nothing := @readPile_of_exhausted readers
      simp_all [readPast, Input.read]
    | true =>
      simp only [readPast, Input.read, read, blank, if_true] at ended ⊢
      exact hypothesis ended

/-- Once no reader is held, all that can be closed have been closed exactly once. -/
theorem Fits.count_closes {log : List Contact} {input : Input} (fits : Fits log input)
    (nothing : input.readers = []) {reader : Reader} (member : reader ∈ pushes log)
    (closable : reader.closable = true) : (closes log).count reader.name = 1 := by
  have discarded : reader.name ∈ discards log := by
    rw [fits.readers, List.map_eq_nil_iff] at nothing
    by_contra kept
    exact List.not_mem_nil (nothing ▸ mem_held.mpr ⟨member, kept⟩)
  apply List.count_eq_one_of_mem
  · exact fits.once.sublist (closes_sublist log)
  · exact (fits.closings reader member).mpr ⟨closable, discarded⟩

end Input

/-- No character has the code that stands for the end of input. -/
theorem Number.ofChar_ne_ofInt_neg_one (character : Char) : ofChar character ≠ ofInt (-1) := by
  intro same
  have negative := congrArg toInt same
  have known : (ofInt (-1)).toInt = -1 := by decide
  rw [toInt_ofChar, known] at negative
  omega

/-! ## Machines -/

namespace Machine

/-- What a machine has been through and the contacts with its readers on the way: it takes a reader
in, executes a read instruction, or does something that touches no reader. -/
inductive Attends (machine : Machine) : List Contact → Machine → Prop where
  | start : Attends machine [] machine
  | push {log : List Contact} {before : Machine} (earlier : Attends machine log before)
      (reader : Reader) : Attends machine (log ++ [.pushed reader]) (before.pushInput reader)
  | read {log : List Contact} {before : Machine} (earlier : Attends machine log before) :
      Attends machine (log ++ before.input.contactsVisible)
        (before.execute .readCharacter).machine
  | other {log : List Contact} {before after : Machine} (earlier : Attends machine log before)
      (input : after.input = before.input) (closed : after.closed = before.closed) :
      Attends machine log after

namespace Attends

variable {machine : Machine}

/-- A reader that is not there comes in only where there is an input already. -/
theorem exists_pushMissing {before : Machine} (name : Nat)
    (attended : ∃ log, Attends machine log before) :
    ∃ log, Attends machine log (before.pushMissing name) := by
  obtain ⟨log, attends⟩ := attended
  cases held : before.input with
  | absent =>
    have kept : (before.pushMissing name).input = before.input := by
      rw [held]
      simp only [pushMissing, held, Input.pushMissing]
    exact ⟨log, .other attends kept rfl⟩
  | single _ | pile _ =>
    have pushed : before.pushMissing name = before.pushInput (.missing name) := by
      simp only [pushMissing, pushInput, held, Input.pushMissing]
    exact ⟨_, pushed ▸ attends.push (.missing name)⟩

/-- A turn makes the contacts of a read instruction or none. -/
theorem exists_turn (before : Machine) (cancelled : Bool)
    (attended : ∃ log, Attends machine log before) :
    ∃ log, Attends machine log (before.turn cancelled).machine := by
  obtain ⟨log, attends⟩ := attended
  rcases before.turn_held_or_acts cancelled with ⟨_, held, -⟩ | ⟨-, -, -, acts⟩
  · rw [held]
    exact ⟨log, attends⟩
  · rw [acts]
    have input : before.act.machine.input = (before.step before.symbol).machine.input :=
      view_act (fun _ _ _ _ => rfl) before
    have closed : before.act.machine.closed = (before.step before.symbol).machine.closed :=
      view_act (fun _ _ _ _ => rfl) before
    rcases before.step_reads_or_keeps before.symbol with
      ⟨_, _, reads⟩ | ⟨inputKept, closedKept⟩
    · rw [reads] at input closed
      exact ⟨_, .other attends.read input closed⟩
    · exact ⟨log, .other attends (input.trans inputKept) (closed.trans closedKept)⟩

/-- An adjustment takes its reader in, if it has one that is there. -/
theorem exists_adjust (before : Machine) (adjustment : Adjustment) (after : Machine)
    (made : before.adjust adjustment = .ok after) (attended : ∃ log, Attends machine log before) :
    ∃ log, Attends machine log after := by
  obtain ⟨log, attends⟩ := attended
  cases adjustment with
  | input reader =>
    cases made
    exact ⟨_, attends.push reader⟩
  | missing name =>
    cases made
    exact exists_pushMissing name ⟨log, attends⟩
  | limit steps =>
    simp only [adjust] at made
    split at made <;> cases made
    exact ⟨log, .other attends rfl rfl⟩
  | trace wanted =>
    cases wanted <;> cases made
    exact ⟨log, .other attends rfl rfl⟩
  | _ =>
    cases made
    exact ⟨log, .other attends rfl rfl⟩

theorem exists_call (before after : Machine) (called : Call before after)
    (attended : ∃ log, Attends machine log before) : ∃ log, Attends machine log after := by
  obtain ⟨log, attends⟩ := attended
  cases called with
  | @run last _ cancelled _ turns stopped =>
    have final := exists_turn last cancelled (turns.keeps exists_turn ⟨log, attends⟩)
    rw [stopped] at final
    exact final
  | adjust adjustments => exact adjustAll_keeps exists_adjust adjustments ⟨log, attends⟩
  | pushInput reader => exact ⟨_, attends.push reader⟩
  | pushMissing name => exact exists_pushMissing name ⟨log, attends⟩
  | pop popped =>
    unfold pop? at popped
    split at popped <;> cases popped
    exact ⟨log, .other attends rfl rfl⟩
  | _ => exact ⟨log, .other attends rfl rfl⟩

/-- Whatever is done with a machine, its readers have been through some contacts. -/
theorem exists_of_history {after : Machine} (history : History machine after) :
    ∃ log, Attends machine log after :=
  history.keeps exists_call ⟨[], .start⟩

/-- Readers are closed by contacts alone. -/
theorem closed_eq {log : List Contact} {after : Machine} (attends : Attends machine log after) :
    after.closed = machine.closed ++ closes log := by
  induction attends with
  | start => exact (List.append_nil _).symm
  | push earlier reader hypothesis => rwa [closes_pushed]
  | @read log before earlier hypothesis =>
    rw [before.input_closed_readCharacter.2, hypothesis, closes_append,
      before.input.leads_contactsVisible.closes, List.append_assoc]
  | other earlier input closed hypothesis => rw [closed, hypothesis]

/-- The contacts with the readers of a machine that had none are a log of its input, if no reader
has come in twice. -/
theorem log {log : List Contact} {after : Machine} (none : machine.input = .absent)
    (attends : Attends machine log after) (distinct : ((pushes log).map Reader.name).Nodup) :
    Input.Log log after.input := by
  induction attends with
  | start =>
    rw [none]
    exact .start
  | @push log before earlier reader hypothesis =>
    rw [pushes_pushed, List.map_append, List.map_singleton, ← List.concat_eq_append,
      List.nodup_concat] at distinct
    exact (hypothesis distinct.2).next (.push distinct.1)
  | @read log before earlier hypothesis =>
    have leads := before.input.leads_contactsVisible
    rw [pushes_append, leads.pushes, List.append_nil] at distinct
    rw [before.input_closed_readCharacter.1]
    exact leads.log (hypothesis distinct)
  | other earlier input closed hypothesis =>
    rw [input]
    exact hypothesis distinct

end Attends

/-- A read instruction that finds nothing in a pile of readers that all end with the end of input
leaves all of them discarded. -/
theorem readers_of_nothing {log : List Contact} {machine next : Machine}
    (history : Input.Log log machine.input) (several : 2 ≤ (pushes log).length)
    (ends : ∀ reader ∈ pushes log, reader.feed.ending = .exhausted)
    (read : machine.execute .readCharacter = .done next)
    (nothing : next.values = .ofInt (-1) :: machine.values) : next.input.readers = [] := by
  obtain ⟨readers, piled⟩ := history.fits.exists_pile several
  obtain ⟨takes, -⟩ := Input.readVisible_takes (history.fits.exhausts ends)
  rcases reading : machine.input.readVisible with ⟨⟨value, _, _⟩ | reason, input, closed⟩
  · have pushed := execute_of_executes (.readRune reading)
    rw [read, Outcome.done.injEq] at pushed
    subst pushed
    exact absurd (List.cons.inj nothing).1 (Number.ofChar_ne_ofInt_neg_one value)
  · rw [reading] at takes
    obtain ⟨rfl, -, -⟩ := takes
    have empty : machine.input.readVisible.2.1 = .pile [] := by
      have ended := congrArg Prod.fst reading
      unfold Input.readVisible at ended ⊢
      rw [piled] at ended ⊢
      exact Input.readPast_of_exhausted _ ended
    have left := machine.input_closed_readCharacter.1
    rw [read, empty] at left
    exact congrArg Input.readers left

/-- Readers are closed exactly when they are used up. Whatever is done with a machine that begins
without input comes down to contacts with its readers. If no reader comes in twice:

* a reader is closed at most once;
* when it is closed, it has just been asked as the first of a pile and has reported the end of
  input, it is the latest that has not been discarded and the latest of those that can be closed and
  have not been, and it ends with the end of input and has nothing left to deliver;
* a reader that is asked has not been closed;
* a reader that is the only one that has come in is not closed;
* once a read instruction finds nothing, although several readers have come in which all end with
  the end of input, those that can be closed have been closed exactly once. -/
theorem readers_closed_when_used_up {machine : Machine} (none : machine.input = .absent)
    (untouched : machine.closed = []) :
    (∀ after, History machine after → ∃ log, Attends machine log after) ∧
    ∀ log after, Attends machine log after → ((pushes log).map Reader.name).Nodup →
      after.closed = closes log ∧ (closes log).Nodup ∧
      (∀ earlier name, earlier ++ [.discarded name true] <+: log →
        ∃ before owner, earlier = before ++ [.asked name true (.ended .exhausted)] ∧
          owner.name = name ∧ (held earlier).head? = some owner ∧
          (unclosed earlier).head? = some owner ∧ owner.feed.ending = .exhausted ∧
          (owner.feed.after (asks name earlier)).runes = []) ∧
      (∀ earlier name piled reading, earlier ++ [.asked name piled reading] <+: log →
        name ∉ closes earlier) ∧
      ((pushes log).length = 1 → after.closed = []) ∧
      ∀ next, after.execute .readCharacter = .done next →
        next.values = .ofInt (-1) :: after.values → 2 ≤ (pushes log).length →
        (∀ reader ∈ pushes log, reader.feed.ending = .exhausted) →
          ∀ reader ∈ pushes log, reader.closable → next.closed.count reader.name = 1 := by
  refine ⟨fun after => Attends.exists_of_history, fun log after attends distinct => ?_⟩
  have history := attends.log none distinct
  have fits := history.fits
  have closed := attends.closed_eq
  rw [untouched, List.nil_append] at closed
  refine ⟨closed, fits.once.sublist (closes_sublist log),
    fun earlier name => history.exists_of_closed, ?_, ?_, ?_⟩
  · intro earlier name piled reading part closedBefore
    obtain ⟨_, _, _, undiscarded, _⟩ := history.exists_of_asked part
    exact undiscarded ((closes_sublist earlier).subset closedBefore)
  · intro alone
    have kept : discards log = [] := by
      by_contra some
      have several := fits.several some
      omega
    rw [closed, ← List.sublist_nil, ← kept]
    exact closes_sublist log
  · intro next read nothing several ends reader member closable
    have same : pushes (log ++ after.input.contactsVisible) = pushes log := by
      rw [pushes_append, after.input.leads_contactsVisible.pushes, List.append_nil]
    have later : Attends machine (log ++ after.input.contactsVisible) next := by
      have reads := attends.read
      rwa [read] at reads
    have closedLater := later.closed_eq
    rw [untouched, List.nil_append] at closedLater
    rw [closedLater]
    refine (later.log none (same ▸ distinct)).fits.count_closes ?_ (same ▸ member) closable
    exact readers_of_nothing history several ends read nothing

/-- A pile of three readers, of which the second cannot be closed. One read instruction uses up the
two upper ones, and the next one finds nothing in the last. -/
theorem pile_of_three_closed_in_turn :
    ∃ log after next, Attends (start (.ofRows [['i']]) (.ofDraws [0])) log after ∧
      pushes log = [⟨0, true, .glyphs [.character 'a'] .exhausted⟩,
        ⟨1, false, .glyphs [.character '\n'] .exhausted⟩, ⟨2, true, .glyphs [] .exhausted⟩] ∧
      after.closed = [2] ∧ after.execute .readCharacter = .done next ∧
      next.closed.count 0 = 1 ∧ next.closed.count 2 = 1 := by
  have attends : Attends (start (.ofRows [['i']]) (.ofDraws [0])) _ _ :=
    .read <| .push (.push (.push .start ⟨0, true, .glyphs [.character 'a'] .exhausted⟩)
      ⟨1, false, .glyphs [.character '\n'] .exhausted⟩) ⟨2, true, .glyphs [] .exhausted⟩
  obtain ⟨-, known⟩ := @readers_closed_when_used_up (start (.ofRows [['i']]) (.ofDraws [0])) rfl rfl
  obtain ⟨-, -, -, -, -, once⟩ := known _ _ attends (by decide)
  have counted := once _ rfl rfl (by decide) (by decide)
  refine ⟨_, _, _, attends, by decide, rfl, rfl, ?_, ?_⟩
  · exact counted ⟨0, true, .glyphs [.character 'a'] .exhausted⟩ (by decide) rfl
  · exact counted ⟨2, true, .glyphs [] .exhausted⟩ (by decide) rfl

/-- A reader that comes in twice is closed twice, and is asked after it was closed. And when a
reader is closed, the latest that has not been may be another: one that cannot be closed. -/
theorem reader_closed_twice_or_before_a_later_one :
    (∃ log after, Attends (start (.ofRows [['i']]) (.ofDraws [0])) log after ∧
      pushes log =
        [⟨0, true, .glyphs [] .exhausted⟩, ⟨0, true, .glyphs [.character 'a'] .exhausted⟩] ∧
      after.closed = [0, 0] ∧
      ∃ earlier, earlier ++ [.asked 0 true (.ended .exhausted)] <+: log ∧ 0 ∈ closes earlier) ∧
    ∃ log after earlier, Attends (start (.ofRows [['i']]) (.ofDraws [0])) log after ∧
      pushes log = [⟨0, true, .glyphs [.character 'x'] .exhausted⟩,
        ⟨1, true, .glyphs [] .exhausted⟩, ⟨2, false, .glyphs [] .exhausted⟩] ∧
      after.closed = [1] ∧ earlier ++ [.discarded 1 true] <+: log ∧
      (pushes earlier).reverse.find? (fun reader => reader.name ∉ closes earlier) =
        some ⟨2, false, .glyphs [] .exhausted⟩ := by
  constructor
  · have attends : Attends (start (.ofRows [['i']]) (.ofDraws [0])) _ _ :=
      .read <| .read <| .push (.push .start ⟨0, true, .glyphs [] .exhausted⟩)
        ⟨0, true, .glyphs [.character 'a'] .exhausted⟩
    exact ⟨_, _, attends, by decide, rfl,
      [.pushed ⟨0, true, .glyphs [] .exhausted⟩,
        .pushed ⟨0, true, .glyphs [.character 'a'] .exhausted⟩, .asked 0 true (.rune 'a' 1 none),
        .asked 0 true (.ended .exhausted), .discarded 0 true], by decide, by decide⟩
  · have attends : Attends (start (.ofRows [['i']]) (.ofDraws [0])) _ _ :=
      .read <| .push (.push (.push .start ⟨0, true, .glyphs [.character 'x'] .exhausted⟩)
        ⟨1, true, .glyphs [] .exhausted⟩) ⟨2, false, .glyphs [] .exhausted⟩
    exact ⟨_, _, [.pushed ⟨0, true, .glyphs [.character 'x'] .exhausted⟩,
      .pushed ⟨1, true, .glyphs [] .exhausted⟩, .pushed ⟨2, false, .glyphs [] .exhausted⟩,
      .asked 2 true (.ended .exhausted), .discarded 2 false, .asked 1 true (.ended .exhausted)],
      attends, by decide, rfl, by decide, by decide⟩

end Machine

end Aquarium
