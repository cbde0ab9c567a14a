import Aquarium.CodeBox.Source
import Aquarium.Machine.Setup
import Aquarium.Proofs.Execution

/-!
# Stacked inputs as one stream

`Feed.runes` is what a reader is still going to deliver, and `Input.pending` strings together what
all readers will, the one pushed last first. The three forms of an input differ in what they keep,
not in this view: `read_takes` says that a read takes the first pending rune off, wherever it comes
from, and the main statement runs any sequence of pushes and read instructions beside a plain list.
-/

namespace Aquarium

/-- A reading takes the first of the pending runes, or finds that there is none. -/
def Reading.Takes (reading : Reading) (before after : List Char) : Prop :=
  match reading with
  | .rune value _ _ => before = value :: after
  | .ended reason => reason = .exhausted ∧ before = [] ∧ after = []

namespace Feed

/-! ## One reader -/

/-- Bytes that are held are read as the first glyph of them. -/
theorem exists_tell {held : Bytes} (present : held ≠ []) (error : Option Ending) :
    ∃ glyph : Glyph, tell error held = glyph.reading error := by
  obtain ⟨byte, tails, rfl⟩ := List.exists_cons_of_ne_nil present
  exact ⟨_, rfl⟩

/-- When nothing is held and no more bytes come, the reader ends. -/
@[simp] theorem conclude_nil (ending : Ending) : conclude ending [] = .ended ending.insisted := by
  cases ending <;> rfl

/-- Bytes either tell a glyph, and some are gone if none was held, or the reader ends: with nothing
held, or stuck. -/
theorem assemble_cases (ending : Ending) (held : Bytes) (pending : List Arrival) :
    (∃ (glyph : Glyph) (error : Option Ending) (rest : List Arrival),
      assemble ending held pending = (glyph.reading error, rest) ∧
        rest.length ≤ pending.length ∧ (held = [] → rest.length < pending.length)) ∨
      (held = [] ∨ ending.insisted = .stuck) ∧
        assemble ending held pending = (.ended ending.insisted, []) := by
  induction pending generalizing held with
  | nil =>
    unfold assemble
    by_cases none : held = []
    · exact .inr ⟨.inl none, by rw [none, conclude_nil]⟩
    · by_cases waits : ending.insisted = .stuck
      · exact .inr ⟨.inr waits, by rw [conclude, if_pos waits, waits]⟩
      · obtain ⟨glyph, told⟩ := exists_tell none (some ending)
        exact .inl ⟨glyph, _, [], by rw [conclude, if_neg waits, told], Nat.le_refl _,
          fun empty => absurd empty none⟩
  | cons arrival others hypothesis =>
    cases arrival with
    | pause =>
      rcases hypothesis held with ⟨glyph, error, rest, told, bound, _⟩ | ended
      · exact .inl ⟨glyph, error, rest, told, Nat.le_succ_of_le bound,
          fun _ => Nat.lt_succ_of_le bound⟩
      · exact .inr ended
    | byte value =>
      have present : held ++ [value] ≠ [] := List.concat_ne_nil value held
      unfold assemble
      split
      · obtain ⟨glyph, told⟩ := exists_tell present none
        exact .inl ⟨glyph, _, others, by rw [told], Nat.le_succ _, fun _ => Nat.lt_succ_self _⟩
      · rcases hypothesis (held ++ [value]) with
          ⟨glyph, error, rest, told, bound, _⟩ | ⟨empty | waits, ended⟩
        · exact .inl ⟨glyph, error, rest, told, Nat.le_succ_of_le bound,
            fun _ => Nat.lt_succ_of_le bound⟩
        · exact absurd empty present
        · exact .inr ⟨.inr waits, ended⟩
    | lastByte value =>
      obtain ⟨glyph, told⟩ := exists_tell (List.concat_ne_nil value held) (some .exhausted)
      exact .inl ⟨glyph, _, others, by rw [assemble, told], Nat.le_succ _,
        fun _ => Nat.lt_succ_self _⟩

/-- A reader delivers a rune, and has less to deliver, or has come to its end for ever. -/
theorem read_cases (feed : Feed) :
    (∃ value size error rest, feed.read = (.rune value size error, rest) ∧
      rest.size < feed.size ∧ rest.ending = feed.ending) ∨
      ∃ rest, feed.read = (.ended feed.ending, rest) ∧ rest.read = (.ended feed.ending, rest) ∧
        rest.size = 0 ∧ rest.ending = feed.ending := by
  cases feed with
  | glyphs pending ending =>
    cases pending with
    | nil => exact .inr ⟨_, rfl, rfl, rfl, rfl⟩
    | cons glyph others => exact .inl ⟨_, _, _, _, rfl, Nat.lt_succ_self _, rfl⟩
  | arrivals pending ending =>
    rcases assemble_cases ending [] pending with ⟨glyph, error, rest, told, _, bound⟩ | ⟨_, ended⟩
    · exact .inl ⟨glyph.toChar, glyph.size, error, .arrivals rest ending,
        by simp only [read, told, Glyph.reading], bound rfl, rfl⟩
    · exact .inr ⟨.arrivals [] ending, by simp only [read, ended, Feed.ending],
        by simp only [read, assemble, conclude_nil, Feed.ending], rfl, rfl⟩

theorem size_lt_of_read {feed rest : Feed} {value : Char} {size : Nat} {error : Option Ending}
    (delivered : feed.read = (.rune value size error, rest)) : rest.size < feed.size := by
  rcases feed.read_cases with ⟨_, _, _, _, same, bound, _⟩ | ⟨_, ended, _⟩
  · rw [same] at delivered
    cases delivered
    exact bound
  · rw [ended] at delivered
    cases delivered

/-- The runes that a reader is still going to deliver. -/
def runes (feed : Feed) : List Char :=
  match _delivered : feed.read with
  | (.rune value _ _, rest) => value :: rest.runes
  | (.ended _, _) => []
termination_by feed.size
decreasing_by exact size_lt_of_read _delivered

theorem runes_of_rune {feed rest : Feed} {value : Char} {size : Nat} {error : Option Ending}
    (delivered : feed.read = (.rune value size error, rest)) :
    feed.runes = value :: rest.runes := by
  rw [runes]
  split
  · rename_i same
    rw [delivered] at same
    cases same
    rfl
  · rename_i same
    rw [delivered] at same
    cases same

theorem runes_of_ended {feed rest : Feed} {ending : Ending}
    (ended : feed.read = (.ended ending, rest)) : feed.runes = [] := by
  rw [runes]
  split
  · rename_i same
    rw [ended] at same
    cases same
  · rfl

/-- A reader of glyphs delivers them. -/
theorem runes_glyphs (pending : List Glyph) (ending : Ending) :
    (glyphs pending ending).runes = pending.map Glyph.toChar := by
  induction pending with
  | nil => exact runes_of_ended rfl
  | cons glyph others hypothesis => rw [runes_of_rune rfl, hypothesis, List.map_cons]

/-- A read takes the first rune of a reader off. -/
theorem read_takes {feed : Feed} (exhausts : feed.ending = .exhausted) :
    feed.read.1.Takes feed.runes feed.read.2.runes ∧ feed.read.2.ending = .exhausted := by
  rcases feed.read_cases with
    ⟨_, _, _, rest, delivered, _, kept⟩ | ⟨rest, ended, again, _, kept⟩
  · rw [delivered]
    exact ⟨runes_of_rune delivered, kept.trans exhausts⟩
  · rw [ended]
    exact ⟨⟨exhausts, runes_of_ended ended, runes_of_ended again⟩, kept.trans exhausts⟩

end Feed

/-- To pass over an error that came with a rune does not change what was read. -/
theorem Reading.takes_pardoned {reading : Reading} {before after : List Char} :
    reading.pardoned.Takes before after ↔ reading.Takes before after := by
  unfold Reading.pardoned
  split <;> rfl

/-- A reading without a rune has no error to pass over. -/
theorem Reading.eq_ended_of_pardoned {reading : Reading} {ending : Ending}
    (ended : reading.pardoned = .ended ending) : reading = .ended ending := by
  unfold pardoned at ended
  split at ended
  · cases ended
  · exact ended

namespace Input

/-! ## All readers -/

/-- The readers of an input, the one that is read first in front. -/
def readers : Input → List Reader
  | absent => []
  | single reader => [reader]
  | pile readers => readers

/-- The runes that are still going to be delivered, by one reader after another. -/
def pending (input : Input) : List Char :=
  input.readers.flatMap fun reader => reader.feed.runes

/-- Whether every reader reports the end of input once it has delivered its runes. -/
def Exhausts (input : Input) : Prop :=
  ∀ reader ∈ input.readers, reader.feed.ending = .exhausted

@[simp] theorem readers_push (input : Input) (reader : Reader) :
    (input.push reader).readers = reader :: input.readers := by
  cases input <;> rfl

/-- A pushed reader is read before all that is pending. -/
theorem pending_push (input : Input) (reader : Reader) :
    (input.push reader).pending = reader.feed.runes ++ input.pending := by
  simp [pending]

theorem exhausts_push {input : Input} {reader : Reader} (exhausts : input.Exhausts)
    (ends : reader.feed.ending = .exhausted) : (input.push reader).Exhausts := by
  intro other member
  rw [readers_push, List.mem_cons] at member
  rcases member with rfl | old
  · exact ends
  · exact exhausts other old

/-- A read takes the first rune of a pile of readers off, whichever of them has it. -/
theorem readPile_takes {readers : List Reader}
    (exhausts : ∀ reader ∈ readers, reader.feed.ending = .exhausted) :
    (readPile readers).1.Takes (Input.pile readers).pending
        (Input.pile (readPile readers).2.1).pending ∧
      (Input.pile (readPile readers).2.1).Exhausts := by
  induction readers with
  | nil => exact ⟨⟨rfl, rfl, rfl⟩, exhausts⟩
  | cons reader others hypothesis =>
    obtain ⟨first, rest⟩ := List.forall_mem_cons.mp exhausts
    obtain ⟨takes, kept⟩ := Feed.read_takes first
    obtain ⟨later, laterKept⟩ := hypothesis rest
    unfold readPile
    rcases delivered : reader.feed.read with ⟨⟨value, size, error⟩ | reason, feed⟩
    · rw [delivered] at takes kept
      refine ⟨Reading.takes_pardoned.mpr ?_, List.forall_mem_cons.mpr ⟨kept, rest⟩⟩
      have runes : reader.feed.runes = value :: feed.runes := takes
      simp [Reading.Takes, pending, readers, runes]
    · rw [delivered] at takes kept
      obtain ⟨rfl, none, _⟩ := takes
      refine ⟨?_, laterKept⟩
      have skipped : (Input.pile (reader :: others)).pending = (Input.pile others).pending := by
        simp [pending, Input.readers, none]
      rw [skipped]
      exact later

/-- A read takes the first pending rune off. -/
theorem read_takes {input : Input} (exhausts : input.Exhausts) :
    input.read.1.Takes input.pending input.read.2.1.pending ∧ input.read.2.1.Exhausts := by
  cases input with
  | absent => exact ⟨⟨rfl, rfl, rfl⟩, exhausts⟩
  | single reader =>
    obtain ⟨takes, kept⟩ := Feed.read_takes (exhausts reader (List.mem_singleton_self _))
    refine ⟨?_, ?_⟩
    · simpa [pending, readers, read] using takes
    · intro other member
      cases List.mem_singleton.mp member
      exact kept
  | pile readers => exact readPile_takes exhausts

/-! ## Passing over line feeds -/

theorem size_lt_of_readPile {readers left : List Reader} {closed : List Nat} {value : Char}
    {size : Nat} {error : Option Ending}
    (delivered : readPile readers = (.rune value size error, left, closed)) :
    (Input.pile left).size < (Input.pile readers).size := by
  induction readers generalizing left closed with
  | nil => cases delivered
  | cons reader others hypothesis =>
    unfold readPile at delivered
    rcases first : reader.feed.read with ⟨found | reason, feed⟩
    · rw [first] at delivered
      simp only [Prod.mk.injEq] at delivered
      obtain ⟨-, rfl, -⟩ := delivered
      have smaller := Feed.size_lt_of_read first
      simp only [Input.size, List.foldr_cons]
      omega
    · rw [first] at delivered
      cases reason with
      | exhausted =>
        rcases later : readPile others with ⟨reading, rest, names⟩
        rw [later] at delivered
        cases delivered
        have smaller := hypothesis later
        simp only [Input.size, List.foldr_cons] at smaller ⊢
        omega
      | broken cause => cases delivered
      | mute => cases delivered
      | stuck => cases delivered

/-- A read that delivers a rune leaves less to deliver. -/
theorem size_lt_of_read {input left : Input} {closed : List Nat} {value : Char} {size : Nat}
    {error : Option Ending} (delivered : input.read = (.rune value size error, left, closed)) :
    left.size < input.size := by
  cases input with
  | absent => cases delivered
  | single reader =>
    rcases first : reader.feed.read with ⟨reading, feed⟩
    simp only [read, first] at delivered
    cases delivered
    exact Feed.size_lt_of_read first
  | pile readers =>
    rcases first : readPile readers with ⟨reading, rest, names⟩
    simp only [read, first] at delivered
    cases delivered
    exact size_lt_of_readPile first

theorem size_lt_of_isLineFeed {input left : Input} {reading : Reading} {closed : List Nat}
    (delivered : input.read = (reading, left, closed)) (blank : isLineFeed reading = true) :
    left.size < input.size := by
  cases reading with
  | rune value size error => exact size_lt_of_read delivered
  | ended reason => cases blank

/-- Attempts beyond the number of deliveries are never made. -/
theorem readPast_eq_of_size_le {input : Input} {few many : Nat} (enough : input.size ≤ few)
    (more : few ≤ many) : input.readPast many = input.readPast few := by
  induction few generalizing input many with
  | zero =>
    cases many with
    | zero => rfl
    | succ many =>
      rcases delivered : input.read with ⟨reading, left, closed⟩
      cases blank : isLineFeed reading with
      | false => simp [readPast, delivered, blank]
      | true =>
        have smaller := size_lt_of_isLineFeed delivered blank
        omega
  | succ few hypothesis =>
    cases many with
    | zero => omega
    | succ many =>
      rcases delivered : input.read with ⟨reading, left, closed⟩
      cases blank : isLineFeed reading with
      | false => simp [readPast, delivered, blank]
      | true =>
        have smaller := size_lt_of_isLineFeed delivered blank
        have same := hypothesis (show left.size ≤ few by omega) (show few ≤ many by omega)
        simp [readPast, delivered, blank, same]

/-- Passing over line feeds goes on until something else is read: it is the loop without a bound. -/
theorem readVisible_eq {input left : Input} {reading : Reading} {closed : List Nat}
    (delivered : input.read = (reading, left, closed)) :
    input.readVisible =
      if isLineFeed reading then
        (left.readVisible.1, left.readVisible.2.1, closed ++ left.readVisible.2.2)
      else (reading, left, closed) := by
  have enough : input.readVisible = input.readPast (input.size + 1) :=
    (readPast_eq_of_size_le (Nat.le_refl _) (Nat.le_succ _)).symm
  rw [enough]
  cases blank : isLineFeed reading with
  | false => simp [readPast, delivered, blank]
  | true =>
    have smaller := size_lt_of_isLineFeed delivered blank
    have same : left.readPast input.size = left.readVisible :=
      readPast_eq_of_size_le (Nat.le_refl _) (Nat.le_of_lt smaller)
    simp [readPast, delivered, blank, same]

end Input

/-! ## The stream -/

namespace Stream

/-- The pending runes from the first one that is not a line feed. -/
def visible (pending : List Char) : List Char :=
  pending.dropWhile (· = '\n')

/-- The number that a read instruction makes of the pending runes, and the runes left: the code of
the first visible one, or -1 if there is none. -/
def next (pending : List Char) : Number × List Char :=
  match visible pending with
  | [] => (.ofInt (-1), [])
  | rune :: rest => (.ofChar rune, rest)

end Stream

/-- Reading past line feeds takes the first visible rune off. -/
theorem Input.readVisible_takes {input : Input} (exhausts : input.Exhausts) :
    input.readVisible.1.Takes (Stream.visible input.pending) input.readVisible.2.1.pending ∧
      input.readVisible.2.1.Exhausts := by
  generalize bound : input.size = size
  induction size using Nat.strongRecOn generalizing input with
  | ind size hypothesis =>
    obtain ⟨takes, kept⟩ := Input.read_takes exhausts
    rcases delivered : input.read with ⟨⟨value, _, _⟩ | reason, left, closed⟩
    · rw [delivered] at takes kept
      have pending : input.pending = value :: left.pending := takes
      rw [readVisible_eq delivered, pending]
      by_cases blank : value = '\n'
      · have smaller := size_lt_of_read delivered
        have later := hypothesis left.size (by omega) kept rfl
        simpa [isLineFeed, blank, Stream.visible] using later
      · simpa [isLineFeed, blank, Stream.visible, Reading.Takes] using kept
    · rw [delivered] at takes kept
      obtain ⟨rfl, none, nothing⟩ := takes
      rw [readVisible_eq delivered, none]
      exact ⟨⟨rfl, rfl, nothing⟩, kept⟩

/-- Something that happens to the input of a machine. -/
inductive InputEvent where
  | push (reader : Reader)
  | read

/-- What events do to the pending runes: the numbers read, in order, and the runes left. -/
def Stream.serve : List InputEvent → List Char → List Number × List Char
  | [], pending => ([], pending)
  | .push reader :: events, pending => serve events (reader.feed.runes ++ pending)
  | .read :: events, pending =>
    let (numbers, left) := serve events (next pending).2
    ((next pending).1 :: numbers, left)

namespace Machine

/-- A read instruction puts the next number of the stream on the stack and takes it off the input.
It always completes. -/
theorem execute_readCharacter {machine : Machine} (exhausts : machine.input.Exhausts) :
    ∃ input closed,
      machine.execute .readCharacter =
        .done ({ machine with input, closed := machine.closed ++ closed }.push
          (Stream.next machine.input.pending).1) ∧
      input.pending = (Stream.next machine.input.pending).2 ∧ input.Exhausts := by
  obtain ⟨takes, kept⟩ := Input.readVisible_takes exhausts
  rcases reading : machine.input.readVisible with ⟨⟨value, _, _⟩ | reason, input, closed⟩
  · rw [reading] at takes kept
    have visible : Stream.visible machine.input.pending = value :: input.pending := takes
    refine ⟨input, closed, ?_, by simp [Stream.next, visible], kept⟩
    rw [execute_of_executes (.readRune reading)]
    simp [Stream.next, visible]
  · rw [reading] at takes kept
    obtain ⟨rfl, none, nothing⟩ := takes
    refine ⟨input, closed, ?_, by simp [Stream.next, none, nothing], kept⟩
    rw [execute_of_executes (.readNothing reading (by simp) (by simp))]
    simp [Stream.next, none]

/-- A read instruction leaves the input that reading leaves, and closes the readers that it closes,
also if it does not complete. -/
theorem input_closed_readCharacter (machine : Machine) :
    (machine.execute .readCharacter).machine.input = machine.input.readVisible.2.1 ∧
      (machine.execute .readCharacter).machine.closed =
        machine.closed ++ machine.input.readVisible.2.2 := by
  rcases reading : machine.input.readVisible with ⟨value | ending, input, closed⟩
  · rw [execute_of_executes (.readRune reading)]
    exact ⟨rfl, rfl⟩
  · cases ending with
    | exhausted | mute =>
      rw [execute_of_executes (.readNothing reading (by simp) (by simp))]
      exact ⟨rfl, rfl⟩
    | broken cause =>
      rw [execute_of_executes (.readBroken reading)]
      exact ⟨rfl, rfl⟩
    | stuck =>
      rw [execute_of_executes (.readStuck reading)]
      exact ⟨rfl, rfl⟩

/-- No other instruction touches a reader. -/
theorem input_closed_execute (machine : Machine) {instruction : Instruction}
    (other : instruction ≠ .readCharacter) :
    (machine.execute instruction).machine.input = machine.input ∧
      (machine.execute instruction).machine.closed = machine.closed := by
  generalize ended : machine.execute instruction = outcome
  cases executes_iff.mpr ended with
  | readRune reading => exact absurd rfl other
  | readNothing reading intact answered => exact absurd rfl other
  | readBroken reading => exact absurd rfl other
  | readStuck reading => exact absurd rfl other
  | _ => exact ⟨rfl, rfl⟩

/-- A step executes a read instruction or touches no reader. -/
theorem step_reads_or_keeps (machine : Machine) (symbol : Int) :
    (machine.takesLiterally symbol = false ∧
      Instruction.ofSymbol? symbol = some .readCharacter ∧
      machine.step symbol = machine.execute .readCharacter) ∨
    (machine.step symbol).machine.input = machine.input ∧
      (machine.step symbol).machine.closed = machine.closed := by
  rcases machine.step_cases symbol with
    ⟨_, stepped⟩ | ⟨instruction, executed, stands, stepped⟩ | ⟨_, _, stepped⟩
  · rw [stepped]
    exact .inr ⟨rfl, rfl⟩
  · by_cases same : instruction = .readCharacter
    · exact .inl ⟨executed, same ▸ stands, same ▸ stepped⟩
    · rw [stepped]
      exact .inr (machine.input_closed_execute same)
  · rw [stepped]
    exact .inr ⟨rfl, rfl⟩

/-- A step touches the input only if it executes a read instruction. -/
theorem input_step (machine : Machine) {symbol : Int}
    (other : machine.takesLiterally symbol = true ∨
      Instruction.ofSymbol? symbol ≠ some .readCharacter) :
    (machine.step symbol).machine.input = machine.input := by
  rcases machine.step_reads_or_keeps symbol with ⟨executed, found, _⟩ | ⟨kept, _⟩
  · rcases other with taken | differs
    · rw [executed] at taken
      cases taken
    · exact absurd found differs
  · exact kept

/-- What events do to a machine, up to the first read instruction that does not complete. -/
def serve (machine : Machine) : List InputEvent → Outcome
  | [] => .done machine
  | .push reader :: events => (machine.pushInput reader).serve events
  | .read :: events =>
    match machine.execute .readCharacter with
    | .done after => after.serve events
    | .failed failure after => .failed failure after
    | .stuck after => .stuck after

/-- Events do to a machine what they do to its stream, and nothing else. -/
theorem serve_eq {machine : Machine} {events : List InputEvent}
    (exhausts : machine.input.Exhausts)
    (ends : ∀ reader, .push reader ∈ events → reader.feed.ending = .exhausted) :
    ∃ input closed,
      machine.serve events =
        .done { machine with
          input
          closed
          tower := machine.tower.withValues
            ((Stream.serve events machine.input.pending).1.reverse ++ machine.values) } ∧
      input.pending = (Stream.serve events machine.input.pending).2 ∧ input.Exhausts := by
  induction events generalizing machine with
  | nil => exact ⟨machine.input, machine.closed, rfl, rfl, exhausts⟩
  | cons event events hypothesis =>
    have later : ∀ reader, .push reader ∈ events → reader.feed.ending = .exhausted :=
      fun reader member => ends reader (List.mem_cons_of_mem _ member)
    cases event with
    | push reader =>
      have pushed : (machine.pushInput reader).input.Exhausts :=
        Input.exhausts_push exhausts (ends reader List.mem_cons_self)
      obtain ⟨input, closed, served, rest⟩ := hypothesis pushed later
      have pending : (machine.pushInput reader).input.pending =
          reader.feed.runes ++ machine.input.pending := Input.pending_push _ _
      rw [pending] at served rest
      exact ⟨input, closed, served, rest⟩
    | read =>
      obtain ⟨middle, names, read, pending, kept⟩ := execute_readCharacter exhausts
      have after : ({ machine with input := middle, closed := machine.closed ++ names }.push
          (Stream.next machine.input.pending).1).input.Exhausts := kept
      obtain ⟨input, closed, served, rest⟩ := hypothesis after later
      refine ⟨input, closed, ?_, ?_⟩
      · rw [serve, read]
        show serve _ events = _
        -- The number read now is beneath those that the later reads put on the stack.
        rw [served]
        simp [Stream.serve, push, values, Tower.push, Tower.withValues, Stack.push, pending]
      · simpa [Stream.serve, push, pending] using rest

/-- The readers of a machine, whether there is none, one on its own or a pile of them, are one
stream. A reader comes in before all that is pending; a read instruction drops line feeds, takes the
next rune off or finds that there is none, and always completes; nothing else touches the stream.
So any sequence of pushes and read instructions leaves the numbers on the stack, and the runes in
the readers, that it leaves beside a plain list. -/
theorem stacked_inputs_read_as_one_stream (machine : Machine) (events : List InputEvent)
    (exhausts : machine.input.Exhausts)
    (ends : ∀ reader, .push reader ∈ events → reader.feed.ending = .exhausted) :
    (∀ reader,
      machine.adjust (.input reader) = .ok (machine.pushInput reader) ∧
        (machine.pushInput reader).input.pending =
          reader.feed.runes ++ machine.input.pending) ∧
    (∃ input closed,
      machine.execute .readCharacter =
        .done ({ machine with input, closed := machine.closed ++ closed }.push
          (Stream.next machine.input.pending).1) ∧
      input.pending = (Stream.next machine.input.pending).2) ∧
    (∀ reading left closed, machine.input.read = (reading, left, closed) →
      machine.input.readVisible =
        if Input.isLineFeed reading then
          (left.readVisible.1, left.readVisible.2.1, closed ++ left.readVisible.2.2)
        else (reading, left, closed)) ∧
    (∀ symbol, machine.takesLiterally symbol = true ∨
        Instruction.ofSymbol? symbol ≠ some .readCharacter →
      (machine.step symbol).machine.input = machine.input) ∧
    ∃ input closed,
      machine.serve events =
        .done { machine with
          input
          closed
          tower := machine.tower.withValues
            ((Stream.serve events machine.input.pending).1.reverse ++ machine.values) } ∧
      input.pending = (Stream.serve events machine.input.pending).2 := by
  refine ⟨?pushes, ?reads, ?loops, ?steps, ?serves⟩
  case pushes =>
    intro reader
    exact ⟨rfl, Input.pending_push _ _⟩
  case reads =>
    obtain ⟨input, closed, read, pending, _⟩ := execute_readCharacter exhausts
    exact ⟨input, closed, read, pending⟩
  case loops =>
    intro reading left closed delivered
    exact Input.readVisible_eq delivered
  case steps =>
    intro symbol other
    exact machine.input_step other
  case serves =>
    obtain ⟨input, closed, served, pending, _⟩ := serve_eq exhausts ends
    exact ⟨input, closed, served, pending⟩

/-- Three runes, pushed and read until the first of them is gone; then a reader of a two-byte rune
comes in between, and reading goes on to the end. -/
def interruption : List InputEvent :=
  [.push ⟨0, true, .glyphs [.character 'a', .character '\n', .character 'b'] .exhausted⟩, .read,
    .push ⟨1, false, .arrivals [.byte 0xC3, .lastByte 0xA9] .exhausted⟩, .read, .read, .read]

theorem serve_interruption :
    Stream.serve interruption [] = ([.ofInt 97, .ofInt 233, .ofInt 98, .ofInt (-1)], []) := by
  have delivered : (Feed.arrivals [.byte 0xC3, .lastByte 0xA9] .exhausted).read =
      ((Glyph.first 0xC3 [0xA9]).reading (some .exhausted), .arrivals [] .exhausted) := rfl
  have rune : (Feed.arrivals [.byte 0xC3, .lastByte 0xA9] .exhausted).runes = ['é'] := by
    rw [Feed.runes_of_rune delivered, Feed.runes_of_ended rfl]
    decide +kernel
  simp [interruption, Stream.serve, Stream.next, Stream.visible, Feed.runes_glyphs, rune,
    Glyph.toChar, Number.ofChar]

/-- A reader that comes in between is read first, and what it has interrupted goes on behind it. -/
theorem interrupted_reader_resumes :
    ∃ input closed,
      (start (.ofRows [['i']]) (.ofDraws [0])).serve interruption =
        .done { start (.ofRows [['i']]) (.ofDraws [0]) with
          input
          closed
          tower := ⟨⟨[.ofInt (-1), .ofInt 98, .ofInt 233, .ofInt 97], none⟩, []⟩ } ∧
      input.pending = [] := by
  have exhausts : (start (.ofRows [['i']]) (.ofDraws [0])).input.Exhausts := by
    intro reader member
    cases member
  have ends : ∀ reader, .push reader ∈ interruption → reader.feed.ending = .exhausted := by
    intro reader member
    simp only [interruption, List.mem_cons, InputEvent.push.injEq, reduceCtorEq, false_or,
      List.not_mem_nil, or_false] at member
    rcases member with rfl | rfl <;> rfl
  have quiet : (start (.ofRows [['i']]) (.ofDraws [0])).input.pending = [] := rfl
  obtain ⟨_, _, _, _, input, closed, served, pending⟩ :=
    stacked_inputs_read_as_one_stream _ interruption exhausts ends
  rw [quiet, serve_interruption] at served pending
  exact ⟨input, closed, served, pending⟩

end Machine

end Aquarium
