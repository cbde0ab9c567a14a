import Aquarium.Text.Glyph

/-!
# Input

A program reads characters from readers. A reader is given by all that it is still going to deliver:
whole glyphs, or single bytes that have to be put together first. Readers are piled up, and the one
pushed last is read first. A pile of readers drops, and closes, those that are exhausted; a reader
that has always been alone is kept.

A read may not come back at all: the reader waits for ever, is asked for a byte for ever and gives
none, or is not there. Such a read has no result, which is written as a result of its own.
-/

namespace Aquarium

/-- What a reader gives for ever once all is delivered: the end of input, an error, or nothing and
no error either. From a read that is stuck it does not come back. -/
inductive Ending where
  | exhausted
  | broken (cause : String)
  | mute
  | stuck
  deriving DecidableEq

/-- One delivery of a reader of bytes: nothing yet, a byte, or a byte together with the end. -/
inductive Arrival where
  | pause
  | byte (value : UInt8)
  | lastByte (value : UInt8)
  deriving DecidableEq

/-- All that a reader is still going to deliver. -/
inductive Feed where
  | glyphs (pending : List Glyph) (ending : Ending)
  | arrivals (pending : List Arrival) (ending : Ending)
  deriving DecidableEq

/-- What one attempt to read a character gives: a rune with the number of its bytes and the error
that was reported together with it, if any, or no rune and how the reader ended. -/
inductive Reading where
  | rune (value : Char) (size : Nat) (error : Option Ending)
  | ended (ending : Ending)
  deriving DecidableEq

/-- The reading of a glyph. -/
def Glyph.reading (glyph : Glyph) (error : Option Ending) : Reading :=
  .rune glyph.toChar glyph.size error

/-- A reading without the end of input that was reported together with a rune. It will be reported
again. -/
def Reading.pardoned : Reading → Reading
  | rune value size (some .exhausted) => .rune value size none
  | reading => reading

/-- How a reader ends that is asked again for as long as it gives nothing and no error. -/
def Ending.insisted : Ending → Ending
  | mute => stuck
  | ending => ending

namespace Feed

/-- The number of deliveries left. -/
def size : Feed → Nat
  | glyphs pending _ => pending.length
  | arrivals pending _ => pending.length

/-- What the bytes held amount to once no more are asked for, with the error that came last. -/
def tell (error : Option Ending) : Bytes → Reading
  | [] => .ended (error.getD .mute)
  | byte :: tails => (Glyph.first byte tails).reading error

/-- What the bytes held amount to when no more come. -/
def conclude (ending : Ending) (held : Bytes) : Reading :=
  if ending.insisted = .stuck then .ended .stuck else tell (some ending) held

/-- Takes bytes until they tell a glyph or the reader reports an error. Bytes taken beyond it are
lost. -/
def assemble (ending : Ending) : Bytes → List Arrival → Reading × List Arrival
  | held, [] => (conclude ending held, [])
  | held, .pause :: rest => assemble ending held rest
  | held, .byte value :: rest =>
    if Glyph.isComplete (held ++ [value]) then (tell none (held ++ [value]), rest)
    else assemble ending (held ++ [value]) rest
  | held, .lastByte value :: rest => (tell (some .exhausted) (held ++ [value]), rest)

/-- Reads a character. -/
def read : Feed → Reading × Feed
  | glyphs [] ending => (.ended ending, .glyphs [] ending)
  | glyphs (glyph :: rest) ending => (glyph.reading none, .glyphs rest ending)
  | arrivals pending ending =>
    let (reading, rest) := assemble ending [] pending
    (reading, .arrivals rest ending)

/-- A reader of glyphs over a text. -/
def ofText (text : Bytes) (ending : Ending) : Feed :=
  .glyphs (Glyph.read text) ending

/-- A reader of bytes over a text. -/
def ofBytes (text : Bytes) (ending : Ending) : Feed :=
  .arrivals (text.map .byte) ending

/-- A reader of bytes over a text that reports the end together with the last byte. -/
def ofBytesEnding (text : Bytes) : Feed :=
  .arrivals
    (match text.getLast? with
      | none => []
      | some last => text.dropLast.map .byte ++ [.lastByte last])
    .exhausted

/-- A reader of bytes over a text that pauses before each delivery. -/
def ofBytesPausing (text : Bytes) : Feed :=
  .arrivals (text.flatMap fun value => [.pause, .byte value]) .exhausted

/-- All bytes that a reader is still going to deliver. -/
def bytes : Feed → Bytes
  | glyphs pending _ => pending.flatMap Glyph.bytes
  | arrivals pending _ => pending.flatMap fun
    | .pause => []
    | .byte value => [value]
    | .lastByte value => [value]

/-- How every read ends once all is delivered. -/
def ending : Feed → Ending
  | glyphs _ ending => ending
  | arrivals _ ending => ending.insisted

end Feed

/-- A reader with the name it is known by, and whether it can be closed. The feed is what it will
deliver at its place in a pile: a reader that comes in twice has two places, each with the feed that
it will have there. -/
structure Reader where
  name : Nat
  closable : Bool
  feed : Feed
  deriving DecidableEq

/-- The place of a reader that is not there. -/
def Reader.missing (name : Nat) : Reader :=
  ⟨name, false, .glyphs [] .stuck⟩

/-- The input of a program: none, a reader on its own, or a pile of readers. -/
inductive Input where
  | absent
  | single (reader : Reader)
  | pile (readers : List Reader)
  deriving DecidableEq

namespace Input

/-- Puts a reader before all others. -/
def push (input : Input) (reader : Reader) : Input :=
  match input with
  | absent => .single reader
  | single other => .pile [reader, other]
  | pile readers => .pile (reader :: readers)

/-- Makes a place for a reader that is not there. Without an input there is still none. -/
def pushMissing (input : Input) (name : Nat) : Input :=
  match input with
  | absent => .absent
  | input => input.push (.missing name)

/-- The number of deliveries left. -/
def size : Input → Nat
  | absent => 0
  | single reader => reader.feed.size
  | pile readers => readers.foldr (fun reader total => reader.feed.size + total) 0

@[simp] theorem size_push (input : Input) (reader : Reader) :
    (input.push reader).size = reader.feed.size + input.size := by
  cases input <;> simp [push, size]

/-- Reads a character from the first reader that is not exhausted. Also gives the readers left and
the names of those closed on the way. -/
def readPile : List Reader → Reading × List Reader × List Nat
  | [] => (.ended .exhausted, [], [])
  | reader :: others =>
    match reader.feed.read with
    | (.ended .exhausted, _) =>
      let (reading, left, closed) := readPile others
      (reading, left, if reader.closable then reader.name :: closed else closed)
    | (reading, feed) => (reading.pardoned, { reader with feed } :: others, [])

/-- Reads a character. Also gives the names of the readers closed on the way. -/
def read : Input → Reading × Input × List Nat
  | absent => (.ended .exhausted, .absent, [])
  | single reader =>
    let (reading, feed) := reader.feed.read
    (reading, .single { reader with feed }, [])
  | pile readers =>
    let (reading, left, closed) := readPile readers
    (reading, .pile left, closed)

/-- Whether a reading is a line feed. -/
def isLineFeed : Reading → Bool
  | .rune value _ _ => value = '\n'
  | .ended _ => false

/-- Reads a character, passing over at most so many line feeds. -/
def readPast : Nat → Input → Reading × Input × List Nat
  | 0, input => input.read
  | attempts + 1, input =>
    let (reading, left, closed) := input.read
    if isLineFeed reading then
      let (later, final, closedLater) := readPast attempts left
      (later, final, closed ++ closedLater)
    else (reading, left, closed)

/-- Reads the next character that is not a line feed. -/
def readVisible (input : Input) : Reading × Input × List Nat :=
  input.readPast input.size

end Input

end Aquarium
