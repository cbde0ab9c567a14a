import Aquarium.Text.Glyph

/-!
# Output

A program writes pieces, which are characters or texts, to an outlet. Each piece is handed over in
one delivery, which the outlet takes whole or refuses. What has been taken stays on record,
whichever outlet took it.
-/

namespace Aquarium

/-- What a program writes at a time. -/
inductive Piece where
  | character (value : Char)
  | text (value : String)
  deriving DecidableEq

/-- The bytes of a piece. -/
def Piece.bytes : Piece → Bytes
  | character value => Utf8.encode value
  | text value => Utf8.ofString value

/-- One call on an outlet: with a character, which the outlet puts into bytes itself, or with
bytes. -/
inductive Delivery where
  | character (value : Char)
  | chunk (value : Bytes)
  deriving DecidableEq

namespace Delivery

/-- The bytes that come out of a delivery. -/
def bytes : Delivery → Bytes
  | character value => Utf8.encode value
  | chunk value => value

/-- The text of a delivery. -/
def text (delivery : Delivery) : String :=
  Utf8.display delivery.bytes

end Delivery

/-- Where pieces go. An outlet may refuse every delivery beyond an allowance, may have a buffer that
can be flushed, may take characters as they are, and may be clogged, so that no flush succeeds. -/
structure Outlet where
  allowance : Option Nat
  refusal : String
  buffered : Bool
  takesCharacters : Bool
  clog : Option String
  deriving DecidableEq

namespace Outlet

/-- The bytes of a character for an outlet that takes only bytes. A character of seven bits is its
own byte. -/
def spell (character : Char) : Bytes :=
  if character.toNat < 0x80 then [character.toNat.toUInt8] else Utf8.encode character

/-- The call that hands a piece to an outlet. -/
def delivery (outlet : Outlet) : Piece → Delivery
  | .character value =>
    if outlet.takesCharacters then .character value else .chunk (spell value)
  | .text value => .chunk (Utf8.ofString value)

end Outlet

/-- The output of a program: the outlet in use, if any, the deliveries taken so far, the latest
first, and the number of times a buffer has been flushed. Without an outlet, pieces are thrown
away. -/
structure Output where
  outlet : Option Outlet
  written : List Delivery
  flushes : Nat
  deriving DecidableEq

namespace Output

/-- The output that has no outlet and has taken nothing. -/
def closed : Output :=
  ⟨none, [], 0⟩

/-- Writes a piece. The error is the outlet's reason to refuse it. -/
def write (output : Output) (piece : Piece) : Except String Output :=
  match output.outlet with
  | none => .ok output
  | some outlet =>
    match outlet.allowance with
    | none => .ok { output with written := outlet.delivery piece :: output.written }
    | some 0 => .error outlet.refusal
    | some (left + 1) =>
      .ok
        { output with
          outlet := some { outlet with allowance := some left }
          written := outlet.delivery piece :: output.written }

/-- Changes the outlet. What the old one has taken stays on record. -/
def redirect (output : Output) (outlet : Option Outlet) : Output :=
  { output with outlet }

/-- Flushes the buffer of the outlet, if it has one. The error is why the outlet is clogged. -/
def flush (output : Output) : Option String × Output :=
  match output.outlet with
  | none => (none, output)
  | some outlet =>
    if outlet.buffered then (outlet.clog, { output with flushes := output.flushes + 1 })
    else (none, output)

/-- The deliveries taken so far, in order. -/
def deliveries (output : Output) : List Delivery :=
  output.written.reverse

/-- The texts of the deliveries taken so far, in order. -/
def pieces (output : Output) : List String :=
  output.deliveries.map Delivery.text

/-- All text taken so far. -/
def text (output : Output) : String :=
  String.join output.pieces

end Output

end Aquarium
