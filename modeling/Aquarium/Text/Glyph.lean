/-!
# UTF-8 text

Text comes in as bytes that may not be valid UTF-8. A *glyph* is what one step of reading finds at
the front of them: a character in its shortest form, or a single stray byte that begins none. Bytes
are never lost: the glyphs of a text spell it out again.
-/

namespace Aquarium

/-- Text as it comes in or goes out. -/
abbrev Bytes := List UInt8

namespace Utf8

/-- What the first byte of a longer character promises: the number of bytes that follow, and the
bounds of the first of them. -/
structure Lead where
  owed : Nat
  least : Nat
  most : Nat

/-- The promise of a first byte, if it begins a character of two bytes or more. The narrower bounds
leave out overlong forms, surrogates and codes above the last character. -/
def lead? (byte : UInt8) : Option Lead :=
  let code := byte.toNat
  if code < 0xC2 then none
  else if code < 0xE0 then some ⟨1, 0x80, 0xBF⟩
  else if code = 0xE0 then some ⟨2, 0xA0, 0xBF⟩
  else if code = 0xED then some ⟨2, 0x80, 0x9F⟩
  else if code < 0xF0 then some ⟨2, 0x80, 0xBF⟩
  else if code = 0xF0 then some ⟨3, 0x90, 0xBF⟩
  else if code < 0xF4 then some ⟨3, 0x80, 0xBF⟩
  else if code = 0xF4 then some ⟨3, 0x80, 0x8F⟩
  else none

/-- Whether a byte may stand after the first two of a character. -/
def isTail (byte : UInt8) : Bool :=
  0x80 ≤ byte.toNat && byte.toNat ≤ 0xBF

/-- Whether bytes after the first keep its promise as far as they go. -/
def Lead.admits (lead : Lead) : Bytes → Bool
  | [] => true
  | second :: others =>
    lead.least ≤ second.toNat && second.toNat ≤ lead.most && others.all isTail

/-- The code that a first byte and the bytes after it spell. -/
def codeOf (first : UInt8) (tails : Bytes) : Nat :=
  tails.foldl (fun code tail => code * 64 + tail.toNat % 64)
    (first.toNat % Nat.pow 2 (6 - tails.length))

/-- The bytes of a character. -/
def encode (character : Char) : Bytes :=
  let code := character.toNat
  if code < 0x80 then [code.toUInt8]
  else if code < 0x800 then [(0xC0 + code / 64).toUInt8, (0x80 + code % 64).toUInt8]
  else if code < 0x10000 then
    [(0xE0 + code / 4096).toUInt8, (0x80 + code / 64 % 64).toUInt8, (0x80 + code % 64).toUInt8]
  else
    [(0xF0 + code / 262144).toUInt8, (0x80 + code / 4096 % 64).toUInt8,
      (0x80 + code / 64 % 64).toUInt8, (0x80 + code % 64).toUInt8]

/-- Every character has bytes. -/
theorem encode_ne_nil (character : Char) : encode character ≠ [] := by
  grind [encode]

/-- The bytes of characters. -/
def encodeAll (characters : List Char) : Bytes :=
  characters.flatMap encode

/-- The bytes of a string. -/
def ofString (text : String) : Bytes :=
  encodeAll text.toList

end Utf8

/-- One step of reading bytes as text. -/
inductive Glyph where
  | character (value : Char)
  | stray (byte : UInt8)
  deriving DecidableEq

namespace Glyph

/-- The character that stands for undecodable text. -/
def replacement : Char := '\uFFFD'

/-- The character to show: a stray byte shows the replacement character. -/
def toChar : Glyph → Char
  | character value => value
  | stray _ => replacement

/-- The bytes that were read. -/
def bytes : Glyph → Bytes
  | character value => Utf8.encode value
  | stray byte => [byte]

/-- The number of bytes that were read. -/
def size (glyph : Glyph) : Nat :=
  glyph.bytes.length

/-- No glyph is read from nothing. -/
theorem size_pos (glyph : Glyph) : 0 < glyph.size := by
  cases glyph with
  | character value => exact List.length_pos_iff.mpr (Utf8.encode_ne_nil value)
  | stray byte => simp [size, bytes]

/-- The glyph at the front of a text. -/
def first (byte : UInt8) (rest : Bytes) : Glyph :=
  if byte.toNat < 0x80 then .character (Char.ofNat byte.toNat)
  else
    match Utf8.lead? byte with
    | none => .stray byte
    | some lead =>
      let tails := rest.take lead.owed
      if tails.length = lead.owed && lead.admits tails then
        .character (Char.ofNat (Utf8.codeOf byte tails))
      else .stray byte

/-- The glyphs of a text whose first bytes, so many, have been read already. -/
def readSkipping : Nat → Bytes → List Glyph
  | _, [] => []
  | skipped + 1, _ :: rest => readSkipping skipped rest
  | 0, byte :: rest => first byte rest :: readSkipping ((first byte rest).size - 1) rest

/-- The glyphs of a text. -/
def read (text : Bytes) : List Glyph :=
  readSkipping 0 text

/-- Whether bytes are enough to tell their first glyph: no byte after them could change it. -/
def isComplete : Bytes → Bool
  | [] => false
  | byte :: tails =>
    match Utf8.lead? byte with
    | none => true
    | some lead => lead.owed ≤ tails.length || !lead.admits tails

end Glyph

namespace Utf8

/-- The characters of a text, each stray byte shown as the replacement character. -/
def characters (text : Bytes) : List Char :=
  (Glyph.read text).map Glyph.toChar

/-- A text as a string, each stray byte shown as the replacement character. -/
def display (text : Bytes) : String :=
  String.ofList (characters text)

end Utf8

end Aquarium
