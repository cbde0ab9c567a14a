import Aquarium.Text.Glyph
import Aquarium.Text.Printable

/-!
# Quoted text

A text between double quotes, written so that it shows on one line: printable characters stand for
themselves, a few controls have letters of their own, and everything else, stray bytes included, is
written in hexadecimal.
-/

namespace Aquarium.Quoted

/-- A natural number in hexadecimal digits, with zeros in front up to a width. -/
def hexadecimal (width value : Nat) : List Char :=
  let digits := Nat.toDigits 16 value
  List.replicate (width - digits.length) '0' ++ digits

/-- The letter that stands for a control character after a backslash. -/
def letter? (character : Char) : Option Char :=
  match character.toNat with
  | 0x07 => some 'a'
  | 0x08 => some 'b'
  | 0x0C => some 'f'
  | 0x0A => some 'n'
  | 0x0D => some 'r'
  | 0x09 => some 't'
  | 0x0B => some 'v'
  | _ => none

/-- A character as it stands between the quotes. -/
def escape (character : Char) : List Char :=
  let code := character.toNat
  if character = '"' ∨ character = '\\' then ['\\', character]
  else if Printable.isPrintable code then [character]
  else
    match letter? character with
    | some letter => ['\\', letter]
    | none =>
      if code < 0x80 then '\\' :: 'x' :: hexadecimal 2 code
      else if code < 0x10000 then '\\' :: 'u' :: hexadecimal 4 code
      else '\\' :: 'U' :: hexadecimal 8 code

/-- A glyph as it stands between the quotes. -/
def escapeGlyph : Glyph → List Char
  | .character value => escape value
  | .stray byte => '\\' :: 'x' :: hexadecimal 2 byte.toNat

/-- A text between double quotes. -/
def quote (text : Bytes) : String :=
  String.ofList ('"' :: (Glyph.read text).flatMap escapeGlyph ++ ['"'])

/-- A string between double quotes. -/
def quoteString (text : String) : String :=
  quote (Utf8.ofString text)

end Aquarium.Quoted
