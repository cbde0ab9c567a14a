import Aquarium.Number.Numeral

/-!
# Quoted texts of a TOML document

Basic texts stand between double quotes and have escapes; literal texts stand between single quotes
and have none. Three quotes open a text that may run over several lines.
-/

namespace Aquarium.Toml

/-- Whether a character is a space or a tab. -/
def isGap (character : Char) : Bool :=
  character = ' ' || character = '\t'

/-- Whether a character is a gap or ends a line. -/
def isGapOrEnd (character : Char) : Bool :=
  isGap character || character = '\n' || character = '\r'

/-- A text without the gaps at its front. -/
def skipGaps (text : List Char) : List Char :=
  text.dropWhile isGap

/-- Puts characters before what is read. -/
def prepend (characters : List Char) (parsed : Option (List Char × List Char)) :
    Option (List Char × List Char) :=
  parsed.map fun (content, rest) => (characters ++ content, rest)

/-! ## Extent -/

/-- The inside of a text on one line, up to its closing quote, with escapes as they stand. -/
def inside (quote : Char) (escapes : Bool) : List Char → Option (List Char × List Char)
  | [] => none
  | '\n' :: _ => none
  | first :: [] => if first = quote then some ([], []) else none
  | first :: second :: rest =>
    if first = quote then some ([], second :: rest)
    else if escapes && first = '\\' then
      if second = '\n' then none else prepend [first, second] (inside quote escapes rest)
    else prepend [first] (inside quote escapes (second :: rest))

/-- How many quotes stand at the front. -/
def quoteRun (quote : Char) (text : List Char) : Nat :=
  (text.takeWhile (· = quote)).length

/-- How many quotes may stand together at the end of a text over several lines: the three that close
it and two more, or three more right after an escaped backslash. -/
def longestRun (afterBackslash : Bool) : Nat :=
  if afterBackslash then 6 else 5

/-- The inside of a text over several lines, up to its three closing quotes. At most so many
characters are looked at. -/
def insideLines (quote : Char) (escapes : Bool) :
    Nat → Bool → List Char → Option (List Char × List Char)
  | 0, _, _ => none
  | _, _, [] => none
  | fuel + 1, afterBackslash, first :: rest =>
    let run := quoteRun quote (first :: rest)
    if longestRun afterBackslash < run then none
    else if 3 ≤ run then
      some (List.replicate (run - 3) quote, rest.drop (run - 1))
    else if escapes && first = '\\' then
      match rest with
      | [] => none
      | second :: more =>
        prepend [first, second] (insideLines quote escapes fuel (second = '\\') more)
    else prepend [first] (insideLines quote escapes fuel false rest)

/-- A text over several lines without the line end that directly follows its opening quotes. -/
def withoutFirstEnd : List Char → List Char
  | '\n' :: rest => rest
  | '\r' :: '\n' :: rest => rest
  | text => text

/-! ## Escapes -/

/-- The character with a code in hexadecimal digits. -/
def codeCharacter? (digits : List Char) : Option Char :=
  let code := Numeral.digitsValue 16 digits
  if digits.all (Numeral.isDigit true) && code.isValidChar then some (Char.ofNat code) else none

/-- The character that a letter stands for after a backslash. -/
def letterCharacter? (letter : Char) : Option Char :=
  match letter with
  | 'b' => some '\x08'
  | 't' => some '\t'
  | 'n' => some '\n'
  | 'f' => some '\x0c'
  | 'r' => some '\r'
  | 'e' => some '\x1b'
  | '"' => some '"'
  | '\\' => some '\\'
  | _ => none

/-- How many hexadecimal digits a letter asks for after a backslash. -/
def digitsAfter? (letter : Char) : Option Nat :=
  match letter with
  | 'x' => some 2
  | 'u' => some 4
  | 'U' => some 8
  | _ => none

/-- A text with its escapes resolved. Over several lines, a backslash at the end of a line takes
away the gaps and line ends up to the next character. At most so many characters are looked at. -/
def unescape (lines : Bool) : Nat → List Char → Option (List Char)
  | _, [] => some []
  | 0, _ => none
  | fuel + 1, '\\' :: rest =>
    let afterGaps := withoutFirstEnd (skipGaps rest)
    if lines && afterGaps.length < (skipGaps rest).length then
      unescape lines fuel (rest.dropWhile isGapOrEnd)
    else
      match rest with
      | [] => none
      | letter :: more =>
        match digitsAfter? letter with
        | some count =>
          if count ≤ more.length then do
            let character ← codeCharacter? (more.take count)
            return character :: (← unescape lines fuel (more.drop count))
          else none
        | none => do
          let character ← letterCharacter? letter
          return character :: (← unescape lines fuel more)
  | fuel + 1, character :: rest => (unescape lines fuel rest).map (character :: ·)

/-! ## Texts -/

/-- A text on one line, from its opening quote on. -/
def lineText? : List Char → Option (String × List Char)
  | '"' :: rest => do
    let (content, after) ← inside '"' true rest
    let characters ← unescape false content.length content
    return (String.ofList characters, after)
  | '\'' :: rest => do
    let (content, after) ← inside '\'' false rest
    return (String.ofList content, after)
  | _ => none

/-- A text, from its opening quotes on. -/
def quotedText? : List Char → Option (String × List Char)
  | '"' :: '"' :: '"' :: rest => do
    let (content, after) ← insideLines '"' true rest.length false rest
    let characters ← unescape true content.length (withoutFirstEnd content)
    return (String.ofList characters, after)
  | '\'' :: '\'' :: '\'' :: rest => do
    let (content, after) ← insideLines '\'' false rest.length false rest
    return (String.ofList (withoutFirstEnd content), after)
  | text => lineText? text

end Aquarium.Toml
