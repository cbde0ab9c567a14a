import Aquarium.Text.Glyph
import Aquarium.Toml.Outline
import Aquarium.Toml.Quotation
import Aquarium.Toml.Word

/-!
# TOML documents

A document is a list of lines: headers of tables and keys with their values. What is kept of it are
its keys in order and their values.
-/

namespace Aquarium.Toml

/-! ## Keys -/

/-- One name of a key. -/
def name? (text : List Char) : Option (String × List Char) :=
  match text with
  | '"' :: _ => lineText? text
  | '\'' :: _ => lineText? text
  | _ =>
    let bare := text.takeWhile isBare
    if bare.isEmpty then none else some (String.ofList bare, text.drop bare.length)

/-- A key: names with points between them. At most so many names are read. -/
def key? : Nat → List Char → Option (Key × List Char)
  | 0, _ => none
  | fuel + 1, text => do
    let (name, after) ← name? (skipGaps text)
    match skipGaps after with
    | '.' :: rest =>
      let (names, final) ← key? fuel rest
      return (name :: names, final)
    | rest => return ([name], rest)

/-! ## Values -/

/-- A text from the next line end on. -/
def skipComment (text : List Char) : List Char :=
  text.dropWhile (· ≠ '\n')

/-- A text without the gaps, line ends and comments at its front, of which at most so many are
dropped. -/
def skipFiller : Nat → List Char → List Char
  | 0, text => text
  | fuel + 1, text =>
    match text.dropWhile isGapOrEnd with
    | '#' :: rest => skipFiller fuel (skipComment rest)
    | rest => rest

mutual

/-- The value that a name gets in a table, at the front of a text. `listed` says that it stands in
an array. At most so many levels and elements are read. -/
def value? (fuel : Nat) (table : Key) (name : String) (listed : Bool) (outline : Outline)
    (text : List Char) : Option (Node × Outline × List Char) :=
  match fuel, text with
  | 0, _ => none
  | fuel + 1, '[' :: rest => do
    let marked := outline.mark (Outline.kindKey table name) true
    let (after, final) ← elements? fuel table name marked rest
    return (.value .array, after, final)
  | fuel + 1, '\x7b' :: rest => do
    let key := table ++ [name]
    let opened ← outline.openInline? key listed
    members? fuel key .empty opened rest
  | _ + 1, '"' :: _ => do
    let (content, rest) ← quotedText? text
    return (.value (.text (Utf8.ofString content)), outline, rest)
  | _ + 1, '\'' :: _ => do
    let (content, rest) ← quotedText? text
    return (.value (.text (Utf8.ofString content)), outline, rest)
  | _ + 1, _ => do
    let (value, rest) ← word? text
    return (.value value, outline, rest)

/-- The elements of an array up to its end. -/
def elements? (fuel : Nat) (table : Key) (name : String) (outline : Outline)
    (text : List Char) : Option (Outline × List Char) :=
  match fuel with
  | 0 => none
  | fuel + 1 =>
    match skipFiller text.length text with
    | ']' :: rest => some (outline, rest)
    | start => do
      let (_, after, rest) ← value? fuel table name true outline start
      match skipFiller rest.length rest with
      | ',' :: more => elements? fuel table name after more
      | ']' :: final => some (after, final)
      | _ => none

/-- The members of a table between braces up to its end, added to those that came before. -/
def members? (fuel : Nat) (key : Key) (before : Node) (outline : Outline) (text : List Char) :
    Option (Node × Outline × List Char) :=
  match fuel with
  | 0 => none
  | fuel + 1 =>
    match skipFiller text.length text with
    | '\x7d' :: rest => some (before, outline, rest)
    | start => do
      let (names, node, after, rest) ← pair? fuel key outline start
      let members ← before.put? names node
      match skipFiller rest.length rest with
      | ',' :: more => members? fuel key members after more
      | '\x7d' :: final => some (members, after, final)
      | _ => none

/-- A key with its value, within a table. -/
def pair? (fuel : Nat) (table : Key) (outline : Outline) (text : List Char) :
    Option (Key × Node × Outline × List Char) :=
  match fuel with
  | 0 => none
  | fuel + 1 => do
    let (names, after) ← key? text.length text
    match after with
    | '=' :: rest =>
      let within := table ++ names.dropLast
      let name := names.getLastD ""
      let key := table ++ names
      let passed ← outline.traverseAll? table names
      let (node, inner, final) ← value? fuel within name false (passed.note key) (skipGaps rest)
      let defined ← inner.define? key node
      return (names, node, defined.mark (Outline.kindKey within name) node.isArray, final)
    | _ => none

end

/-! ## Lines -/

/-- The text after the end of a line, before which only gaps and a comment may stand. -/
def lineEnd? (text : List Char) : Option (List Char) :=
  match skipGaps text with
  | [] => some []
  | '\n' :: rest => some rest
  | '\r' :: '\n' :: rest => some rest
  | '#' :: rest => some ((skipComment rest).drop 1)
  | _ => none

/-- The header of a table at the front of a text: the outline after it, its key and what follows. -/
def header? (outline : Outline) (text : List Char) : Option (Outline × Key × List Char) :=
  match text with
  | '[' :: '[' :: rest => do
    let (key, after) ← key? rest.length rest
    match after with
    | ']' :: ']' :: final => return ((← outline.openListed? key).headed key, key, final)
    | _ => none
  | '[' :: rest => do
    let (key, after) ← key? rest.length rest
    match after with
    | ']' :: final => return ((← outline.openTable? key).headed key, key, final)
    | _ => none
  | _ => none

/-- The lines of a document, given the table that is open. At most so many lines are read. -/
def lines? : Nat → Key → Outline → List Char → Option Outline
  | 0, _, _, _ => none
  | fuel + 1, table, outline, text =>
    match skipFiller text.length text with
    | [] => some outline
    | '[' :: rest => do
      let (after, key, final) ← header? outline ('[' :: rest)
      lines? fuel key after (← lineEnd? final)
    | start => do
      let (_, _, after, final) ← pair? start.length table outline start
      lines? fuel table after (← lineEnd? final)

/-! ## Documents -/

/-- Whether a document may hold a character: a tab, a line feed, or no control at all. -/
def isAdmitted (character : Char) : Bool :=
  character = '\t' || character = '\n' || (0x20 ≤ character.toNat && character.toNat ≠ 0x7F)

/-- Whether all glyphs of a document may stand where they do: no stray bytes and no controls, and
carriage returns only before line feeds. -/
def admitted : List Glyph → Bool
  | [] => true
  | .stray _ :: _ => false
  | [.character value] => isAdmitted value
  | .character '\r' :: .character '\n' :: rest => admitted rest
  | .character value :: rest => isAdmitted value && admitted rest

/-- A document without the mark of its encoding that may stand before it. -/
def withoutMark : Bytes → Bytes
  | 0xFF :: 0xFE :: rest => rest
  | 0xFE :: 0xFF :: rest => rest
  | 0xEF :: 0xBB :: 0xBF :: rest => rest
  | text => text

/-- The outline of a document, if it is one. -/
def read? (text : Bytes) : Option Outline :=
  let glyphs := Glyph.read (withoutMark text)
  let characters := glyphs.map Glyph.toChar
  if admitted glyphs then lines? (characters.length + 1) [] .empty characters else none

end Aquarium.Toml
