import Aquarium.Command.Report
import Aquarium.Toml.Document

/-!
# A library for the command

A configuration file is read as a TOML document, whose keys match the settings in any case. The log
opens a file for appending, unless nothing is logged at all.
-/

namespace Aquarium

namespace Configuration

/-- A character without its case. The long s counts as an s. -/
def fold (character : Char) : Char :=
  if character = '\u017f' then 's' else character.toLower

/-- The flag that a name stands for when case does not matter. -/
def fieldOf? (name : String) : Option Flag :=
  fields.find? fun flag => flag.name.toList = name.toList.map fold

/-- Whether a name is that of a flag to the letter. -/
def isExact (name : String) : Bool :=
  fields.any fun flag => flag.name = name

/-- Whether a key of a document is a setting. -/
def isKnown (key : Toml.Key) : Bool :=
  match key with
  | [name] => (fieldOf? name).isSome
  | _ => false

namespace Content

/-- The values of settings that are left out. -/
def empty : Content :=
  ⟨0, 0, false, false, 0, []⟩

/-- Takes what a name stands for as the value of a flag, if the flag can have it. -/
def put? (content : Content) (flag : Flag) (node : Toml.Node) : Option Content :=
  match flag, node with
  | .seed, .value (.integer seed) => some { content with seed }
  | .maxSteps, .value (.integer maxSteps) => some { content with maxSteps }
  | .raw, .value (.boolean raw) => some { content with raw }
  | .debug, .value (.boolean debug) => some { content with debug }
  | .verbose, .value (.integer verbose) => some { content with verbose }
  | .log, .value (.text log) => some { content with log }
  | _, _ => none

/-- The values that entries give, the first entry last. Names match in any case, and those that
match none are passed over. -/
def ofEntries? : List (String × Toml.Node) → Option Content
  | [] => some empty
  | (name, node) :: earlier => do
    let content ← ofEntries? earlier
    match fieldOf? name with
    | some flag => content.put? flag node
    | none => return content

end Content

/-- What is found in the outline of a file, if every setting has a value of its kind. A name to the
letter comes after one in another case. -/
def Document.ofOutline? (outline : Toml.Outline) : Option Document := do
  let (exact, others) := outline.root.entries.partition fun entry => isExact entry.1
  let content ← Content.ofEntries? (exact ++ others)
  return {
    content
    defines := fun name => (outline.root.child? name).isSome
    unknown := outline.keys.toList.filter fun key => !isKnown key }

/-- What is found in the text of a file. -/
def Document.read? (text : Bytes) : Option Document := do
  Document.ofOutline? (← Toml.read? text)

end Configuration

namespace Library

/-- The verbosity at which nothing is logged any more. -/
def silence : Int := -4

/-- The least verbosity at which messages of a level are logged. -/
def threshold : Level → Int
  | .warning => -1
  | .info => 1
  | .debug => 2

/-- Opens a log file, and makes it if it is not there. -/
def openFile (tree : FileTree) (verbose : Int) (path : Bytes) : Except Report FileTree :=
  if verbose ≤ silence then .ok tree
  else
    match tree.claim path with
    | .ok claimed => .ok claimed
    | .error problem =>
      let said := Utf8.ofString "log file error: " ++ FileTree.openMessage path problem ++
        Utf8.ofString "\n"
      .error ⟨1, "", [said], [], false⟩

/-- A library that reads configuration files as TOML documents and words an error in detail by its
layers, the innermost first. -/
def standard : Library where
  document text :=
    match Configuration.Document.read? text with
    | some document => .ok document
    | none => .error (Utf8.ofString "toml")
  openLog := openFile
  allows verbose level := threshold level ≤ verbose
  detail layers := List.intercalate (Utf8.ofString "\n") layers.reverse

end Library

end Aquarium
