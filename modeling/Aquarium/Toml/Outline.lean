import Aquarium.Toml.Node

/-!
# The outline of a TOML document

What a document has defined so far, its keys in order, and which of them may be defined again. A
table that came into being only on the way to another key is implied: it may be defined once more. A
key that was last given an array counts as a list, and to define it again replaces it.
-/

namespace Aquarium.Toml

/-- What a document has defined so far. -/
structure Outline where
  root : Node
  implied : List Key
  lists : List Key
  keys : Array Key

namespace Outline

/-- Nothing defined. -/
def empty : Outline :=
  ⟨.empty, [], [], #[]⟩

/-- Notes a key in the order of the document. -/
def note (outline : Outline) (key : Key) : Outline :=
  { outline with keys := outline.keys.push key }

/-- Lets a key be defined once more. -/
def imply (outline : Outline) (key : Key) : Outline :=
  { outline with implied := key :: outline.implied }

/-- Lets a key no longer be defined again. -/
def settle (outline : Outline) (key : Key) : Outline :=
  { outline with implied := outline.implied.filter (· ≠ key) }

/-- Says whether a key counts as a list. -/
def mark (outline : Outline) (key : Key) (list : Bool) : Outline :=
  let others := outline.lists.filter (· ≠ key)
  { outline with lists := if list then key :: others else others }

/-- The key for which the kind of a value is kept: its own, or that of its table if it has the empty
name and is not outermost. -/
def kindKey (table : Key) (name : String) : Key :=
  if name = "" ∧ table ≠ [] then table else table ++ [name]

/-- Puts a node where a key leads to. -/
def put? (outline : Outline) (key : Key) (node : Node) : Option Outline :=
  (outline.root.put? key node).map fun root => { outline with root }

/-- Defines a key. One that is there already has to be implied; a list is then replaced, and
anything else stays as it is. -/
def define? (outline : Outline) (key : Key) (node : Node) : Option Outline :=
  match outline.root.get? key with
  | none => outline.put? key node
  | some _ =>
    if outline.implied.contains key then
      if outline.lists.contains key then (outline.settle key).put? key node
      else some (outline.settle key)
    else none

/-- The keys of the tables that a key lies in, the outermost first. -/
def parents (key : Key) : List Key :=
  (List.range (key.length - 1)).map fun depth => key.take (depth + 1)

/-- Makes sure that a key leads to a table. A new one is implied. -/
def reach? (outline : Outline) (key : Key) : Option Outline :=
  match outline.root.get? key with
  | none => (outline.imply key).put? key .empty
  | some (.value _) => none
  | some _ => some outline

/-- Makes sure that all that a key lies in are tables. -/
def reachParents? (outline : Outline) (key : Key) : Option Outline :=
  (parents key).foldlM reach? outline

/-- Opens a table. -/
def openTable? (outline : Outline) (key : Key) : Option Outline := do
  (← outline.reachParents? key).define? key .empty

/-- Opens a new table at the end of a list of tables. -/
def openListed? (outline : Outline) (key : Key) : Option Outline := do
  let within ← outline.reachParents? key
  match within.root.get? key with
  | none => within.put? key (.tables [])
  | some (.tables _) => within.put? key (.tables [])
  | some _ => none

/-- Notes that a header has opened a table, which is no longer a list. -/
def headed (outline : Outline) (key : Key) : Outline :=
  (outline.mark key false).note key

/-- Goes through a table on the way to a dotted name. A table met for the first time is implied, and
one met again no longer is. -/
def traverse? (outline : Outline) (key : Key) : Option Outline :=
  (outline.imply key).openTable? key

/-- Goes through all tables on the way to a dotted name within a table. -/
def traverseAll? (outline : Outline) (table names : Key) : Option Outline :=
  (parents names).foldlM (fun passed way => passed.traverse? (table ++ way)) outline

/-- Opens a table between braces, which may be an element of an array. -/
def openInline? (outline : Outline) (key : Key) (listed : Bool) : Option Outline :=
  let implied := outline.imply key
  if listed then implied.openListed? key else implied.openTable? key

end Outline

end Aquarium.Toml
