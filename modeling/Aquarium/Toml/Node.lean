import Aquarium.Toml.Value

/-!
# The tree of a TOML document

A node is what a name stands for. Keys lead from a table through its entries, and through a list of
tables by way of its last table. `get?_put?` says that what is put at a key is found there.
-/

namespace Aquarium.Toml

/-- What a name stands for: a value, a table, or a list of tables, of which only the last can still
change. -/
inductive Node where
  | value (content : Value)
  | table (entries : List (String × Node))
  | tables (last : List (String × Node))

namespace Node

/-- A table without entries. -/
def empty : Node :=
  .table []

/-- Whether a node is an array. -/
def isArray : Node → Bool
  | value content => content = .array
  | _ => false

/-- The entries that can still change. -/
def entries : Node → List (String × Node)
  | value _ => []
  | table entries => entries
  | tables last => last

/-- What a name stands for among the entries of a node. -/
def child? (node : Node) (name : String) : Option Node :=
  node.entries.lookup name

/-- Entries in which a name stands for a node. -/
def replace (entries : List (String × Node)) (name : String) (child : Node) :
    List (String × Node) :=
  (name, child) :: entries.filter fun entry => entry.1 ≠ name

/-- What a key leads to. -/
def get? : Node → Key → Option Node
  | node, [] => some node
  | node, name :: rest => (node.child? name).bind (·.get? rest)

/-- Puts a node where a key leads to, in tables that come into being where there are none. No key
leads through a value. -/
def put? : Node → Key → Node → Option Node
  | _, [], new => some new
  | value _, _ :: _, _ => none
  | table entries, name :: rest, new =>
    (((table entries).child? name).getD empty |>.put? rest new).map fun child =>
      table (replace entries name child)
  | tables last, name :: rest, new =>
    (((tables last).child? name).getD empty |>.put? rest new).map fun child =>
      tables (replace last name child)

/-- What is put at a key is found there. -/
theorem get?_put? {node new changed : Node} {key : Key} (put : node.put? key new = some changed) :
    changed.get? key = some new := by
  induction key generalizing node changed with
  | nil =>
    simp only [put?, Option.some.injEq] at put
    simp [get?, put]
  | cons name rest ih =>
    cases node with
    | value content => simp [put?] at put
    | table entries =>
      obtain ⟨child, childPut, rfl⟩ := Option.map_eq_some_iff.mp put
      simp [get?, child?, Node.entries, replace, ih childPut]
    | tables last =>
      obtain ⟨child, childPut, rfl⟩ := Option.map_eq_some_iff.mp put
      simp [get?, child?, Node.entries, replace, ih childPut]

end Node

end Aquarium.Toml
