import Aquarium.Text.Glyph

/-!
# File trees

The files that a command can see: a tree of directories and files below the current directory. A
path is a run of bytes, with slashes between the names, and is resolved name by name. What lies
outside the tree is known only by the very path that it is asked for by; of the rest there, nothing
is known but that there are directories.
-/

namespace Aquarium

/-- Why a file cannot be used. -/
inductive FileProblem where
  | missing
  | isDirectory
  | notDirectory
  deriving DecidableEq

/-- The wording of a problem. -/
def FileProblem.message : FileProblem → String
  | missing => "no such file or directory"
  | isDirectory => "is a directory"
  | notDirectory => "not a directory"

/-- What can stand at a place of the tree. -/
inductive FileEntry where
  | file (contents : Bytes)
  | directory
  deriving DecidableEq

/-- A tree of files below the current directory, and files known by their path. -/
structure FileTree where
  entries : List (List Bytes × FileEntry)
  elsewhere : List (Bytes × FileEntry)
  deriving DecidableEq

/-- Where the resolution of a path stands: at a place of the tree, or in a directory outside it. -/
inductive FilePlace where
  | within (names : List Bytes)
  | outside
  deriving DecidableEq

namespace FileTree

/-- The tree without files. -/
def empty : FileTree :=
  ⟨[], []⟩

/-- What stands at a place of the tree. The current directory is always there. -/
def entryAt? (tree : FileTree) (names : List Bytes) : Option FileEntry :=
  if names.isEmpty then some .directory
  else (tree.entries.find? fun entry => entry.1 = names).map Prod.snd

/-- Puts an entry at a place, over what stood there. -/
def put (tree : FileTree) (names : List Bytes) (entry : FileEntry) : FileTree :=
  { tree with entries := (names, entry) :: tree.entries.filter fun other => other.1 ≠ names }

/-- Makes a file known by its path. -/
def know (tree : FileTree) (path : Bytes) (entry : FileEntry) : FileTree :=
  { tree with elsewhere := (path, entry) :: tree.elsewhere }

/-- Makes sure that a place and all places on the way to it are there. -/
def makeDirectories (tree : FileTree) (names : List Bytes) : FileTree :=
  (List.range names.length).foldl
    (fun grown depth =>
      let place := names.take (depth + 1)
      match grown.entryAt? place with
      | none => grown.put place .directory
      | some _ => grown)
    tree

/-- The byte between the names of a path. -/
def slash : UInt8 := 0x2F

/-- The name that every directory has in itself. -/
def itself : Bytes := [0x2E]

/-- The name of the directory above. -/
def above : Bytes := [0x2E, 0x2E]

/-- What stands between the slashes of a path. -/
def split (path : Bytes) : List Bytes :=
  path.splitOnP (· == slash)

/-- Where the resolution of a path begins. -/
def origin (path : Bytes) : FilePlace :=
  if path.head? = some slash then .outside else .within []

/-- The names in a path. -/
def namesOf (path : Bytes) : List Bytes :=
  (split path).filter fun name => name ≠ [] ∧ name ≠ itself

/-- The tree with a file at a path, or a directory if the path ends with a slash. -/
def insert (tree : FileTree) (path : Bytes) (contents : Bytes) : FileTree :=
  let names := namesOf path
  if path.getLast? = some slash then tree.makeDirectories names
  else (tree.makeDirectories names.dropLast).put names (.file contents)

/-- Whether a place is a directory. -/
def isDirectoryAt (tree : FileTree) : FilePlace → Bool
  | .outside => true
  | .within names =>
    match tree.entryAt? names with
    | some .directory => true
    | _ => false

/-- Goes through the names of a path, from a place that is there. -/
def walk (tree : FileTree) : FilePlace → List Bytes → Except FileProblem FilePlace
  | place, [] => .ok place
  | place, name :: rest =>
    if !tree.isDirectoryAt place then .error .notDirectory
    else if name = [] ∨ name = itself then tree.walk place rest
    else
      match place with
      | .outside => if name = above then tree.walk .outside rest else .error .missing
      | .within names =>
        if name = above then
          tree.walk (if names.isEmpty then .outside else .within names.dropLast) rest
        else if (tree.entryAt? (names ++ [name])).isSome then
          tree.walk (.within (names ++ [name])) rest
        else .error .missing

/-- The place that a path leads to. -/
def resolve (tree : FileTree) (path : Bytes) : Except FileProblem FilePlace :=
  if path = [] then .error .missing else tree.walk (origin path) (split path)

/-- What a path leads to. -/
def lookup (tree : FileTree) (path : Bytes) : Except FileProblem FileEntry :=
  match tree.elsewhere.find? fun entry => entry.1 = path with
  | some (_, entry) => .ok entry
  | none =>
    match tree.resolve path with
    | .error problem => .error problem
    | .ok .outside => .ok .directory
    | .ok (.within names) =>
      match tree.entryAt? names with
      | some entry => .ok entry
      | none => .error .missing

/-- Makes sure that there is a file at a path to append to. -/
def claim (tree : FileTree) (path : Bytes) : Except FileProblem FileTree :=
  match tree.lookup path with
  | .ok (.file _) => .ok tree
  | .ok .directory => .error .isDirectory
  | .error .notDirectory => .error .notDirectory
  | .error .isDirectory => .error .isDirectory
  | .error .missing =>
    let names := split path
    let last := names.getLastD []
    if path = [] then .error .missing
    else
      match tree.walk (origin path) names.dropLast with
      | .error problem => .error problem
      | .ok .outside => if last = [] then .error .isDirectory else .ok tree
      | .ok (.within parent) =>
        if last = [] then .error .isDirectory
        else .ok (tree.put (parent ++ [last]) (.file []))

/-- The wording of a file that could not be opened. -/
def openMessage (path : Bytes) (problem : FileProblem) : Bytes :=
  Utf8.ofString "open " ++ path ++ Utf8.ofString (": " ++ problem.message)

/-- The wording of a directory that could not be read as a file. -/
def readMessage (path : Bytes) : Bytes :=
  Utf8.ofString "read " ++ path ++ Utf8.ofString (": " ++ FileProblem.isDirectory.message)

end FileTree

end Aquarium
