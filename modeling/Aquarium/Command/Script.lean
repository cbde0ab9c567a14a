import Aquarium.CodeBox.Source
import Aquarium.Command.FileTree
import Aquarium.Text.Quoted

/-!
# Script files

A script is a file whose text describes a code box.
-/

namespace Aquarium

/-- Why a script cannot be loaded. -/
inductive ScriptProblem where
  | unopenable (problem : FileProblem)
  | unusable (problem : SourceProblem)
  deriving DecidableEq

/-- The wording of a problem with a script, outermost part first. -/
def ScriptProblem.layers (name : Bytes) : ScriptProblem → List Bytes
  | unopenable problem =>
    [Utf8.ofString ("could not open the script " ++ Quoted.quote name),
      FileTree.openMessage name problem]
  | unusable problem => problem.layers name

/-- The code box of the script with a given name. -/
def FileTree.loadScript (tree : FileTree) (name : Bytes) : Except ScriptProblem CodeBox :=
  let loaded := match tree.lookup name with
    | .error problem => .error (.unopenable problem)
    | .ok .directory =>
      (CodeBox.ofSource [] (some (FileTree.readMessage name))).mapError .unusable
    | .ok (.file contents) => (CodeBox.ofSource contents none).mapError .unusable
  loaded

end Aquarium
