import Aquarium.Command.FileTree
import Aquarium.Command.Flag
import Aquarium.Toml.Value

/-!
# Configuration files

A configuration file sets what has not been set on the command line. What is found in its text is
left open here. A file is taken whole or not at all: `FileTree.loadConfiguration_eq_of_problem` says
that one with a problem changes nothing.
-/

namespace Aquarium

/-- Why a configuration file cannot be taken. -/
inductive ConfigurationProblem where
  | unopenable (problem : FileProblem)
  | directory
  | malformed (reason : Bytes)
  | unknownKey (key : Toml.Key)
  deriving DecidableEq

/-- The wording of a problem with a configuration file, outermost part first. -/
def ConfigurationProblem.layers (name : Bytes) (problem : ConfigurationProblem) : List Bytes :=
  let failed := Utf8.ofString ("failed to load config file " ++ Quoted.quote name)
  match problem with
  | unopenable cause => [failed, FileTree.openMessage name cause]
  | directory => [failed, FileTree.readMessage name]
  | malformed reason => [failed, reason]
  | unknownKey key =>
    [name ++ Utf8.ofString
      (": unknown configuration key " ++ Quoted.quoteString (Toml.keyText key))]

namespace Configuration

/-- The flags that a configuration file can set. -/
def fields : List Flag :=
  [.seed, .maxSteps, .raw, .debug, .verbose, .log]

/-- The values of all settings. -/
structure Content where
  seed : Int
  maxSteps : Int
  raw : Bool
  debug : Bool
  verbose : Int
  log : Bytes
  deriving DecidableEq

/-- What is found in a configuration file: the values of the settings, the names that it defines,
and the keys that are no settings, in order. -/
structure Document where
  content : Content
  defines : String → Bool
  unknown : List Toml.Key

/-- Whether a setting is taken: its name is defined to the letter, and its flag was not given. -/
def uses (document : Document) (given : List Flag) (flag : Flag) : Bool :=
  document.defines flag.name && !given.contains flag

/-- Takes the value of one setting. -/
def take (content : Content) (settings : Settings) (flag : Flag) : Settings :=
  match flag with
  | .seed => { settings with seed := content.seed, seedGiven := true }
  | .maxSteps => { settings with maxSteps := content.maxSteps }
  | .raw => { settings with raw := content.raw }
  | .debug => { settings with debug := content.debug }
  | .verbose => { settings with verbose := content.verbose }
  | .log => { settings with log := content.log }
  | _ => settings

/-- Takes one setting after another. -/
def apply (document : Document) (given : List Flag) (settings : Settings) : Settings :=
  fields.foldl
    (fun changed flag =>
      if uses document given flag then take document.content changed flag else changed)
    settings

/-- The settings after what was found in a file, and the problem with it if there is one. -/
def load (found : Except Bytes Document) (given : List Flag) (settings : Settings) :
    Option ConfigurationProblem × Settings :=
  match found with
  | .error reason => (some (.malformed reason), settings)
  | .ok document =>
    match document.unknown with
    | key :: _ => (some (.unknownKey key), settings)
    | [] => (none, apply document given settings)

end Configuration

/-- The settings after the configuration file with a given name, and the problem with it if there is
one. What is found in a text, or why it cannot be read, is told by `read`. -/
def FileTree.loadConfiguration (tree : FileTree)
    (read : Bytes → Except Bytes Configuration.Document) (name : Bytes) (given : List Flag)
    (settings : Settings) :
    Option ConfigurationProblem × Settings :=
  match tree.lookup name with
  | .error problem => (some (.unopenable problem), settings)
  | .ok .directory => (some .directory, settings)
  | .ok (.file contents) => Configuration.load (read contents) given settings

/-- A problem leaves the settings as they were. -/
theorem FileTree.loadConfiguration_eq_of_problem {tree : FileTree}
    {read : Bytes → Except Bytes Configuration.Document} {name : Bytes} {given : List Flag}
    {settings left : Settings} {problem : ConfigurationProblem}
    (loaded : tree.loadConfiguration read name given settings = (some problem, left)) :
    left = settings := by
  unfold FileTree.loadConfiguration Configuration.load at loaded
  split at loaded
  · simp_all
  · simp_all
  · split at loaded
    · simp_all
    · split at loaded <;> simp_all

end Aquarium
