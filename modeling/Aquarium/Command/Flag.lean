import Aquarium.Number.Literal
import Aquarium.Number.Series
import Aquarium.Text.Quoted

/-!
# Flags

The flags of a command line, whose arguments are bytes. A flag stands before all other arguments,
with one dash or two; its value follows an equals sign or is the next argument. A switch needs no
value.
-/

namespace Aquarium

/-- A flag. -/
inductive Flag where
  | config
  | debug
  | dump
  | input
  | list
  | log
  | maxSteps
  | raw
  | string
  | seed
  | numbers
  | verbose
  deriving DecidableEq

namespace Flag

/-- All flags in the order of their names. -/
def all : List Flag :=
  [.config, .debug, .dump, .input, .list, .log, .maxSteps, .raw, .string, .seed, .numbers, .verbose]

/-- The name of a flag. -/
def name : Flag → String
  | config => "config"
  | debug => "debug"
  | dump => "dump"
  | input => "input"
  | list => "list"
  | log => "log"
  | maxSteps => "max-steps"
  | raw => "raw"
  | string => "s"
  | seed => "seed"
  | numbers => "v"
  | verbose => "verbose"

/-- The name of a flag as it stands in an argument. -/
def label (flag : Flag) : Bytes :=
  Utf8.ofString flag.name

/-- The flag with a given name. -/
def ofName? (name : Bytes) : Option Flag :=
  all.find? fun flag => flag.label = name

/-- Whether a flag needs no value. -/
def isSwitch : Flag → Bool
  | debug => true
  | dump => true
  | list => true
  | raw => true
  | _ => false

/-- What the value of a flag is called. -/
def placeholder : Flag → String
  | config => " filename"
  | input => " filename"
  | log => " filename"
  | maxSteps => " n"
  | string => " string"
  | seed => " int"
  | numbers => " numbers"
  | verbose => " int"
  | _ => ""

/-- What a flag is for. -/
def purpose : Flag → String
  | config => "load default options from TOML file filename"
  | debug => "enable debug diagnostics"
  | dump => "dump the stack, register and code box upon exit"
  | input => "Add filename to the input list (can be specified multiple times)"
  | list => "print a listing of the code box and exit"
  | log => "write log messages to filename instead of stderr"
  | maxSteps => "stop after n instructions (0 means no limit)"
  | raw => "switch the terminal to raw input mode"
  | string => "push the characters of string on the initial stack"
  | seed => "seed for the random direction instruction"
  | numbers => "push numbers on the initial stack"
  | verbose => "log verbosity (2 traces every instruction)"

/-- The two lines of a flag in the usage text. -/
def usage (flag : Flag) : String :=
  "  -" ++ flag.name ++ flag.placeholder ++ "\n    \t" ++ flag.purpose ++ "\n"

end Flag

/-- What can be set on the command line as well as in a configuration file. -/
structure Settings where
  seed : Int
  seedGiven : Bool
  maxSteps : Int
  raw : Bool
  debug : Bool
  verbose : Int
  log : Bytes
  deriving DecidableEq

/-- The settings of a command line without flags. -/
def Settings.plain : Settings :=
  ⟨0, false, 0, false, false, 0, []⟩

/-- What the flags of a command line ask for. -/
structure Request where
  settings : Settings
  dump : Bool
  list : Bool
  config : Bytes
  stack : List Number
  inputs : List Bytes
  given : List Flag

/-- What a command line without flags asks for. -/
def Request.plain : Request :=
  ⟨.plain, false, false, [], [], [], []⟩

namespace Request

/-- Puts a series of numbers on the initial stack: all of them, or none if one cannot be read. -/
def pushSeries (request : Request) (text : Bytes) : Except Series.Refusal Request := do
  return { request with stack := request.stack ++ (← Series.read text) }

theorem pushSeries_eq (request : Request) (text : Bytes) :
    request.pushSeries text =
      (Series.read text).map fun series => { request with stack := request.stack ++ series } := by
  unfold pushSeries
  cases Series.read text <;> rfl

/-- Puts the codes of the characters of a text on the initial stack. -/
def pushText (request : Request) (text : Bytes) : Request :=
  { request with stack := request.stack ++ Series.ofText text }

end Request

/-- Why flags cannot be read. -/
inductive FlagProblem where
  | badSyntax (argument : Bytes)
  | undefined (name : Bytes)
  | help
  | noValue (flag : Flag)
  | notBoolean (flag : Flag) (value : Bytes)
  | badValue (flag : Flag) (value : Bytes) (reason : String)
  deriving DecidableEq

/-- The wording of a problem. -/
def FlagProblem.message : FlagProblem → Bytes
  | badSyntax argument => Utf8.ofString "bad flag syntax: " ++ argument
  | undefined name => Utf8.ofString "flag provided but not defined: -" ++ name
  | help => Utf8.ofString "flag: help requested"
  | noValue flag => Utf8.ofString ("flag needs an argument: -" ++ flag.name)
  | notBoolean flag value =>
    Utf8.ofString ("invalid boolean value " ++ Quoted.quote value ++ " for -" ++ flag.name ++
      ": parse error")
  | badValue flag value reason =>
    Utf8.ofString ("invalid value " ++ Quoted.quote value ++ " for flag -" ++ flag.name ++ ": " ++
      reason)

namespace Flag

/-- The truth value that a text stands for. -/
def boolean? (text : Bytes) : Option Bool :=
  if (["1", "t", "T", "TRUE", "true", "True"].map Utf8.ofString).contains text then some true
  else if (["0", "f", "F", "FALSE", "false", "False"].map Utf8.ofString).contains text then
    some false
  else none

/-- Turns a switch. -/
def turn (flag : Flag) (position : Bool) (request : Request) : Request :=
  match flag with
  | raw => { request with settings := { request.settings with raw := position } }
  | debug => { request with settings := { request.settings with debug := position } }
  | dump => { request with dump := position }
  | list => { request with list := position }
  | _ => request

/-- The integer value of a flag. -/
def integer (flag : Flag) (value : Bytes) : Except FlagProblem Int :=
  match Literal.read (Utf8.characters value) with
  | .ok number => .ok number
  | .error problem => .error (.badValue flag value (Literal.problemMessage problem))

/-- Gives a flag its value. -/
def assign (flag : Flag) (value : Bytes) (request : Request) : Except FlagProblem Request :=
  let settings := request.settings
  match flag with
  | config => .ok { request with config := value }
  | input => .ok { request with inputs := request.inputs ++ [value] }
  | log => .ok { request with settings := { settings with log := value } }
  | string => .ok (request.pushText value)
  | numbers =>
    match request.pushSeries value with
    | .ok changed => .ok changed
    | .error refusal =>
      .error (.badValue flag value (String.intercalate ": " refusal.layers))
  | seed => do return { request with settings := { settings with seed := ← flag.integer value } }
  | maxSteps => do
    return { request with settings := { settings with maxSteps := ← flag.integer value } }
  | verbose => do
    return { request with settings := { settings with verbose := ← flag.integer value } }
  | _ =>
    match boolean? value with
    | some position => .ok (flag.turn position request)
    | none => .error (.notBoolean flag value)

/-- Notes that a flag was given. -/
def mark (flag : Flag) (request : Request) : Request :=
  if request.given.contains flag then request
  else { request with given := request.given ++ [flag] }

/-- The value of a switch that is given none. -/
def positive : Bytes :=
  Utf8.ofString "true"

/-- The name in an argument without its dashes, and the value after an equals sign, which is never
the first byte. -/
def splitValue (text : Bytes) : Bytes × Option Bytes :=
  let name := text.take 1 ++ (text.drop 1).takeWhile (· ≠ 0x3D)
  match text.drop name.length with
  | _ :: value => (name, some value)
  | [] => (name, none)

end Flag

/-- How an argument is to be taken. -/
inductive Argument where
  | ordinary
  | terminator
  | malformed
  | flag (name : Bytes) (value : Option Bytes)
  deriving DecidableEq

/-- How an argument is to be taken: a flag has one dash or two and a name after them. -/
def Argument.of (argument : Bytes) : Argument :=
  let body? : Option Bytes := match argument with
    | 0x2D :: 0x2D :: rest => some rest
    | 0x2D :: first :: rest => some (first :: rest)
    | _ => none
  match body? with
  | none => .ordinary
  | some [] => .terminator
  | some (first :: rest) =>
    if first = 0x2D ∨ first = 0x3D then .malformed
    else
      let (name, value) := Flag.splitValue (first :: rest)
      .flag name value

/-- The outcome of reading flags: what they ask for, the arguments left, and why reading ended if it
ended too early. -/
structure Reckoning where
  request : Request
  rest : List Bytes
  problem : Option FlagProblem

namespace Request

/-- Reads the flags at the front of a command line. Only the known flags are recognised. -/
def readFlags (known : List Flag) (request : Request) : List Bytes → Reckoning
  | [] => ⟨request, [], none⟩
  | argument :: rest =>
    match Argument.of argument with
    | .ordinary => ⟨request, argument :: rest, none⟩
    | .terminator => ⟨request, rest, none⟩
    | .malformed => ⟨request, argument :: rest, some (.badSyntax argument)⟩
    | .flag name value =>
      match known.find? fun flag => flag.label = name with
      | none =>
        let problem := if name = Utf8.ofString "help" ∨ name = Utf8.ofString "h" then
            FlagProblem.help
          else .undefined name
        ⟨request, rest, some problem⟩
      | some flag =>
        if flag.isSwitch then
          match flag.assign (value.getD Flag.positive) request with
          | .ok changed => readFlags known (flag.mark changed) rest
          | .error problem => ⟨request, rest, some problem⟩
        else
          match value, rest with
          | some value, rest =>
            match flag.assign value request with
            | .ok changed => readFlags known (flag.mark changed) rest
            | .error problem => ⟨request, rest, some problem⟩
          | none, value :: others =>
            match flag.assign value request with
            | .ok changed => readFlags known (flag.mark changed) others
            | .error problem => ⟨request, others, some problem⟩
          | none, [] => ⟨request, [], some (.noValue flag)⟩

end Request

end Aquarium
