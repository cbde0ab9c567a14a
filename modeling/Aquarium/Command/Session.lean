import Aquarium.Command.Report
import Aquarium.Command.Script
import Aquarium.Machine.Run
import Aquarium.Machine.Setup
import Aquarium.Machine.Snapshot

/-!
# The command

The command reads its flags and configuration, loads a script and lists it or runs it. What it says
and with which status it ends is a function of its arguments, the files it can see, its standard
input and what others do for it.
-/

namespace Aquarium

/-- A command as it is given: its arguments, what others do for it, the files that it can see and
its standard input, the seed for a command line that gives none, and why its terminal refuses raw
mode, if it does. Files may grow while it runs, for instance the one of its log: what is appended to
an input file until it is read is told by the place of the file on the command line. -/
structure Invocation where
  arguments : List Bytes
  library : Library
  tree : FileTree
  stdin : Bytes
  seed : Int
  terminal : Option Bytes
  appended : Nat → Bytes

/-- A machine that is ready to run, with what its end depends on, and the messages of the log so
far. -/
structure Session where
  machine : Machine
  library : Library
  settings : Settings
  dump : Bool
  messages : List Message

namespace Session

/-- The usage text. -/
def usage : String :=
  "Usage: fish [options] <script>\n" ++ String.join (Flag.all.map Flag.usage)

/-- A report of wrong usage. -/
def misused (message : Bytes) : Report :=
  ⟨2, "", [message ++ Utf8.ofString usage], [], false⟩

/-- What is said about the machine of a failed run. -/
def machineLine (machine : Machine) : String :=
  "IP: \x7b" ++ toString machine.cursor.row ++ " " ++ toString machine.cursor.column ++
    "\x7d, Direction: \x7b" ++ toString machine.heading.rows ++ " " ++
    toString machine.heading.columns ++ "\x7d, Stack: " ++
    Machine.stackText machine.tower.active ++ ", Stacks: " ++ toString machine.tower.size ++ "\n"

/-- The wording of an error in one line. -/
def wording (layers : List Bytes) : Bytes :=
  List.intercalate (Utf8.ofString ": ") layers

/-- What is said about a fault of the program. -/
def fishy : Bytes :=
  Utf8.ofString "something smells fishy\n"

/-- What is said about any other error. -/
def errorLine (layers : List Bytes) : Bytes :=
  Utf8.ofString "Error: " ++ wording layers ++ Utf8.ofString "\n"

/-- What is said about an error: one line, and when debugging its details, and the machine if there
is one. -/
def diagnosis (library : Library) (debug fault : Bool) (layers : List Bytes)
    (machine : Option Machine) : List Bytes :=
  let headline := if fault then fishy else errorLine layers
  let details := (library.detail layers ++ Utf8.ofString "\n") ::
    (machine.map fun machine => Utf8.ofString (machineLine machine)).toList
  headline :: if debug then details else []

/-- Of the messages for the log, those that are logged. -/
def logged (library : Library) (settings : Settings) (messages : List Message) : List Message :=
  messages.filter fun message => library.allows settings.verbose message.level

/-- A report of a command with some settings. -/
def reportOf (library : Library) (settings : Settings) (status : Nat) (stdout : String)
    (said : List Bytes) (messages : List Message) : Report :=
  ⟨status, stdout, said, logged library settings messages, settings.log ≠ []⟩

/-- A report of an error before a machine was made. -/
def refused (library : Library) (settings : Settings) (layers : List Bytes)
    (messages : List Message) : Report :=
  reportOf library settings 1 "" (diagnosis library settings.debug false layers none) messages

/-- The message about a script that has been loaded. -/
def loadedMessage (script : Bytes) (box : CodeBox) : Message :=
  ⟨"fish", .info, Utf8.ofString "loaded " ++ script ++ Utf8.ofString
    (": " ++ toString box.height ++ " rows, " ++ toString box.width ++ " columns")⟩

/-- The message about a terminal that refuses raw mode, if it is asked to. -/
def terminalMessages (settings : Settings) (terminal : Option Bytes) : List Message :=
  if settings.raw then
    (terminal.map fun cause =>
      ⟨"fish", .warning, Utf8.ofString "raw terminal input disabled: " ++ cause⟩).toList
  else []

/-- The messages of a trace. -/
def traceMessages (machine : Machine) : List Message :=
  machine.notes.map fun line => ⟨"fish.vm", .debug, Utf8.ofString line⟩

/-- The message about a run that has ended without an error. -/
def countMessage (ended : String) (machine : Machine) : Message :=
  ⟨"fish", .info, Utf8.ofString (ended ++ " after " ++ toString machine.count ++ " instructions")⟩

/-- The reader of an input file, given its place on the command line and what is appended to it. -/
def readerOf (tree : FileTree) (appended : Nat → Bytes) (place : Nat) (path : Bytes) :
    Except FileProblem Reader :=
  match tree.lookup path with
  | .error problem => .error problem
  | .ok .directory =>
    .ok ⟨place + 1, true, .glyphs [] (.broken (Utf8.display (FileTree.readMessage path)))⟩
  | .ok (.file contents) => .ok ⟨place + 1, true, .ofText (contents ++ appended place) .exhausted⟩

/-- The readers of input files, given with the last file first, or the first of them that cannot be
opened. -/
def readersOf (tree : FileTree) (appended : Nat → Bytes) :
    List Bytes → Except (Bytes × FileProblem) (List Reader)
  | [] => .ok []
  | path :: earlier =>
    match readerOf tree appended earlier.length path with
    | .error problem => .error (path, problem)
    | .ok reader =>
      match readersOf tree appended earlier with
      | .error problem => .error problem
      | .ok readers => .ok (reader :: readers)

/-- The outlet of a command: it refuses nothing. -/
def outlet : Outlet :=
  ⟨none, "", true, true, none⟩

/-- The adjustments of the machine: trace, output, initial stack, limit, seed, and the readers with
standard input beneath them. -/
def adjustments (library : Library) (request : Request) (settings : Settings) (stdin : Bytes)
    (readers : List Reader) : List Adjustment :=
  let seeded := if settings.seedGiven then [.compass (.ofSeed settings.seed)] else []
  [.trace (some (library.allows settings.verbose .debug)), .output (some outlet),
      .push request.stack, .limit settings.maxSteps] ++ seeded ++
    .input ⟨0, false, .ofText stdin .exhausted⟩ :: readers.map .input

/-- Gives a reader a text to deliver, if it is the one of standard input. -/
def supplyReader (stdin : Bytes) (reader : Reader) : Reader :=
  if reader.name = 0 then { reader with feed := .ofText stdin .exhausted } else reader

/-- Gives the reader of standard input a text to deliver. -/
def supply (stdin : Bytes) (machine : Machine) : Machine :=
  let input := match machine.input with
    | .absent => .absent
    | .single reader => .single (supplyReader stdin reader)
    | .pile readers => .pile (readers.map (supplyReader stdin))
  { machine with input }

/-- The report at the end of a run. -/
def conclude (session : Session) (stop : Stop) (machine : Machine) : Report :=
  let report := reportOf session.library session.settings
  let written := machine.output.text
  let dumped := if session.dump then String.join machine.snapshot else ""
  let messages := session.messages ++ traceMessages machine
  match stop with
  | .halted => report 0 (written ++ "\n" ++ dumped) [] (messages ++ [countMessage "halted" machine])
  | .cancelled => report 0 (written ++ dumped) [] (messages ++ [countMessage "interrupted" machine])
  | _ =>
    let layers := stop.layers.map Utf8.ofString
    report 1 written
      (diagnosis session.library session.settings.debug stop.isFault layers (some machine)) messages

/-- The report of a session that runs for at most so many turns. A run that is stuck has none. -/
def finish? (session : Session) (turns : Nat) : Option Report :=
  match session.machine.run false turns with
  | .stopped .stuck _ => none
  | .stopped stop machine => some (session.conclude stop machine)
  | .going _ => none

end Session

namespace Invocation

open Session

/-- What the flags ask for, and the arguments after them. -/
def reckoning (invocation : Invocation) : Reckoning :=
  Request.plain.readFlags Flag.all invocation.arguments

/-- What the flags ask for. -/
def request (invocation : Invocation) : Request :=
  invocation.reckoning.request

/-- The settings of the command line alone. -/
def ownSettings (invocation : Invocation) : Settings :=
  { invocation.request.settings with seedGiven := invocation.request.given.contains .seed }

/-- The settings after the configuration file, if one is asked for, and the problem with it if there
is one. -/
def configured (invocation : Invocation) : Option ConfigurationProblem × Settings :=
  if invocation.request.config = [] then (none, invocation.ownSettings)
  else
    invocation.tree.loadConfiguration invocation.library.document invocation.request.config
      invocation.request.given invocation.ownSettings

/-- Opens the log: the files after it. -/
def opened (invocation : Invocation) (settings : Settings) : Except Report FileTree :=
  if settings.log = [] then .ok invocation.tree
  else invocation.library.openLog invocation.tree settings.verbose settings.log

/-- Makes the machine for a script that has been loaded. -/
def assemble (invocation : Invocation) (settings : Settings) (tree : FileTree) (script : Bytes)
    (box : CodeBox) : Except Report Session :=
  let library := invocation.library
  let request := invocation.request
  let messages := loadedMessage script box :: terminalMessages settings invocation.terminal
  match readersOf tree invocation.appended request.inputs.reverse with
  | .error (path, problem) =>
    .error (refused library settings [Utf8.ofString "input", FileTree.openMessage path problem]
      messages)
  | .ok readers =>
    match Machine.create (some box) (.ofSeed invocation.seed)
        (adjustments library request settings invocation.stdin readers) with
    | .error problem =>
      .error (refused library settings [Utf8.ofString problem.message] messages)
    | .ok machine => .ok ⟨machine, library, settings, request.dump, messages⟩

/-- Loads the script and lists it or makes its machine. -/
def load (invocation : Invocation) (settings : Settings) (tree : FileTree) (script : Bytes) :
    Except Report Session :=
  match tree.loadScript script with
  | .error problem => .error (refused invocation.library settings (problem.layers script) [])
  | .ok box =>
    if invocation.request.list then
      .error (reportOf invocation.library settings 0 (String.join box.listing) []
        [loadedMessage script box])
    else invocation.assemble settings tree script box

/-- Prepares a command up to the run: a session, or a report if it ends before. -/
def prepare (invocation : Invocation) : Except Report Session :=
  match invocation.reckoning.problem with
  | some .help => .error ⟨0, "", [Utf8.ofString usage], [], false⟩
  | some problem => .error (misused (problem.message ++ Utf8.ofString "\n"))
  | none =>
    match invocation.configured with
    | (some problem, settings) =>
      .error (refused invocation.library settings (problem.layers invocation.request.config) [])
    | (none, settings) =>
      match invocation.reckoning.rest with
      | [script] =>
        match invocation.opened settings with
        | .error report => .error report
        | .ok tree => invocation.load settings tree script
      | _ => .error (misused [])

/-- The report of a command whose run takes at most so many turns. -/
def report? (invocation : Invocation) (turns : Nat) : Option Report :=
  match invocation.prepare with
  | .error report => some report
  | .ok session => session.finish? turns

end Invocation

end Aquarium
