import Aquarium.Command.Session
import Aquarium.Command.Standard

/-!
# The program

Brings the files that a command line names into a file tree, runs the command turn by turn, writing
what the machine writes, and ends with the status of its report. Standard input is read when the
machine first asks for it.
-/

namespace Aquarium.Program

/-- The path of a file, as the system takes it. -/
def pathOf (path : Bytes) : String :=
  Utf8.display path

/-- Makes a file known to a tree, if it is there. -/
def fetch (tree : FileTree) (path : Bytes) : IO FileTree := do
  try
    let contents ← IO.FS.readBinFile (pathOf path)
    return tree.know path (.file contents.toList)
  catch problem =>
    match problem with
    | .inappropriateType .. => return tree.know path .directory
    | _ => return tree

/-- Makes sure that there is a log file, if one is wanted and can be had. -/
def openLog (tree : FileTree) (settings : Settings) : IO FileTree := do
  if settings.log = [] ∨ settings.verbose ≤ Library.silence then return tree
  else
    try
      let _ ← IO.FS.Handle.mk (pathOf settings.log) .append
      return tree.know settings.log (.file [])
    catch _ => return tree

/-- The command of a command line, with the files that it names. The terminal has no raw mode. -/
def gather (arguments : List String) (seed : Int) : IO Invocation := do
  let start : Invocation :=
    { arguments := arguments.map Utf8.ofString
      library := .standard
      tree := .empty
      stdin := []
      seed
      terminal := some (Utf8.ofString "raw IO not supported")
      appended := fun _ => [] }
  let request := start.request
  let known ← if request.config = [] then pure FileTree.empty else fetch .empty request.config
  let logged ← match { start with tree := known }.configured with
    | (none, settings) => openLog known settings
    | (some _, _) => pure known
  let tree ← (start.reckoning.rest ++ request.inputs).foldlM fetch logged
  return { start with tree }

/-- Writes what a machine has written, and takes it off its record. -/
def unload (machine : Machine) : IO Machine := do
  if machine.output.written.isEmpty then return machine
  else
    IO.print machine.output.text
    return { machine with output := { machine.output with written := [] } }

/-- Runs a machine turn by turn, writing each piece as it comes. -/
partial def drive (machine : Machine) (supplied : Bool) : IO (Stop × Machine) := do
  if !supplied && machine.awaitsInput then
    (← IO.getStdout).flush
    let stdin ← (← IO.getStdin).readBinToEnd
    drive (Session.supply stdin.toList machine) true
  else
    match machine.turn false with
    | .stop stop after => return (stop, after)
    | .next after => drive (← unload after) supplied

/-- Writes a message of the log. -/
def writeMessage (write : Bytes → IO Unit) (message : Message) : IO Unit :=
  write (Utf8.ofString ("[" ++ message.source ++ "] ") ++ message.text ++ [0x0A])

/-- Writes the output of a report, the messages of its log and what it says. -/
def publish (report : Report) (log : Bytes) : IO UInt32 := do
  IO.print report.stdout
  (← IO.getStdout).flush
  let stderr ← IO.getStderr
  let say (text : Bytes) : IO Unit := stderr.write ⟨text.toArray⟩
  if report.filed && !report.logged.isEmpty then
    let file ← IO.FS.Handle.mk (pathOf log) .append
    report.logged.forM (writeMessage fun text => file.write ⟨text.toArray⟩)
  else report.logged.forM (writeMessage say)
  report.said.forM say
  return report.status.toUInt32

end Aquarium.Program

open Aquarium in
/-- Runs the command. -/
def main (arguments : List String) : IO UInt32 := do
  let invocation ← Program.gather arguments (← IO.monoNanosNow)
  let log := invocation.configured.2.log
  match invocation.prepare with
  | .error report => Program.publish report log
  | .ok session =>
    let (stop, machine) ← Program.drive session.machine false
    Program.publish (session.conclude stop machine) log
