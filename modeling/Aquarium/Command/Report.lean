import Aquarium.Command.Configuration

/-!
# Reports

What a command leaves behind is an exit status, what it has written, and what it has said on
standard error. Its log is a matter of its own: it is written beside the command, at its own pace, to
standard error or to a file. `Report.Shows` tells what may be seen on standard error all the same.
-/

namespace Aquarium

/-- How grave a message of the log is. -/
inductive Level where
  | warning
  | info
  | debug
  deriving DecidableEq

/-- A message for the log, with the name of the part of the program that it comes from. -/
structure Message where
  source : String
  level : Level
  text : Bytes
  deriving DecidableEq

/-- What is left of a command: its exit status, what it has written to standard output, what it has
said on standard error, one text after another, the messages that its log has been given, and
whether the log is kept in a file. -/
structure Report where
  status : Nat
  stdout : String
  said : List Bytes
  logged : List Message
  filed : Bool
  deriving DecidableEq

/-- Something to be seen on standard error: what the command says itself, or a message of its
log. -/
inductive Utterance where
  | said (text : Bytes)
  | logged (message : Message)
  deriving DecidableEq

namespace Utterance

/-- What the command says itself. -/
def said? : Utterance → Option Bytes
  | said text => some text
  | logged _ => none

/-- A message of the log. -/
def logged? : Utterance → Option Message
  | said _ => none
  | logged message => some message

end Utterance

/-- What may be seen of a report on standard error. All that the command says is there, in order.
Messages of the log may stand anywhere, also in order, and those may be missing that have not been
written when the command ends. A log that is kept in a file is not seen. -/
structure Report.Shows (report : Report) (seen : List Utterance) : Prop where
  said : seen.filterMap Utterance.said? = report.said
  logged : List.Sublist (seen.filterMap Utterance.logged?)
    (if report.filed then [] else report.logged)

/-- What the command leaves to others: to find the settings in the text of a configuration file, or
to say why it cannot be read; to open a log file for a verbosity, which changes the files or ends
the command; to choose the messages that are logged at a verbosity; and to word an error in
detail. -/
structure Library where
  document : Bytes → Except Bytes Configuration.Document
  openLog : FileTree → Int → Bytes → Except Report FileTree
  allows : Int → Level → Bool
  detail : List Bytes → Bytes

end Aquarium
