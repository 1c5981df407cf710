import Unformat.CommandLine.Options
import Unformat.Failure
import Unformat.Value

/-!
# What the program writes

A run of the program writes rows of values, reports of faults and log entries, and ends with an
exit code. Entries below the level that the command line asks for are left out.
-/

namespace Unformat.CommandLine

inductive Level where
  | debug
  | info
  | warning
  | error
  deriving Repr, DecidableEq

namespace Level

/-- The levels in increasing order, as numbers. -/
def weight : Level → Nat
  | .debug => 10
  | .info => 20
  | .warning => 30
  | .error => 40

/-- The name of a level, cut or filled up to five characters. -/
def label : Level → String
  | .debug => "DEBUG"
  | .info => "INFO "
  | .warning => "WARNI"
  | .error => "ERROR"

/-- The least level that is written when the command line asks so often for more. -/
def least (verbosity : Nat) : Level :=
  match verbosity with
  | 0 => .warning
  | 1 => .info
  | _ => .debug

end Level

def programName : String := "rescan"

def version : String := "0.1.0"

/-- A log entry; the area tells which part of the program it comes from. -/
structure LogEntry where
  level : Level
  area : String
  message : String
  deriving Repr, DecidableEq

def LogEntry.text (entry : LogEntry) : String :=
  s!"[{entry.level.label}] {entry.area}: {entry.message}\n"

inductive Event where
  /-- A text for the standard output. -/
  | output (text : String)
  /-- A text about a fault. -/
  | report (text : String)
  | log (entry : LogEntry)
  deriving Repr, DecidableEq

namespace Event

/-- An entry about the program as a whole. -/
def note (level : Level) (message : String) : Event := .log ⟨level, programName, message⟩

/-- An entry about a part of the program. -/
def trace (area message : String) : Event := .log ⟨.debug, programName ++ "." ++ area, message⟩

end Event

/-- What a run of the program writes, in order, and its exit code; there is none as long as the run
has not come to its end. -/
structure Transcript where
  events : List Event := []
  exitCode : Option Nat
  deriving Repr, DecidableEq

namespace Transcript

/-- The transcript with events before all others. -/
def after (events : List Event) (transcript : Transcript) : Transcript :=
  { transcript with events := events ++ transcript.events }

def outputText (transcript : Transcript) : String :=
  String.join <| transcript.events.map fun
    | .output text => text
    | _ => ""

/-- Whether an event is written among the errors under a verbosity. -/
def isVisible (verbosity : Nat) : Event → Bool
  | .log entry => (Level.least verbosity).weight ≤ entry.level.weight
  | .report _ => true
  | .output _ => false

/-- The text among the errors under a verbosity; `stamp` stands before each log entry. -/
def errorText (transcript : Transcript) (verbosity : Nat) (stamp : String := "") : String :=
  String.join <| (transcript.events.filter (isVisible verbosity)).map fun
    | .output _ => ""
    | .report text => text
    | .log entry => stamp ++ entry.text

end Transcript

namespace Format

def row (format : Format) (values : List Value) : String :=
  match format with
  | .json => (Json.array (values.map Value.toJson)).render
  | .tsv => "\t".intercalate (values.map Value.plain)
  | .shown => Value.rowShown values

/-- A report of a fault. The place goes in front, except in JSON. -/
def report {α : Type} [Fault α] (format : Format) (place : String) (diagnostic : Diagnostic α) :
    Event :=
  match format with
  | .json => .report (diagnostic.toJson.render ++ "\n")
  | _ => .report s!"{place}error[{diagnostic.code.text}]: {diagnostic.text}\n"

end Format

end Unformat.CommandLine
