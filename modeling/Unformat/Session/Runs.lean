import Unformat.Session.Plans
import Unformat.Session.Readers

/-!
# The runs of a session

A scanner of a session runs once, or starts an iteration, which goes on step by step. The patterns
of its plan count as compiled from the first run on.
-/

namespace Unformat

namespace Session

def scan (name : String) (input : Input) : Action (List Value) := do
  let scanner ← scanner name
  let entry ← openInput scanner.config.bufferSize input
  markCompiled scanner.plan
  let shared ← planAt scanner.plan
  let result ← withReader entry (Scan.execute shared.compiled).run.run
  yielding (result.mapError .ofStop)

def keepIteration (name : String) (entry : IterationEntry) : Action Unit :=
  modify fun session => { session with iterations := keep session.iterations name entry }

/-- Start to run a scanner once per line. -/
def startLines (name scannerName : String) (input : Input) (onError : Option String) :
    Action Unit := do
  let scanner ← scanner scannerName
  if let .reader inner := input then discard (reader inner)
  let errors ← yielding (Scanner.lineErrors scanner.config onError)
  let entry ← addLineReader (← openInput scanner.config.bufferSize input)
  keepIteration name { plan := scanner.plan, reader := entry, progress := .lines { errors } }

/-- Start to run a scanner back to back. -/
def startRepeated (name scannerName : String) (input : Input) (separator : Option String) :
    Action Unit := do
  let scanner ← scanner scannerName
  let entry ← openInput scanner.config.bufferSize input
  keepIteration name { plan := scanner.plan, reader := entry, progress := .repeated { separator } }

def iteration (name : String) : Action IterationEntry := do find (← get).iterations name

def advance (compiled : Except PatternFault CompiledPlan) (progress : Progress) (reader : Reader) :
    (ScanStep × Progress) × Reader :=
  match progress with
  | .lines scan =>
      let (step, scan, reader) := scan.next compiled reader
      ((step, .lines scan), reader)
  | .repeated scan =>
      let (step, scan, reader) := scan.next compiled reader
      ((step, .repeated scan), reader)

def hasRun : Progress → Bool
  | .lines scan => 0 < scan.lineNumber
  | .repeated scan => 0 < scan.begun

/-- The next values of an iteration, and how far it has come then. -/
def next (name : String) : Action (ScanStep × Progress) := do
  let entry ← iteration name
  let shared ← planAt entry.plan
  let (step, progress) ← withReader entry.reader (advance shared.compiled entry.progress)
  if hasRun progress then markCompiled entry.plan
  keepIteration name { entry with progress }
  return (step, progress)

end Session

end Unformat
