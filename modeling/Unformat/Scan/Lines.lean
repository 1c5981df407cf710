import Unformat.Scan.Engine

/-!
# Running a plan once per line

Every line gets one attempt, which sees that line only; what the attempt leaves of the line is
skipped. A line that does not match is a fault, noted with the number of the line. It is either
given back, and the next request goes on with the next line, or put aside and passed over.
-/

namespace Unformat

/-- What becomes of a line that does not match. -/
inductive LineErrors where
  | raise
  | skip
  deriving Repr, DecidableEq

/-- What a request for the next values brings. -/
inductive ScanStep where
  | values (values : List Value)
  | finished
  | stopped (stop : Scan.Stop)
  deriving Repr, DecidableEq

/-- How far the lines of a reader have been scanned: the number of lines that were tried, and the
faults that were put aside. -/
structure LineScan where
  errors : LineErrors
  lineNumber : Nat := 0
  failures : List (Nat × Diagnostic ScanFault) := []
  deriving Repr, DecidableEq

/-- One attempt: the number of the line, what came of it, and what came of skipping the rest of the
line. -/
structure LineAttempt where
  line : Nat
  outcome : Except Scan.Stop (List Value)
  skipped : Except ReaderFault Unit

namespace LineAttempt

/-- A stop with the number of the line, if the text is at fault. -/
def noted (line : Nat) : Scan.Stop → Scan.Stop
  | .fault diagnostic => .fault (diagnostic.withNote s!"on line {line}")
  | stop => stop

/-- Try a plan on the present line of a line reader, which is the `line`-th, and go on to the next
line. -/
def make (compiled : Except PatternFault CompiledPlan) (line : Nat) (reader : Reader) :
    LineAttempt × Reader :=
  let (outcome, reader) := (Scan.execute compiled).run.run reader
  let (skipped, reader) := reader.nextLine
  (⟨line, outcome.mapError (noted line), skipped⟩, reader)

end LineAttempt

namespace LineScan

/-- The attempt at the next line, if there is one. -/
def attempt (compiled : Except PatternFault CompiledPlan) (scan : LineScan) (reader : Reader) :
    Except ReaderFault (Option LineAttempt) × Reader :=
  match reader.atEnd with
  | (.error fault, reader) => (.error fault, reader)
  | (.ok true, reader) => (.ok none, reader)
  | (.ok false, reader) =>
      let (attempt, reader) := LineAttempt.make compiled (scan.lineNumber + 1) reader
      (.ok (some attempt), reader)

/-- What an attempt gives back, or nothing when it was put aside, and the scan after it. A failure
to skip the rest of the line comes before what the attempt itself brought. -/
def settle (scan : LineScan) (attempt : LineAttempt) : Option ScanStep × LineScan :=
  let scan := { scan with lineNumber := attempt.line }
  match attempt.outcome, attempt.skipped, scan.errors with
  | .error (.fault diagnostic), skipped, .skip =>
      let scan := { scan with failures := scan.failures ++ [(attempt.line, diagnostic)] }
      match skipped with
      | .error fault => (some (.stopped (.reader fault)), scan)
      | .ok () => (none, scan)
  | _, .error fault, _ => (some (.stopped (.reader fault)), scan)
  | .error stop, .ok (), _ => (some (.stopped stop), scan)
  | .ok values, .ok (), _ => (some (.values values), scan)

/-- The next values of a line reader, in at most `steps` attempts. -/
def nextWithin (compiled : Except PatternFault CompiledPlan) :
    Nat → LineScan → Reader → ScanStep × LineScan × Reader
  | 0, scan, reader => (.finished, scan, reader)
  | steps + 1, scan, reader =>
      match scan.attempt compiled reader with
      | (.error fault, reader) => (.stopped (.reader fault), scan, reader)
      | (.ok none, reader) => (.finished, scan, reader)
      | (.ok (some attempt), reader) =>
          match scan.settle attempt with
          | (some step, scan) => (step, scan, reader)
          | (none, scan) => nextWithin compiled steps scan reader

/-- The next values of a line reader. Every attempt but the first takes up bytes, so their number
bounds the attempts. -/
def next (compiled : Except PatternFault CompiledPlan) (scan : LineScan) (reader : Reader) :
    ScanStep × LineScan × Reader :=
  nextWithin compiled (reader.bytesLeft + 2) scan reader

end LineScan

end Unformat
