import Unformat.Scan.Lines

/-!
# Running a plan back to back

A plan runs over a reader again and again, with a separator between two runs, until nothing is left
or a run fails. The fault of the last run is kept.
-/

namespace Unformat

/-- How far a reader has been scanned: the number of runs that were begun and of those that
succeeded, whether the scan is over, and the fault that ended it. -/
structure RepeatedScan where
  separator : Option String
  begun : Nat := 0
  count : Nat := 0
  done : Bool := false
  failure : Option (Diagnostic ScanFault) := none
  deriving Repr, DecidableEq

namespace RepeatedScan

/-- One run, behind the separator unless it is the first. An empty separator is none. -/
def step (compiled : Except PatternFault CompiledPlan) (scan : RepeatedScan) :
    Scanning (List Value) := do
  match scan.separator with
  | some separator => if 0 < scan.count then Scan.matchLiteral separator
  | none => pure ()
  Scan.execute compiled

def next (compiled : Except PatternFault CompiledPlan) (scan : RepeatedScan) (reader : Reader) :
    ScanStep × RepeatedScan × Reader :=
  if scan.done then (.finished, scan, reader)
  else match reader.peek with
    | (.error fault, reader) => (.stopped (.reader fault), scan, reader)
    | (.ok [], reader) => (.finished, { scan with done := true }, reader)
    | (.ok _, reader) =>
        let result := (scan.step compiled).run.run reader
        let scan := { scan with begun := scan.begun + 1 }
        match result with
        | (.ok values, reader) => (.values values, { scan with count := scan.count + 1 }, reader)
        | (.error (.fault diagnostic), reader) =>
            (.finished, { scan with done := true, failure := some diagnostic }, reader)
        | (.error stop, reader) => (.stopped stop, scan, reader)

end RepeatedScan

end Unformat
