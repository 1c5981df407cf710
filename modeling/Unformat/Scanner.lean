import Unformat.Config
import Unformat.Plan.Build
import Unformat.Scan.Repeated

/-!
# Scanners

A scanner is a plan with its matchers and its parameters. It runs over a reader once, once per
line, or back to back.
-/

namespace Unformat

open Text (Quoted.quote)

/-- A plan that is ready to run, if its patterns can be read, and how it is to be run. -/
structure Scanner where
  plan : Plan
  compiled : Except PatternFault CompiledPlan
  config : Config := {}

/-- A scan that goes on line by line. -/
structure LineIteration where
  compiled : Except PatternFault CompiledPlan
  scan : LineScan
  reader : Reader

/-- A scan that goes on back to back. -/
structure RepeatedIteration where
  compiled : Except PatternFault CompiledPlan
  scan : RepeatedScan
  reader : Reader

namespace LineIteration

def next (iteration : LineIteration) : ScanStep × LineIteration :=
  let (step, scan, reader) := iteration.scan.next iteration.compiled iteration.reader
  (step, { iteration with scan, reader })

end LineIteration

namespace RepeatedIteration

def next (iteration : RepeatedIteration) : ScanStep × RepeatedIteration :=
  let (step, scan, reader) := iteration.scan.next iteration.compiled iteration.reader
  (step, { iteration with scan, reader })

end RepeatedIteration

namespace Scanner

/-- The scanner of a template and its rules. Patterns that cannot be read are a failure now if the
parameters ask for it, and otherwise when the scanner first runs. -/
def make [PatternEngine] (template : String) (rules : RuleList) (config : Config := {}) :
    Except Failure Scanner := do
  let plan ← Plan.build template rules
  if config.eagerCompile then discard plan.ready
  return { plan, compiled := plan.compile, config }

/-- The plan with its template and its number of values. -/
def describe (plan : Plan) : String :=
  s!"Scanner({Quoted.quote plan.template}, arity={plan.arity})"

def reader (scanner : Scanner) (source : Source) : Except Failure Reader :=
  Reader.ofSource scanner.config.bufferSize source

def scan (scanner : Scanner) (reader : Reader) : Except Failure (List Value) × Reader :=
  let (result, reader) := (Scan.execute scanner.compiled).run.run reader
  (result.mapError .ofStop, reader)

def scanSource (scanner : Scanner) (source : Source) : Except Failure (List Value) := do
  let reader ← scanner.reader source
  (scanner.scan reader).1

/-- Run once over a line, of which the line end is not needed for a match. -/
def scanLine (scanner : Scanner) (line : String) : Except Failure (List Value) := do
  let reader ← Reader.ofSource Config.standard.bufferSize (.text line)
  (scanner.scan reader.byLine).1

/-- What becomes of lines that do not match: as asked, or as the parameters have it. -/
def lineErrors (config : Config) (asked : Option String) : Except Failure LineErrors :=
  LineErrors.parse (match asked with
    | none => config.lineErrors
    | some text => if text = "" then config.lineErrors else text)

/-- Run once per line of a source. -/
def lines (scanner : Scanner) (source : Source) (onError : Option String := none) :
    Except Failure LineIteration := do
  let errors ← lineErrors scanner.config onError
  let reader ← scanner.reader source
  return { compiled := scanner.compiled, scan := { errors }, reader := reader.byLine }

/-- Run back to back over a source. -/
def repeated (scanner : Scanner) (source : Source) (separator : Option String := none) :
    Except Failure RepeatedIteration := do
  let reader ← scanner.reader source
  return { compiled := scanner.compiled, scan := { separator }, reader }

end Scanner

/-- The first line of a text, with its line feed, and the text behind it. -/
def splitLine (text : String) : String × String :=
  let line := text.toList.takeWhile (· != '\n')
  let rest := text.toList.drop line.length
  (String.ofList (line ++ rest.take 1), String.ofList (rest.drop 1))

/-- Run a template once over the first line of an input. The line is taken off the input before
anything else happens. -/
def scanFirstLine [PatternEngine] (template : String) (rules : Except Failure RuleList)
    (input : String) : Except Failure (List Value) × String :=
  let (line, rest) := splitLine input
  let result := if line = "" then .error .endOfInput else do
    let scanner ← Scanner.make template (← rules)
    scanner.scanLine line
  (result, rest)

end Unformat
