import Unformat.CommandLine.Transcript
import Unformat.Scanner

/-!
# Running the program

The program makes a scanner from the template and the rules, and either explains the plan or runs
it over the input. A mistake of configuration and an input that cannot be read give the exit code
2; text that does not match gives 1.
-/

namespace Unformat.CommandLine

open Text (CharacterTable Quoted.quote)

/-- What the input turns out to be. -/
inductive InputFile where
  | found (source : Source)
  | missing (path : String)
  | directory (path : String)
  deriving Repr, DecidableEq

def Settings.config (settings : Settings) : Config :=
  { bufferSize := settings.bufferSize, eagerCompile := settings.eager }

/-- The end of a program that cannot go on. -/
def abort (settings : Settings) : Failure → Transcript
  | .fault diagnostic =>
      { events := [settings.format.report "" diagnostic]
        exitCode := some (if diagnostic.code.phase.isConfiguration then 2 else 1) }
  | .read (.failed message) =>
      { events := [.note .error s!"cannot read input: {message}"], exitCode := some 2 }
  | .read .interrupted =>
      { events := [.note .info "Interrupted by user."], exitCode := some 130 }
  | failure => { events := [.report (failure.message ++ "\n")], exitCode := some 1 }

/-! ## Making the scanner -/

/-- The entry about the patterns of a plan. -/
def compiling (plan : Plan) (compiled : Except PatternFault CompiledPlan) : Event :=
  .trace "plan" <| match compiled with
    | .ok compiled =>
        s!"compiled {compiled.matchers.length} pattern(s) for {Quoted.quote plan.template}"
    | .error fault =>
        s!"pattern {fault.rule} of {Quoted.quote plan.template} failed to compile: {fault.reason}"

/-- The plan of segments and rules, and the entries about it. -/
def link (settings : Settings) (segments : List Segment) (rules : RuleList) (duration : String) :
    List Event × Except Failure Plan :=
  let template := Quoted.quote settings.template
  match Plan.bind segments rules settings.template with
  | .error report =>
      ([.trace "binding" s!"binding {template} failed with {report.problems.length} error(s)"],
        .error (.ofFault (.bindings report)))
  | .ok plan =>
      ([.trace "binding" (s!"bound {template}: {plan.segments.length} segment(s), " ++
          s!"{plan.rules.length} rule(s), arity {plan.arity}"),
        .trace "scanner" s!"built plan for {template} in {duration}ms"], .ok plan)

/-- The scanner that the settings ask for, and the entries about it; `duration` is how long it
took to build the plan. -/
def prepare [PatternEngine] [CharacterTable] (settings : Settings) (duration : String) :
    List Event × Except Failure Scanner :=
  match RuleList.read .builtin settings.rules with
  | .error failure => ([], .error failure)
  | .ok rules =>
      let parsed := Event.trace "rules" s!"parsed {rules.size} argument(s): {rules.describe}"
      match Template.read settings.template with
      | .error failure => ([parsed], .error failure)
      | .ok segments =>
          let (events, plan) := link settings segments rules duration
          let compiled := match plan with
            | .ok plan => if settings.eager then [compiling plan plan.compile] else []
            | .error _ => []
          (parsed :: events ++ compiled, do
            let plan ← plan
            if settings.eager then discard plan.ready
            return { plan, compiled := plan.compile, config := settings.config })

/-- The entry about the patterns, unless they were compiled before. -/
def compilingOnce (settings : Settings) (scanner : Scanner) (first : Bool) : List Event :=
  if first ∧ ¬settings.eager then [compiling scanner.plan scanner.compiled] else []

/-! ## Running it -/

/-- The entry about a text that is no value of its type. -/
def converting {α : Type} : Except Scan.Stop α → List Event
  | .error (.fault { fault := .unconvertible text typeName reason, .. }) =>
      [.trace "engine" s!"cannot parse {Quoted.quote text} as {typeName}: {reason.message}"]
  | _ => []

def writing (settings : Settings) (values : List Value) : Event :=
  .output (settings.format.row values ++ "\n")

/-- What a run over the lines of a reader writes in `steps` steps, when `failed` lines have not
matched so far. -/
def runLines (settings : Settings) (scanner : Scanner) :
    Nat → LineScan → Reader → Nat → Transcript
  | 0, _, _, _ => { exitCode := none }
  | steps + 1, scan, reader, failed =>
      match scan.attempt scanner.compiled reader with
      | (.error fault, _) => abort settings (.ofReader fault)
      | (.ok none, _) =>
          { events := [.note .info s!"{scan.lineNumber} line(s) read, {failed} failed"]
            exitCode := some (if failed = 0 then 0 else 1) }
      | (.ok (some attempt), reader) =>
          let events := compilingOnce settings scanner (attempt.line = 1) ++
            converting attempt.outcome
          let (step, scan) := scan.settle attempt
          Transcript.after events <| match step with
            | some (.values values) =>
                (runLines settings scanner steps scan reader failed).after
                  [writing settings values]
            | some (.stopped (.fault diagnostic)) =>
                (runLines settings scanner steps scan reader (failed + 1)).after
                  [settings.format.report s!"line {attempt.line}: " diagnostic]
            | some (.stopped stop) => abort settings (.ofStop stop)
            | some .finished | none => runLines settings scanner steps scan reader failed

/-- What is written when a run back to back is over. -/
def finishRepeated (settings : Settings) (scan : RepeatedScan) : Transcript :=
  let finished := Event.note .info s!"{scan.count} scan(s) succeeded"
  match scan.failure with
  | none => { events := [finished], exitCode := some 0 }
  | some diagnostic =>
      let stopped := Event.trace "readers"
        s!"scan {scan.count + 1} stopped: {Fault.message diagnostic.fault}"
      let report := settings.format.report s!"scan {scan.count + 1}: " diagnostic
      { events := converting (α := Unit) (.error (.fault diagnostic)) ++
          [stopped, finished, report]
        exitCode := some 1 }

/-- What a run back to back over a reader writes in `steps` steps. -/
def runRepeated (settings : Settings) (scanner : Scanner) :
    Nat → RepeatedScan → Reader → Transcript
  | 0, _, _ => { exitCode := none }
  | steps + 1, scan, reader =>
      let (step, after, reader) := scan.next scanner.compiled reader
      Transcript.after (compilingOnce settings scanner (scan.begun = 0 ∧ after.begun = 1)) <|
        match step with
        | .values values =>
            (runRepeated settings scanner steps after reader).after [writing settings values]
        | .finished => finishRepeated settings after
        | .stopped stop => abort settings (.ofStop stop)

/-- As many steps as any run over a reader takes that comes to an end. A run back to back that
leaves the reader as it is repeats itself for ever: no step has an exit code then, and what it
writes in so many steps ends in the row that it goes on to write. -/
def runBound (reader : Reader) : Nat := reader.bytesLeft + reader.pendingReads + 3

def runOver (settings : Settings) (scanner : Scanner) : InputFile → Transcript
  | .missing path =>
      { events := [.note .error s!"input file not found: {path}"], exitCode := some 2 }
  | .directory path =>
      { events := [.note .error
          s!"cannot read input: [Errno 21] Is a directory: {Quoted.quote path}"]
        exitCode := some 2 }
  | .found source =>
      match scanner.reader source with
      | .error failure => abort settings failure
      | .ok reader =>
          match settings.mode with
          | .lines =>
              runLines settings scanner (runBound reader) { errors := .raise } reader.byLine 0
          | .multiple =>
              runRepeated settings scanner (runBound reader)
                { separator := settings.separator } reader

def explain (settings : Settings) (scanner : Scanner) : Transcript :=
  Transcript.after (compilingOnce settings scanner true) <|
    match scanner.compiled with
    | .ok _ => { events := [.output (scanner.plan.describe ++ "\n")], exitCode := some 0 }
    | .error fault => abort settings (.ofFault (.pattern fault))

/-- Entries about settings that have no effect. -/
def ignoredSettings (settings : Settings) : List Event :=
  if settings.separator.isSome ∧ settings.mode ≠ .multiple then
    [.note .warning s!"--separator is ignored in {settings.mode.name} mode"]
  else []

def run [PatternEngine] [CharacterTable] (settings : Settings) (input : InputFile)
    (duration : String := "0.000") : Transcript :=
  Transcript.after (ignoredSettings settings) <|
    match settings.config.warnings with
    | [] =>
        let (events, scanner) := prepare settings duration
        Transcript.after events <| match scanner with
          | .error failure => abort settings failure
          | .ok scanner =>
              if settings.explain then explain settings scanner
              else runOver settings scanner input
    | warnings =>
        { events := warnings.map fun warning => .note .error s!"invalid option: {warning}"
          exitCode := some 2 }

end Unformat.CommandLine
