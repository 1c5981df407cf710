import Unformat.Proofs.CommandLine.Answering
import Unformat.Proofs.CommandLine.Preparing
import Unformat.Proofs.Scan.LinesAlike
import Unformat.Proofs.ScanType.Equality

/-!
# A run line by line answers for each line once

A run line by line makes the attempts of a scan that gives faults back.  Each line is answered for
once, in order: with the row of its values, or with the report of its fault.  Then the run ends,
and its exit code tells whether there was a fault.
-/

namespace Unformat.CommandLine

open LineIteration (Before TriesLine exists_results_of_start settle_of_raise start)
open Scan (Echoes Stop aloneOutcome)
open Text (CharacterTable)

variable {settings : Settings} {scanner : Scanner} {iteration : LineIteration}

/-- The entry behind the last line. -/
def tally (lines failed : Nat) : Event :=
  .note .info s!"{lines} line(s) read, {failed} failed"

/-! ## One line -/

/-- One step of a run, by the attempt of an iteration. -/
theorem runLines_succ (compiles : iteration.compiled = scanner.compiled) (steps failed : Nat) :
    runLines settings scanner (steps + 1) iteration.scan iteration.reader failed =
      match iteration.attempt.1 with
      | .error fault => abort settings (.ofReader fault)
      | .ok none =>
          { events := [tally iteration.scan.lineNumber failed]
            exitCode := some (if failed = 0 then 0 else 1) }
      | .ok (some attempt) =>
          let next := iteration.attempt.2
          Transcript.after (compilingOnce settings scanner (attempt.line = 1) ++
            converting attempt.outcome) <|
              match (iteration.scan.settle attempt).1 with
              | some (.values values) =>
                  (runLines settings scanner steps next.scan next.reader failed).after
                    [writing settings values]
              | some (.stopped (.fault diagnostic)) =>
                  (runLines settings scanner steps next.scan next.reader (failed + 1)).after
                    [settings.format.report s!"line {attempt.line}: " diagnostic]
              | some (.stopped stop) => abort settings (.ofStop stop)
              | some .finished | none =>
                  runLines settings scanner steps next.scan next.reader failed := by
  rw [runLines, ← compiles]
  simp only [LineIteration.attempt]
  rcases iteration.scan.attempt iteration.compiled iteration.reader with ⟨_ | _ | attempt, reader⟩
  · rfl
  · rfl
  · rcases iteration.scan.settle attempt with ⟨_ | step, scan⟩ <;> rfl

/-- The run goes on behind a line, or ends there, as its attempt has it. -/
theorem runLines_of_line {number : Nat} {line : Line} {result : Except Stop (List Value)}
    {results : List (Except Stop (List Value))}
    (before : Before scanner.compiled number line (result :: results) iteration)
    (raises : iteration.scan.errors = .raise) (settings : Settings) (steps failed : Nat) :
    ∃ logs : List Event, (∀ event ∈ logs, event.isLog = true) ∧
      runLines settings scanner (steps + 1) iteration.scan iteration.reader failed =
        Transcript.after logs (
          let next := iteration.attempt.2
          match result with
          | .ok values =>
              (runLines settings scanner steps next.scan next.reader failed).after
                [writing settings values]
          | .error (.fault diagnostic) =>
              (runLines settings scanner steps next.scan next.reader (failed + 1)).after
                [settings.format.report s!"line {number + 1}: " diagnostic]
          | .error stop => abort settings (.ofStop stop)) := by
  obtain ⟨next, tried, _⟩ := before.attempt_of_line
  refine ⟨compilingOnce settings scanner (decide (number + 1 = 1)) ++ converting result,
    List.forall_mem_append.mpr ⟨isLog_of_mem_compilingOnce settings scanner _,
      isLog_of_mem_converting result⟩, ?_⟩
  rw [runLines_succ before.compiled_eq, tried]
  simp only [settle_of_raise raises]
  cases result with
  | ok values => rfl
  | error stop => cases stop <;> rfl

/-- Behind the last line the run ends. -/
theorem runLines_of_none {number : Nat} {line : Line}
    (before : Before scanner.compiled number line [] iteration) (settings : Settings)
    (steps failed : Nat) :
    runLines settings scanner (steps + 1) iteration.scan iteration.reader failed =
      { events := [tally number failed]
        exitCode := some (if failed = 0 then 0 else 1) } := by
  obtain ⟨next, tried, _⟩ := before.attempt_of_none
  rw [runLines_succ before.compiled_eq, tried, before.number_eq]

/-! ## All lines -/

theorem bytesLeft_lt_runBound (reader : Reader) : reader.bytesLeft < runBound reader := by
  rw [runBound]
  omega

/-- The answer for a line: the row of its values, or the report of its fault. -/
def answer (settings : Settings) (line : Nat) : LineResult → Event
  | .ok values => writing settings values
  | .error diagnostic => settings.format.report s!"line {line}: " diagnostic

/-- The answers for lines, when `number` lines are before them. -/
def answersFrom (settings : Settings) : Nat → List LineResult → List Event
  | _, [] => []
  | number, result :: results =>
      answer settings (number + 1) result :: answersFrom settings (number + 1) results

/-- What a run answers for lines, when `number` lines are before them and `failed` of these have
not matched. -/
structure Answers (settings : Settings) (number failed : Nat) (results : List LineResult)
    (transcript : Transcript) : Prop where
  answers_eq : transcript.answers = answersFrom settings number results
  getLast_eq : transcript.events.getLast? =
    some (tally (number + results.length) (failed + (faultsFrom number results).length))
  exitCode_eq : transcript.exitCode =
    some (if failed + (faultsFrom number results).length = 0 then 0 else 1)

theorem isLog_answer (settings : Settings) (line : Nat) (result : LineResult) :
    (answer settings line result).isLog = false := by
  cases result with
  | ok values => rfl
  | error diagnostic =>
      obtain ⟨text, written⟩ := settings.format.exists_report s!"line {line}: " diagnostic
      rw [answer, written]
      rfl

theorem Answers.after {number failed : Nat} {results : List LineResult} {transcript : Transcript}
    {logs : List Event} (answers : Answers settings number failed results transcript)
    (logsOnly : ∀ event ∈ logs, event.isLog = true) :
    Answers settings number failed results (transcript.after logs) where
  answers_eq := (Transcript.answers_after_of_logs logsOnly transcript).trans answers.answers_eq
  getLast_eq := by
    rw [Transcript.after, List.getLast?_append, answers.getLast_eq]
    rfl
  exitCode_eq := answers.exitCode_eq

/-- What is answered behind a line is behind the answer for it. -/
theorem Answers.cons {number failed : Nat} {result : LineResult} {results : List LineResult}
    {transcript : Transcript}
    (answers : Answers settings (number + 1) (failed + (faultsFrom number [result]).length) results
      transcript) :
    Answers settings number failed (result :: results)
      (transcript.after [answer settings (number + 1) result]) := by
  have faults : (faultsFrom number (result :: results)).length =
      (faultsFrom number [result]).length + (faultsFrom (number + 1) results).length := by
    cases result with
    | ok values => exact (Nat.zero_add _).symm
    | error diagnostic => exact Nat.add_comm _ 1
  have lines : number + (result :: results).length = number + 1 + results.length := by
    rw [List.length_cons]
    omega
  refine ⟨?_, ?_, ?_⟩
  · rw [Transcript.answers_after, List.filter_singleton, isLog_answer, answers.answers_eq]
    rfl
  · rw [Transcript.after, List.getLast?_append, answers.getLast_eq, lines, faults,
      Nat.add_assoc failed]
    rfl
  · rw [Transcript.exitCode_after, answers.exitCode_eq, faults, Nat.add_assoc]

/-- With steps enough, a run answers for every line to come. -/
theorem answers_runLines {number : Nat} {line : Line} {results : List LineResult}
    (before : Before scanner.compiled number line (results.map outcomeOf) iteration)
    (raises : iteration.scan.errors = .raise) {steps : Nat} (enough : results.length < steps)
    (settings : Settings) (failed : Nat) :
    Answers settings number failed results
      (runLines settings scanner steps iteration.scan iteration.reader failed) := by
  induction results generalizing number line iteration steps failed with
  | nil =>
      obtain ⟨steps, rfl⟩ := Nat.exists_eq_add_of_lt enough
      rw [runLines_of_none before]
      exact ⟨rfl, rfl, rfl⟩
  | cons result results ih =>
      obtain ⟨steps, rfl⟩ := Nat.exists_eq_succ_of_ne_zero (Nat.ne_zero_of_lt enough)
      obtain ⟨next, tried, settled, there⟩ := before.attempt_of_line
      obtain ⟨logs, logsOnly, written⟩ := runLines_of_line before raises settings steps failed
      have still : next.scan.errors = .raise := by
        rw [settled, LineScan.settle_errors, raises]
      have later := ih there still (Nat.lt_of_succ_lt_succ enough)
      rw [written, tried]
      cases result with
      | ok values => exact (later failed).cons.after logsOnly
      | error diagnostic => exact (later (failed + 1)).cons.after logsOnly

/-- The rows among the answers are those of the values. -/
theorem join_answersFrom (settings : Settings) (number : Nat) (results : List LineResult) :
    String.join ((answersFrom settings number results).map Event.outputText) =
      String.join ((valuesOf results).map fun values => settings.format.row values ++ "\n") := by
  induction results generalizing number with
  | nil => rfl
  | cons result results ih =>
      rw [answersFrom, List.map_cons, String.join_cons, ih]
      cases result with
      | ok values =>
          have first : valuesOf (.ok values :: results) = values :: valuesOf results := rfl
          rw [first, List.map_cons, String.join_cons]
          rfl
      | error diagnostic =>
          obtain ⟨text, written⟩ :=
            settings.format.exists_report s!"line {number + 1}: " diagnostic
          rw [answer, written]
          exact String.empty_append

/-- The reports among the answers are those of the faults. -/
theorem reports_answersFrom (settings : Settings) (number : Nat) (results : List LineResult) :
    (answersFrom settings number results).filter Event.isReport =
      (faultsFrom number results).map fun (line, diagnostic) =>
        settings.format.report s!"line {line}: " diagnostic := by
  induction results generalizing number with
  | nil => rfl
  | cons result results ih =>
      cases result with
      | ok values =>
          rw [answersFrom, answer, List.filter_cons_of_neg (by simp [writing, Event.isReport]),
            faultsFrom, ih]
      | error diagnostic =>
          obtain ⟨text, written⟩ :=
            settings.format.exists_report s!"line {number + 1}: " diagnostic
          rw [answersFrom, answer, List.filter_cons_of_pos (by rw [written]; rfl), faultsFrom,
            List.map_cons, ih]

/-- What a run writes for a line: the row of its values, or a report of its fault, which has a note
of the line. -/
inductive AnswersLine (format : Format) (line : Nat) : LineResult → Event → Prop where
  | row {values : List Value} {text : String} (row : format.Row values text) :
      AnswersLine format line (.ok values) (.output (text ++ "\n"))
  | report {reason : ScanFault} {text : String} (reports : format.Reports line reason text) :
      AnswersLine format line (.error ((Diagnostic.of reason).withNote s!"on line {line}"))
        (.report text)

/-- The text reports a fault of a line. -/
def ReportsFault (format : Format) (fault : Nat × Diagnostic ScanFault) (text : String) : Prop :=
  ∃ reason : ScanFault, fault.2 = (Diagnostic.of reason).withNote s!"on line {fault.1}" ∧
    format.Reports fault.1 reason text

/-- A run line by line over the bytes of a byte reader answers for each line once.  The line
numbered so comes to its result, by an attempt that sees this line only, and its answer says this
result.  The rows of the values are the text for the standard output, and each fault is reported
once among the errors, with the number of its line.  Behind the last line the run ends. -/
structure AnswersEachLine (settings : Settings) (compiled : CompiledPlan) (base : ByteReader)
    (results : List LineResult) (transcript : Transcript) : Prop where
  count : results.length =
    base.rest.count lineFeed + if base.rest.getLast?.all (· = lineFeed) then 0 else 1
  tries : ∀ number, ∀ bound : number < results.length,
    TriesLine compiled (linesOf base.rest) base.consumed number (outcomeOf results[number])
      ((start compiled .raise base).afterAttempts number)
  answers_length : transcript.answers.length = results.length
  answers : ∀ number, ∀ bound : number < results.length, ∃ event,
    transcript.answers[number]? = some event ∧
      AnswersLine settings.format (number + 1) results[number] event
  output : ∃ rows, List.Forall₂ settings.format.Row (valuesOf results) rows ∧
    transcript.outputText = String.join (rows.map (· ++ "\n"))
  reports : ∀ verbosity, ∃ texts,
    List.Forall₂ (ReportsFault settings.format) (faultsFrom 0 results) texts ∧
      (transcript.events.filter (Transcript.isVisible verbosity)).filter Event.isReport =
        texts.map .report
  ends : transcript.events.getLast? = some (tally results.length (faultsFrom 0 results).length)
  exitCode : transcript.exitCode = some (if faultsFrom 0 results = [] then 0 else 1)

/-! ## The answers of a run -/

theorem answersFrom_getElem? (settings : Settings) (number : Nat) (results : List LineResult)
    (index : Nat) :
    (answersFrom settings number results)[index]? =
      results[index]?.map (answer settings (number + index + 1)) := by
  induction results generalizing number index with
  | nil => rfl
  | cons result results ih =>
      cases index with
      | zero => rfl
      | succ index =>
          rw [answersFrom, List.getElem?_cons_succ, List.getElem?_cons_succ, ih,
            Nat.add_assoc number, Nat.add_comm 1 index]

theorem length_answersFrom (settings : Settings) (number : Nat) (results : List LineResult) :
    (answersFrom settings number results).length = results.length := by
  induction results generalizing number with
  | nil => rfl
  | cons result results ih => rw [answersFrom, List.length_cons, ih, List.length_cons]

/-- Reports that can each be told by a text are those of a list of texts. -/
theorem exists_texts_of_reports {α : Type} {tells : α → String → Prop} {report : α → Event}
    {faults : List α}
    (each : ∀ fault ∈ faults, ∃ text, report fault = .report text ∧ tells fault text) :
    ∃ texts, List.Forall₂ tells faults texts ∧ faults.map report = texts.map .report := by
  induction faults with
  | nil => exact ⟨[], .nil, rfl⟩
  | cons fault faults ih =>
      obtain ⟨⟨text, written, here⟩, behind⟩ := List.forall_mem_cons.mp each
      obtain ⟨texts, others, same⟩ := ih behind
      exact ⟨text :: texts, .cons here others, by rw [List.map_cons, written, same, List.map_cons]⟩

/-- The faults are results of lines. -/
theorem exists_of_mem_faultsFrom {number : Nat} {results : List LineResult}
    {fault : Nat × Diagnostic ScanFault} (member : fault ∈ faultsFrom number results) :
    ∃ index, ∃ bound : index < results.length,
      fault.1 = number + index + 1 ∧ results[index] = .error fault.2 := by
  induction results generalizing number with
  | nil => cases member
  | cons result results ih =>
      have onward (behind : fault ∈ faultsFrom (number + 1) results) :
          ∃ index, ∃ bound : index < (result :: results).length,
            fault.1 = number + index + 1 ∧ (result :: results)[index] = .error fault.2 := by
        obtain ⟨index, bound, place, same⟩ := ih behind
        exact ⟨index + 1, Nat.succ_lt_succ bound, by omega, same⟩
      cases result with
      | ok values => exact onward member
      | error diagnostic =>
          rcases List.mem_cons.mp member with rfl | behind
          · exact ⟨0, Nat.zero_lt_succ _, rfl, rfl⟩
          · exact onward behind

/-- A fault of a line has a note of the number of the line. -/
theorem exists_of_echoes {number offset : Nat} {alone : Except Stop (List Value)}
    {diagnostic : Diagnostic ScanFault}
    (echoes : Echoes number offset alone (outcomeOf (.error diagnostic))) :
    ∃ reason : ScanFault, diagnostic = (Diagnostic.of reason).withNote s!"on line {number}" := by
  cases echoes with
  | fault reason => exact ⟨_, rfl⟩

theorem answersLine_answer {settings : Settings} {line : Nat} {result : LineResult}
    (noted : ∀ diagnostic, result = .error diagnostic →
      ∃ reason : ScanFault, diagnostic = (Diagnostic.of reason).withNote s!"on line {line}") :
    AnswersLine settings.format line result (answer settings line result) := by
  cases result with
  | ok values => exact .row (settings.format.row_row values)
  | error diagnostic =>
      obtain ⟨reason, rfl⟩ := noted diagnostic rfl
      obtain ⟨text, written, reports⟩ := Format.exists_reports line reason settings.format
      rw [answer, written]
      exact .report reports

/-- With the results of the lines, what is answered for them is for each line. -/
theorem Answers.eachLine {compiled : CompiledPlan} {base : ByteReader} {results : List LineResult}
    {transcript : Transcript} (answers : Answers settings 0 0 results transcript)
    (length : results.length = (linesOf base.rest).length)
    (before : Before (.ok compiled) 0 (.nth base.consumed base.chunks 0) (results.map outcomeOf)
      (start compiled .raise base))
    (echoes : ∀ number, ∀ bound : number < results.length,
      Echoes (number + 1) (Line.nth base.consumed base.chunks number).before
        (aloneOutcome (.ok compiled) (.nth base.consumed base.chunks number))
        (outcomeOf results[number])) :
    AnswersEachLine settings compiled base results transcript where
  count := length.trans (length_linesOf _)
  tries := by
    intro number bound
    have inside : number ≤ (results.map outcomeOf).length := by simpa using Nat.le_of_lt bound
    have here := LineIteration.before_afterAttempts before number inside
    rw [← List.map_drop, List.drop_eq_getElem_cons bound] at here
    exact here.triesLine
  answers_length := by
    rw [answers.answers_eq, length_answersFrom]
  answers := by
    intro number bound
    refine ⟨answer settings (number + 1) results[number], ?_, answersLine_answer ?_⟩
    · rw [answers.answers_eq, answersFrom_getElem?, List.getElem?_eq_getElem bound, Nat.zero_add]
      rfl
    · intro diagnostic failed
      have here := echoes number bound
      rw [failed] at here
      exact exists_of_echoes here
  output := by
    refine ⟨(valuesOf results).map settings.format.row, ?_, ?_⟩
    · rw [List.forall₂_map_right_iff, List.forall₂_same]
      exact fun values _ => settings.format.row_row values
    · rw [Transcript.outputText_eq, answers.answers_eq, join_answersFrom, List.map_map]
      rfl
  reports := by
    intro verbosity
    rw [Transcript.reports_eq, answers.answers_eq, reports_answersFrom]
    refine exists_texts_of_reports fun fault member => ?_
    obtain ⟨index, bound, place, same⟩ := exists_of_mem_faultsFrom member
    have here := echoes index bound
    rw [same] at here
    obtain ⟨reason, noted⟩ := exists_of_echoes here
    rw [Nat.zero_add] at place
    rw [← place] at noted
    obtain ⟨text, written, reports⟩ := Format.exists_reports fault.1 reason settings.format
    exact ⟨text, by rw [← written, ← noted], reason, noted, reports⟩
  ends := by
    have last := answers.getLast_eq
    rwa [Nat.zero_add, Nat.zero_add] at last
  exitCode := by
    rw [answers.exitCode_eq, Nat.zero_add]
    simp only [List.length_eq_zero_iff]

/-- With options that are valid and a plan whose patterns can be read, a run line by line over an
input that can be read answers for each line once: the rows of the lines that match are written, the
faults of the others are reported with the numbers of the lines, all in order, and the exit code is
0 if there are no faults and 1 if there are some. -/
theorem run_answers_each_line [CharacterTable] [PatternEngine] {rules : RuleList} {plan : Plan}
    {compiled : CompiledPlan} {source : Source} {content : List UInt8}
    (valid : settings.config.warnings = []) (byLine : settings.mode = .lines)
    (runs : settings.explain = false) (binds : settings.Binds rules plan)
    (compiles : plan.compile = .ok compiled)
    (brings : source.Brings settings.bufferSize.toNat content) (duration : String) :
    ∃ base results, base.rest = content ∧ base.consumed = 0 ∧
      AnswersEachLine settings compiled base results (run settings (.found source) duration) := by
  have made : (prepare settings duration).2 = .ok (settings.scanner plan) :=
    prepare_of_compiled binds compiles
  obtain ⟨logs, logsOnly, written⟩ := run_of_scanner valid made (.found source)
  have config : (settings.scanner plan).config = settings.config := rfl
  obtain ⟨base, steady, rest, consumed, ran⟩ := exists_runOver_eq config valid brings
  obtain ⟨results, length, before, echoes⟩ := exists_results_of_start compiled steady
  have known : (settings.scanner plan).compiled = .ok compiled := compiles
  have first : Before (settings.scanner plan).compiled 0 (.nth base.consumed base.chunks 0)
      (results.map outcomeOf) (start compiled .raise base) := by
    rw [known]
    exact before .raise
  have few := first.length_le
  rw [List.length_map] at few
  have enough : results.length < runBound ⟨base, []⟩ :=
    Nat.lt_of_le_of_lt few (bytesLeft_lt_runBound ⟨base, []⟩)
  have answers := (answers_runLines first rfl enough settings 0).after logsOnly
  rw [runs, if_neg (by decide), ran, byLine] at written
  exact ⟨base, results, rest, consumed,
    written ▸ answers.eachLine length (before .raise) echoes⟩

/-- Three lines, the second of which is no number, and the last of which has no line feed. -/
theorem run_answers_each_line_of_three :
    let settings : Settings := { template := "\x7b\x7d", rules := "'[0-9]+' as u8" }
    let source : Source := .bytes [0x31, 0x0A, 0x78, 0x0A, 0x32]
    let plan : Plan :=
      ⟨[.capture (some 0) 0], [.custom "[0-9]+" (.ofIntegers "u8" false (some 8) false)], 1,
        "\x7b\x7d"⟩
    ∃ compiled, settings.config.warnings = [] ∧ settings.mode = .lines ∧
      settings.explain = false ∧ settings.Binds { positional := plan.rules } plan ∧
      plan.compile = .ok compiled ∧
      source.Brings settings.bufferSize.toNat [0x31, 0x0A, 0x78, 0x0A, 0x32] ∧
      (∃ base results, base.rest = [0x31, 0x0A, 0x78, 0x0A, 0x32] ∧ base.consumed = 0 ∧
        AnswersEachLine settings compiled base results (run settings (.found source))) ∧
      (run settings (.found source)).outputText = "1\n2\n" ∧
      (run settings (.found source)).errorText settings.verbosity =
        "line 2: error[RESCAN-5002]: input text does not match pattern '[0-9]+'\n" ++
          "  note: on line 2\n" := by
  intro settings source plan
  have valid : settings.config.warnings = [] := by decide
  have binds : settings.Binds { positional := plan.rules } plan :=
    ⟨by decide +kernel, [.capture ⟨.next, .next⟩ 0], by cbv, by decide +kernel⟩
  obtain ⟨compiled, compiles⟩ : ∃ compiled, plan.compile = .ok compiled := ⟨_, rfl⟩
  have brings := Source.brings_bytes settings.bufferSize.toNat [0x31, 0x0A, 0x78, 0x0A, 0x32]
  exact ⟨compiled, valid, rfl, rfl, binds, compiles, brings,
    run_answers_each_line valid rfl rfl binds compiles brings "0.000", by decide +kernel,
    by decide +kernel⟩

end Unformat.CommandLine
