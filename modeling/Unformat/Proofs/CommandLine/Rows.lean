import Unformat.Proofs.CommandLine.EachLine
import Unformat.Proofs.Scan.Progress
import Unformat.Proofs.Scan.Yielding

/-!
# The rows that a run of the program writes

What a run writes to the standard output are the rows of the tuples that a scan in its mode brings,
one behind the other, each with a line feed behind it, over any input and however the reads fail.
Every tuple has a value for each slot of the plan.
-/

namespace Unformat

open Scan (Scanned)
open Text (CharacterTable)

/-! ## The tuples of a scan -/

/-- When faults are given back, every attempt is answered. -/
theorem LineScan.exists_step_of_raise {scan : LineScan} (raises : scan.errors = .raise)
    (attempt : LineAttempt) :
    ∃ step, (scan.settle attempt).1 = some step ∧ step ≠ .finished := by
  obtain ⟨errors, number, failures⟩ := scan
  obtain rfl : errors = .raise := raises
  obtain ⟨line, outcome, skipped⟩ := attempt
  rcases outcome with (_ | _ | _) | _ <;> cases skipped <;> exact ⟨_, rfl, nofun⟩

/-- The tuples among what the next requests bring, until the scan is over or stops for something
else than a line that does not match. -/
def LineIteration.tuples : Nat → LineIteration → List (List Value)
  | 0, _ => []
  | steps + 1, iteration =>
      match iteration.next with
      | (.values values, next) => values :: tuples steps next
      | (.stopped (.fault _), next) => tuples steps next
      | _ => []

/-- The tuples that the next requests bring, until the scan is over or stops. -/
def RepeatedIteration.tuples : Nat → RepeatedIteration → List (List Value)
  | 0, _ => []
  | steps + 1, iteration =>
      match iteration.next with
      | (.values values, next) => values :: tuples steps next
      | _ => []

/-- A run of the plan over some reader yields the values. -/
def YieldedBy (compiled : Except PatternFault CompiledPlan) (values : List Value) : Prop :=
  ∃ reader after, Scan.outcome (Scan.execute compiled) reader = (.ok values, after)

namespace LineIteration

variable {iteration : LineIteration}

/-- When faults are given back, a request makes one attempt, whatever the reads bring. -/
theorem tuples_succ (raises : iteration.scan.errors = .raise) (steps : Nat) :
    iteration.tuples (steps + 1) =
      match iteration.attempt.1 with
      | .ok (some attempt) =>
          match (iteration.scan.settle attempt).1 with
          | some (.values values) => values :: iteration.attempt.2.tuples steps
          | some (.stopped (.fault _)) => iteration.attempt.2.tuples steps
          | _ => []
      | _ => [] := by
  rw [tuples, next_eq, nextWithin_succ]
  rcases iteration.attempt with ⟨_ | _ | attempt, after⟩
  · rfl
  · rfl
  · obtain ⟨step, gives, _⟩ := LineScan.exists_step_of_raise raises attempt
    simp only [gives]
    rcases step with values | _ | stop
    · rfl
    · rfl
    · cases stop <;> rfl

/-- Only an attempt that yields values brings them. -/
theorem outcome_of_settle {scan : LineScan} {attempt : LineAttempt} {values : List Value}
    (settled : (scan.settle attempt).1 = some (.values values)) : attempt.outcome = .ok values := by
  obtain ⟨line, outcome, skipped⟩ := attempt
  obtain ⟨errors, number, failures⟩ := scan
  rcases outcome with stop | others
  · rcases stop with _ | _ | _ <;> rcases skipped with _ | _ <;> cases errors <;> cases settled
  · cases skipped <;> cases settled
    rfl

theorem yieldedBy_of_attempt {attempt : LineAttempt} {values : List Value}
    (tried : iteration.attempt.1 = .ok (some attempt)) (yields : attempt.outcome = .ok values) :
    YieldedBy iteration.compiled values := by
  have made : (iteration.scan.attempt iteration.compiled iteration.reader).1 =
      .ok (some attempt) := by
    rw [← tried, LineIteration.attempt]
    split <;> rename_i came <;> rw [came]
  rw [LineScan.attempt] at made
  split at made
  · cases made
  · cases made
  · next reader _ =>
      have same : (LineAttempt.make iteration.compiled (iteration.scan.lineNumber + 1) reader).1 =
          attempt := Option.some.inj (Except.ok.inj made)
      have mapped : (Scan.outcome (Scan.execute iteration.compiled) reader).1.mapError
          (LineAttempt.noted (iteration.scan.lineNumber + 1)) = attempt.outcome :=
        congrArg LineAttempt.outcome same
      rw [yields] at mapped
      rcases came : Scan.outcome (Scan.execute iteration.compiled) reader with ⟨_ | others, after⟩
      · rw [came] at mapped
        cases mapped
      · rw [came] at mapped
        cases mapped
        exact ⟨reader, after, came⟩

theorem attempt_compiled (iteration : LineIteration) :
    iteration.attempt.2.compiled = iteration.compiled := by
  rw [attempt]
  split <;> rfl

theorem yieldedBy_of_mem_tuples (raises : iteration.scan.errors = .raise) {steps : Nat}
    {values : List Value} (member : values ∈ iteration.tuples steps) :
    YieldedBy iteration.compiled values := by
  induction steps generalizing iteration with
  | zero => cases member
  | succ steps ih =>
      have onward : values ∈ iteration.attempt.2.tuples steps →
          YieldedBy iteration.compiled values := by
        intro behind
        rw [← attempt_compiled]
        exact ih ((attempt_errors iteration).trans raises) behind
      rw [tuples_succ raises] at member
      split at member
      · next attempt tried =>
          split at member
          · next others settled =>
              rcases List.mem_cons.mp member with rfl | behind
              · exact yieldedBy_of_attempt tried (outcome_of_settle settled)
              · exact onward behind
          · exact onward member
          · cases member
      · cases member

end LineIteration

namespace RepeatedIteration

variable {iteration : RepeatedIteration}

theorem yieldedBy_of_next {values : List Value} (brought : iteration.next.1 = .values values) :
    YieldedBy iteration.compiled values := by
  have came : (iteration.scan.next iteration.compiled iteration.reader).1 = .values values :=
    brought
  rw [RepeatedScan.next] at came
  split at came
  · cases came
  split at came
  · cases came
  · cases came
  next _ reader _ _ =>
  dsimp only at came
  split at came
  · next others after ran =>
      cases came
      have step : Scan.outcome (iteration.scan.step iteration.compiled) reader =
          (.ok values, after) := ran
      rw [RepeatedScan.step_eq, Scan.outcome_bind] at step
      split at step
      · next middle _ => exact ⟨middle, after, step⟩
      · cases step
  · cases came
  · cases came

theorem yieldedBy_of_mem_tuples {steps : Nat}
    {values : List Value} (member : values ∈ iteration.tuples steps) :
    YieldedBy iteration.compiled values := by
  induction steps generalizing iteration with
  | zero => cases member
  | succ steps ih =>
      rw [tuples] at member
      split at member
      · next others next brought =>
          have same : next.compiled = iteration.compiled := by
            rw [← show iteration.next.2 = next by rw [brought]]
            rfl
          rcases List.mem_cons.mp member with rfl | behind
          · exact yieldedBy_of_next (by rw [brought])
          · exact same ▸ ih behind
      · cases member

end RepeatedIteration

namespace CommandLine

/-! ## The text of the output -/

theorem Transcript.outputText_after (event : Event) (transcript : Transcript) :
    (transcript.after [event]).outputText = event.outputText ++ transcript.outputText := by
  rw [outputText_eq, outputText_eq, answers_after]
  cases log : event.isLog with
  | true => rw [Event.outputText_of_isLog log, String.empty_append]; simp [log]
  | false => rw [List.filter_cons_of_pos (by simp [log])]; simp [String.join_cons]

/-- The rows of tuples, each with a line feed behind it. -/
def rowsText (settings : Settings) (tuples : List (List Value)) : String :=
  String.join (tuples.map fun values => settings.format.row values ++ "\n")

theorem rowsText_cons (settings : Settings) (values : List Value) (tuples : List (List Value)) :
    rowsText settings (values :: tuples) =
      settings.format.row values ++ "\n" ++ rowsText settings tuples := by
  rw [rowsText, List.map_cons, String.join_cons]
  rfl

/-- When no row has a line feed, the lines of the text are the rows, and nothing is behind the last
line feed. -/
theorem splitOn_rowsText {settings : Settings} {tuples : List (List Value)}
    (bare : ∀ values ∈ tuples, '\n' ∉ (settings.format.row values).toList) :
    (rowsText settings tuples).toList.splitOn '\n' =
      tuples.map (fun values => (settings.format.row values).toList) ++ [[]] := by
  have joined : (rowsText settings tuples).toList =
      ['\n'].intercalate
        (tuples.map (fun values => (settings.format.row values).toList) ++ [[]]) := by
    clear bare
    induction tuples with
    | nil => rfl
    | cons values tuples ih =>
        rw [rowsText_cons, String.toList_append, String.toList_append, ih, List.map_cons,
          List.cons_append, List.intercalate_cons_of_ne_nil (by simp)]
        rfl
  rw [joined, List.splitOn_intercalate '\n' ?_ (by simp)]
  intro row member
  rcases List.mem_append.mp member with front | last
  · obtain ⟨values, inside, rfl⟩ := List.mem_map.mp front
    exact bare values inside
  · obtain rfl := List.mem_singleton.mp last
    exact List.not_mem_nil

variable {settings : Settings} {scanner : Scanner}

theorem outputText_of_report {place : String} {diagnostic : Diagnostic ScanFault}
    (transcript : Transcript) :
    (transcript.after [settings.format.report place diagnostic]).outputText =
      transcript.outputText := by
  obtain ⟨text, written⟩ := settings.format.exists_report place diagnostic
  rw [written, Transcript.outputText_after]
  exact String.empty_append

theorem outputText_runLines (iteration : LineIteration)
    (compiles : iteration.compiled = scanner.compiled) (raises : iteration.scan.errors = .raise)
    (steps failed : Nat) :
    (runLines settings scanner steps iteration.scan iteration.reader failed).outputText =
      rowsText settings (iteration.tuples steps) := by
  induction steps generalizing iteration failed with
  | zero => rfl
  | succ steps ih =>
      have onward (failed : Nat) :
          (runLines settings scanner steps iteration.attempt.2.scan iteration.attempt.2.reader
            failed).outputText = rowsText settings (iteration.attempt.2.tuples steps) :=
        ih _ ((LineIteration.attempt_compiled iteration).trans compiles)
          ((LineIteration.attempt_errors iteration).trans raises) failed
      rw [runLines_succ compiles, LineIteration.tuples_succ raises]
      rcases tried : iteration.attempt.1 with fault | _ | attempt
      · exact outputText_abort settings _
      · rfl
      · dsimp only
        rw [Transcript.outputText_after_of_logs (List.forall_mem_append.mpr
          ⟨isLog_of_mem_compilingOnce settings scanner _, isLog_of_mem_converting _⟩)]
        obtain ⟨step, settled, unfinished⟩ := LineScan.exists_step_of_raise raises attempt
        simp only [settled]
        rcases step with values | _ | _ | diagnostic | fault
        · rw [Transcript.outputText_after, onward, rowsText_cons]
          rfl
        · exact (unfinished rfl).elim
        · exact outputText_abort settings _
        · rw [outputText_of_report, onward]
        · exact outputText_abort settings _

theorem outputText_finishRepeated (settings : Settings) (scan : RepeatedScan) :
    (finishRepeated settings scan).outputText = "" := by
  rw [Transcript.outputText_eq, finishRepeated]
  cases failure : scan.failure with
  | none => rfl
  | some diagnostic =>
      obtain ⟨text, written⟩ :=
        settings.format.exists_report s!"scan {scan.count + 1}: " diagnostic
      have logs := isLog_of_mem_converting (α := Unit) (.error (.fault diagnostic))
      have none : (converting (α := Unit) (.error (.fault diagnostic))).filter
          (fun event => !event.isLog) = [] :=
        List.filter_eq_nil_iff.mpr fun event member => by simp [logs event member]
      simp only [Transcript.answers, List.filter_append, none, written]
      rfl

theorem outputText_runRepeated (iteration : RepeatedIteration)
    (compiles : iteration.compiled = scanner.compiled) (steps : Nat) :
    (runRepeated settings scanner steps iteration.scan iteration.reader).outputText =
      rowsText settings (iteration.tuples steps) := by
  induction steps generalizing iteration with
  | zero => rfl
  | succ steps ih =>
      rw [runRepeated, scan_next_eq compiles, RepeatedIteration.tuples]
      dsimp only
      rw [Transcript.outputText_after_of_logs (isLog_of_mem_compilingOnce settings scanner _)]
      have onward := ih iteration.next.2 compiles
      rcases brought : iteration.next with ⟨values | _ | stop, next⟩
      · rw [brought] at onward
        dsimp only
        rw [Transcript.outputText_after, onward, rowsText_cons]
        rfl
      · exact outputText_finishRepeated settings _
      · exact outputText_abort settings _

/-! ## A run over an input -/

variable [PatternEngine]

/-- The tuples that a plan brings over an input, in the mode of the settings.  They are those of as
many steps as any run takes that comes to an end: a run back to back that does not
(`RepeatedIteration.ends_unless_run_leaves_reader`) goes on to bring the last of them for ever. -/
def Settings.tuples (settings : Settings) (plan : Plan) : InputFile → List (List Value)
  | .found source =>
      match (settings.scanner plan).reader source with
      | .error _ => []
      | .ok reader =>
          match settings.mode with
          | .lines =>
              LineIteration.tuples (runBound reader)
                ⟨plan.compile, { errors := .raise }, reader.byLine⟩
          | .multiple =>
              RepeatedIteration.tuples (runBound reader)
                ⟨plan.compile, { separator := settings.separator }, reader⟩
  | _ => []

theorem outputText_runOver (settings : Settings) (plan : Plan) (input : InputFile) :
    (runOver settings (settings.scanner plan) input).outputText =
      rowsText settings (settings.tuples plan input) := by
  cases input with
  | missing path | directory path => rfl
  | found source =>
      rw [runOver, Settings.tuples]
      cases (settings.scanner plan).reader source with
      | error failure => exact outputText_abort settings failure
      | ok reader =>
          cases settings.mode with
          | lines =>
              exact outputText_runLines
                ⟨plan.compile, { errors := .raise }, reader.byLine⟩ rfl rfl _ 0
          | multiple =>
              exact outputText_runRepeated
                ⟨plan.compile, { separator := settings.separator }, reader⟩ rfl _

variable {plan : Plan} {input : InputFile}

theorem Settings.yieldedBy_of_mem_tuples {values : List Value}
    (member : values ∈ settings.tuples plan input) : YieldedBy plan.compile values := by
  cases input with
  | missing path | directory path => cases member
  | found source =>
      rw [tuples] at member
      split at member
      · cases member
      · split at member
        · exact LineIteration.yieldedBy_of_mem_tuples rfl member
        · exact RepeatedIteration.yieldedBy_of_mem_tuples member

/-- With options that are not valid nothing is read. -/
theorem Settings.tuples_of_invalid (invalid : settings.config.warnings ≠ []) (plan : Plan)
    (input : InputFile) : settings.tuples plan input = [] := by
  have small : settings.bufferSize < 1 := by
    by_contra large
    apply invalid
    have positive : ¬ settings.bufferSize ≤ 0 := by omega
    simp [Settings.config, Config.warnings, positive]
  cases input with
  | missing path | directory path => rfl
  | found source =>
      have refused : (settings.scanner plan).reader source =
          .error (.value (.bufferSize settings.bufferSize)) := if_pos small
      rw [tuples, refused]

/-- A plan with a pattern that cannot be read brings nothing. -/
theorem Settings.tuples_of_unreadable {fault : PatternFault}
    (unreadable : plan.compile = .error fault) : settings.tuples plan input = [] := by
  refine List.eq_nil_iff_forall_not_mem.mpr fun values member => ?_
  obtain ⟨reader, after, done⟩ := yieldedBy_of_mem_tuples member
  rw [unreadable] at done
  cases done

variable [CharacterTable]

/-- A run that does not explain the plan writes the rows of the tuples that the plan brings, and
nothing else, to the standard output. -/
theorem outputText_run {rules : RuleList} (binds : settings.Binds rules plan)
    (runs : settings.explain = false) (input : InputFile) (duration : String) :
    (run settings input duration).outputText = rowsText settings (settings.tuples plan input) := by
  by_cases valid : settings.config.warnings = []
  swap
  · rw [settings.tuples_of_invalid valid, run]
    rw [Transcript.outputText_after_of_logs (isLog_of_mem_ignoredSettings settings)]
    split
    · exact (valid ‹_›).elim
    · rw [Transcript.outputText_eq, Transcript.answers, List.filter_eq_nil_iff.mpr]
      · rfl
      · simp [Event.note, Event.isLog]
  cases made : (prepare settings duration).2 with
  | ok scanner =>
      have same : scanner = settings.scanner plan := by
        rw [prepare_of_binds binds] at made
        split at made
        · cases ready : plan.ready <;> rw [ready] at made <;> cases made
          rfl
        · cases made
          rfl
      subst same
      obtain ⟨logs, logsOnly, written⟩ := run_of_scanner valid made input
      rw [written, runs, if_neg Bool.false_ne_true, Transcript.outputText_after_of_logs logsOnly,
        outputText_runOver]
  | error failure =>
      obtain ⟨logs, logsOnly, written⟩ := run_of_failure valid made input
      rw [written, Transcript.outputText_after_of_logs logsOnly, outputText_abort]
      cases compiles : plan.compile with
      | error fault => rw [Settings.tuples_of_unreadable compiles]; rfl
      | ok compiled =>
          rw [prepare_of_compiled binds compiles] at made
          cases made

/-- Every tuple has a value for each slot of the plan, for which a capture has taken a text. -/
theorem scanned_of_mem_tuples {rules : RuleList} (binds : settings.Binds rules plan)
    {values : List Value} (member : values ∈ settings.tuples plan input) :
    values.length = plan.arity ∧
      ∃ compiled, plan.compile = .ok compiled ∧ ∀ value ∈ values, Scanned compiled value := by
  obtain ⟨reader, after, done⟩ := Settings.yieldedBy_of_mem_tuples member
  cases compiles : plan.compile with
  | error fault =>
      rw [compiles] at done
      cases done
  | ok compiled =>
      obtain ⟨_, segments, _, bound⟩ := binds
      have same := (Plan.compileRules_of_compile compiles).2
      rw [compiles] at done
      rw [← same] at bound
      obtain ⟨length, scanned⟩ := Scan.scanned_of_execute bound done
      exact ⟨same ▸ length, compiled, rfl, scanned⟩

end CommandLine

end Unformat
