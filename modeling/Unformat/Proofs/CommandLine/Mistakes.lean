import Unformat.Proofs.CommandLine.EachLine
import Unformat.Proofs.CommandLine.Refusing
import Unformat.Proofs.Plan.Compiling

/-!
# Mistakes of configuration

Texts that are refused for a fault with a code, and a template and rules that do not fit together,
end the program before it looks at the input.  A pattern that cannot be read ends it when the
patterns are compiled: before the input is opened if that is asked for or the plan is to be
explained, and otherwise in the first scan.  Nothing is scanned of an input without bytes.
-/

namespace Unformat.CommandLine

open LineIteration (Before)
open Text (CharacterTable)

variable {settings : Settings} {duration : String}

/-! ## Runs without values -/

/-- The run ends with the answers and the exit code, and writes nothing to the standard output. -/
structure Transcript.Barren (transcript : Transcript) (answers : List Event) (code : Nat) :
    Prop where
  answers_eq : transcript.answers = answers
  output_eq : transcript.outputText = ""
  exitCode_eq : transcript.exitCode = some code

theorem Transcript.Barren.after {transcript : Transcript} {answers logs : List Event} {code : Nat}
    (barren : transcript.Barren answers code) (logsOnly : ∀ event ∈ logs, event.isLog = true) :
    (transcript.after logs).Barren answers code where
  answers_eq := (answers_after_of_logs logsOnly transcript).trans barren.answers_eq
  output_eq := (outputText_after_of_logs logsOnly transcript).trans barren.output_eq
  exitCode_eq := barren.exitCode_eq

/-- What the program answers when it cannot go on for a fault. -/
def reporting (settings : Settings) (reason : AnyFault) : Event :=
  settings.format.report "" (Diagnostic.of reason)

theorem barren_abort (settings : Settings) {reason : AnyFault}
    (configures : (Diagnostic.of reason).code.phase.isConfiguration = true) :
    (abort settings (.ofFault reason)).Barren [reporting settings reason] 2 where
  answers_eq := by
    obtain ⟨text, written⟩ := settings.format.exists_report "" (Diagnostic.of reason)
    rw [reporting, Failure.ofFault, abort, written]
    rfl
  output_eq := outputText_abort settings _
  exitCode_eq := by
    rw [Failure.ofFault, abort, if_pos configures]

theorem barren_run_of_fault [CharacterTable] [PatternEngine] {reason : AnyFault}
    (valid : settings.config.warnings = [])
    (fails : (prepare settings duration).2 = .error (.ofFault reason))
    (configures : (Diagnostic.of reason).code.phase.isConfiguration = true) (input : InputFile) :
    (run settings input duration).Barren [reporting settings reason] 2 := by
  obtain ⟨logs, logsOnly, written⟩ := run_of_failure valid fails input
  rw [written]
  exact (barren_abort settings configures).after logsOnly

/-! ## The first scan -/

variable {fault : PatternFault}

/-- What a run comes to that compiles the patterns in its first scan: it finds the fault, unless
there is no byte to scan. -/
def Transcript.Finds (settings : Settings) (fault : PatternFault) (content : List UInt8)
    (transcript : Transcript) : Prop :=
  if content = [] then transcript.Barren [] 0
  else transcript.Barren [reporting settings (.pattern fault)] 2

theorem Transcript.Finds.after {content : List UInt8} {transcript : Transcript}
    (finds : transcript.Finds settings fault content) {logs : List Event}
    (logsOnly : ∀ event ∈ logs, event.isLog = true) :
    (transcript.after logs).Finds settings fault content := by
  unfold Transcript.Finds at finds ⊢
  split at finds
  · next empty => exact if_pos empty ▸ finds.after logsOnly
  · next solid => exact if_neg solid ▸ finds.after logsOnly

variable {scanner : Scanner} {base : ByteReader}

theorem finds_runLines (known : scanner.compiled = .error fault) (steady : base.Steady)
    (settings : Settings) (steps : Nat) :
    (runLines settings scanner (steps + 1) { errors := .raise } ⟨base, [false]⟩ 0).Finds settings
      fault base.rest := by
  have onLine := OnLine.start steady
  have empty := onLine.eq_nil_iff List.not_mem_nil
  obtain ⟨results, yields⟩ := exists_yields (.error fault) onLine 0
  have before : Before scanner.compiled 0 _ results
      ⟨.error fault, { errors := .raise }, ⟨base, [false]⟩⟩ :=
    ⟨known.symm, rfl, onLine, known ▸ yields⟩
  unfold Transcript.Finds
  cases yields with
  | done none =>
      rw [if_pos (empty.mp none), runLines_of_none before]
      exact ⟨rfl, rfl, rfl⟩
  | line some echoes later =>
      -- The line alone comes to the fault at once, so the attempt at it does as well.
      rw [if_neg (mt empty.mpr some)]
      cases echoes with
      | pattern =>
          obtain ⟨logs, logsOnly, written⟩ := runLines_of_line before rfl settings steps 0
          rw [written]
          exact (barren_abort settings rfl).after logsOnly

theorem next_of_unreadable (fault : PatternFault) (steady : base.Steady)
    (separator : Option String) :
    ∃ after, RepeatedScan.next (.error fault) { separator } ⟨base, []⟩ =
      if base.rest = [] then (.finished, { separator, done := true }, after)
      else (.stopped (.pattern fault), { separator, begun := 1 }, after) := by
  obtain ⟨after, looked, _⟩ := steady.stands.peek
  have shown : Reader.peek ⟨base, []⟩ = (.ok (base.chunks.headD []), ⟨after, []⟩) := by
    rw [Reader.peek, Reader.peekThrough, looked]
  have step (reader : Reader) :
      (RepeatedScan.step (.error fault) { separator }).run.run reader =
        (.error (.pattern fault), reader) := by
    cases separator <;> rfl
  refine ⟨⟨after, []⟩, ?_⟩
  have solid := steady.stands.solid
  unfold RepeatedScan.next
  rw [shown]
  cases standing : base.chunks with
  | nil =>
      have empty : base.rest = [] := by
        rw [ByteReader.rest, standing]
        rfl
      rw [if_pos empty]
      rfl
  | cons chunk chunks =>
      obtain ⟨byte, bytes, rfl⟩ := List.exists_cons_of_ne_nil (solid chunk (by simp [standing]))
      have some : base.rest ≠ [] := by simp [ByteReader.rest, standing]
      rw [if_neg some]
      simp only [List.headD_cons, step]
      rfl

theorem finds_runRepeated (known : scanner.compiled = .error fault) (steady : base.Steady)
    (settings : Settings) (separator : Option String) (steps : Nat) :
    (runRepeated settings scanner (steps + 1) { separator } ⟨base, []⟩).Finds settings fault
      base.rest := by
  obtain ⟨after, stepped⟩ := next_of_unreadable fault steady separator
  unfold Transcript.Finds
  rw [runRepeated, known, stepped]
  split
  · exact Transcript.Barren.after ⟨rfl, rfl, rfl⟩ (isLog_of_mem_compilingOnce settings scanner _)
  · exact (barren_abort settings rfl).after (isLog_of_mem_compilingOnce settings scanner _)

/-! ## Mistakes in the texts -/

section Settings

variable [CharacterTable]

/-- The rules or the template are refused for a fault, or they are read and do not fit together. -/
inductive Settings.Mistaken (settings : Settings) : (reason : AnyFault) → Prop where
  | rules {fault : ArgumentFault}
      (refused : RuleList.parse .builtin settings.rules = .error (.fault fault)) :
      Mistaken settings (.argument fault)
  | template {rules : RuleList} {fault : TemplateFault}
      (read : RuleList.parse .builtin settings.rules = .ok rules)
      (refused : Template.parse settings.template = .error (.malformed fault)) :
      Mistaken settings (.template fault)
  | binding {rules : RuleList} {segments : List Segment} {report : BindingReport}
      (read : RuleList.parse .builtin settings.rules = .ok rules)
      (parsed : Template.parse settings.template = .ok segments)
      (misfit : Plan.bind segments rules settings.template = .error report) :
      Mistaken settings (.bindings report)

theorem barren_run_of_mistaken [PatternEngine] {reason : AnyFault}
    (valid : settings.config.warnings = []) (mistaken : settings.Mistaken reason)
    (input : InputFile) (duration : String) :
    (run settings input duration).Barren [reporting settings reason] 2 := by
  cases mistaken with
  | @rules fault refused =>
      have phase : (Diagnostic.of (AnyFault.argument fault)).code.phase = .arguments :=
        fault.phase_eq
      exact barren_run_of_fault valid (prepare_of_refused_rules refused) (by rw [phase]; rfl) input
  | @template rules fault read refused =>
      have phase : (Diagnostic.of (AnyFault.template fault)).code.phase = .template :=
        Template.phase_of_parse refused
      exact barren_run_of_fault valid (prepare_of_refused_template read refused)
        (by rw [phase]; rfl) input
  | binding read parsed misfit =>
      exact barren_run_of_fault valid (prepare_of_misfit read parsed misfit) rfl input

/-! ## Patterns that cannot be read -/

variable [PatternEngine]

/-- The template and the rules are bound to a plan, and one of the rules has a pattern that cannot
be read. -/
structure Settings.Mispatterned (settings : Settings) (rules : RuleList) (plan : Plan)
    (rule : Rule) : Prop where
  binds : settings.Binds rules plan
  declared : rule ∈ rules.flattened
  unreadable : Plan.Unreadable rule

theorem Settings.Mispatterned.exists_fault {rules : RuleList} {plan : Plan} {rule : Rule}
    (mispatterned : settings.Mispatterned rules plan rule) :
    ∃ fault, plan.compile = .error fault :=
  Plan.exists_fault_of_unreadable (mispatterned.binds.rules_eq ▸ mispatterned.declared)
    mispatterned.unreadable

variable {rules : RuleList} {plan : Plan}

theorem prepare_of_eager (binds : settings.Binds rules plan)
    (compiles : plan.compile = .error fault) (eager : settings.eager = true) :
    (prepare settings duration).2 = .error (.ofFault (.pattern fault)) := by
  rw [prepare_of_binds binds, Plan.ready, compiles, if_pos eager]
  rfl

theorem prepare_of_lazy (binds : settings.Binds rules plan) (lazy : settings.eager = false) :
    (prepare settings duration).2 = .ok (settings.scanner plan) := by
  rw [prepare_of_binds binds, if_neg (by simp [lazy])]
  rfl

omit [CharacterTable] in
theorem barren_explain (compiles : plan.compile = .error fault) :
    (explain settings (settings.scanner plan)).Barren [reporting settings (.pattern fault)] 2 := by
  have known : (settings.scanner plan).compiled = .error fault := compiles
  rw [explain, known]
  exact (barren_abort settings rfl).after (isLog_of_mem_compilingOnce settings _ true)

/-- With the patterns asked for, the input does not matter. -/
theorem barren_run_of_asked (valid : settings.config.warnings = [])
    (binds : settings.Binds rules plan) (compiles : plan.compile = .error fault)
    (asked : settings.eager = true ∨ settings.explain = true) (input : InputFile)
    (duration : String) :
    (run settings input duration).Barren [reporting settings (.pattern fault)] 2 := by
  cases early : settings.eager with
  | true => exact barren_run_of_fault valid (prepare_of_eager binds compiles early) rfl input
  | false =>
      obtain ⟨logs, logsOnly, written⟩ := run_of_scanner valid (prepare_of_lazy binds early) input
      rw [written, if_pos (by simpa [early] using asked)]
      exact (barren_explain compiles).after logsOnly

/-- Unless the patterns are asked for, the first scan finds that one cannot be read. -/
theorem finds_run (valid : settings.config.warnings = []) (binds : settings.Binds rules plan)
    (compiles : plan.compile = .error fault) (lazy : settings.eager = false)
    (runs : settings.explain = false) {source : Source} {content : List UInt8}
    (brings : source.Brings settings.bufferSize.toNat content) (duration : String) :
    (run settings (.found source) duration).Finds settings fault content := by
  obtain ⟨logs, logsOnly, written⟩ :=
    run_of_scanner valid (prepare_of_lazy binds lazy) (.found source)
  have config : (settings.scanner plan).config = settings.config := rfl
  have known : (settings.scanner plan).compiled = .error fault := compiles
  obtain ⟨base, steady, rfl, _, ran⟩ := exists_runOver_eq config valid brings
  rw [written, runs, if_neg (by decide), ran]
  refine Transcript.Finds.after ?_ logsOnly
  cases settings.mode with
  | lines => exact finds_runLines known steady settings _
  | multiple => exact finds_runRepeated known steady settings _ _

/-! ## All mistakes -/

/-- With options that are valid, a mistake of configuration gives the exit code 2 and nothing but
its report: over any input if a text is refused or the template and the rules do not fit together,
and for a pattern that cannot be read if the patterns are asked for or the input has a byte.
Without either, nothing is scanned, and the exit code is 0. -/
theorem mistakes_end_program (valid : settings.config.warnings = []) (duration : String) :
    (∀ reason, settings.Mistaken reason → ∀ input,
      (run settings input duration).Barren [reporting settings reason] 2) ∧
    ∀ rules plan rule, settings.Mispatterned rules plan rule →
      ∃ fault, plan.compile = .error fault ∧
        (settings.eager = true ∨ settings.explain = true → ∀ input,
          (run settings input duration).Barren [reporting settings (.pattern fault)] 2) ∧
        ∀ source content, source.Brings settings.bufferSize.toNat content →
          (content ≠ [] → (run settings (.found source) duration).Barren
            [reporting settings (.pattern fault)] 2) ∧
          (content = [] → settings.eager = false → settings.explain = false →
            (run settings (.found source) duration).Barren [] 0) := by
  refine ⟨fun reason mistaken input => barren_run_of_mistaken valid mistaken input duration, ?_⟩
  intro rules plan rule mispatterned
  have binds := mispatterned.binds
  obtain ⟨fault, compiles⟩ := mispatterned.exists_fault
  refine ⟨fault, compiles,
    fun asked input => barren_run_of_asked valid binds compiles asked input duration, ?_⟩
  intro source content brings
  constructor
  · intro solid
    by_cases asked : settings.eager = true ∨ settings.explain = true
    · exact barren_run_of_asked valid binds compiles asked _ duration
    · obtain ⟨lazy, runs⟩ := not_or.mp asked
      have finds := finds_run valid binds compiles (by simpa using lazy) (by simpa using runs)
        brings duration
      rwa [Transcript.Finds, if_neg solid] at finds
  · intro empty lazy runs
    have finds := finds_run valid binds compiles lazy runs brings duration
    rwa [Transcript.Finds, if_pos empty] at finds

end Settings

/-- A parenthesis that is left open. -/
theorem mispatterned_of_open_parenthesis :
    let rule : Rule := .custom "(" (.ofIntegers "u8" false (some 8) false)
    Settings.Mispatterned { template := "\x7b\x7d", rules := "'(' as u8" }
      { positional := [rule] } ⟨[.capture (some 0) 0], [rule], 1, "\x7b\x7d"⟩ rule := by
  intro rule
  have unreadable : Plan.Unreadable rule := by
    have unread : (PatternEngine.read "(").isOk = false := by decide +kernel
    have pattern : rule.pattern?.getD "" = "(" := rfl
    rw [Plan.Unreadable, pattern]
    cases read : PatternEngine.read "(" with
    | error reason => exact ⟨reason, rfl⟩
    | ok matcher =>
        rw [read] at unread
        cases unread
  exact ⟨⟨by decide +kernel, [.capture ⟨.next, .next⟩ 0], by cbv, by decide +kernel⟩,
    List.mem_singleton_self rule, unreadable⟩

/-- A second rule that no slot names, and a parenthesis that is left open, over a line of three
letters. -/
theorem mistakes_end_program_of_two :
    let unused : Settings := { template := "\x7b\x7d", rules := "u8, u8" }
    let opened : Settings := { template := "\x7b\x7d", rules := "'(' as u8" }
    let reason : AnyFault := .bindings (.addAll {} [.unusedRule 1])
    let byte : ScanType := .ofIntegers "u8" false (some 8) false
    let rule : Rule := .custom "(" byte
    let plan : Plan := ⟨[.capture (some 0) 0], [rule], 1, "\x7b\x7d"⟩
    let source : Source := .bytes [0x61, 0x62, 0x63, 0x0A]
    (unused.config.warnings = [] ∧ unused.Mistaken reason ∧
      (run unused (.found source)).Barren [reporting unused reason] 2) ∧
    (opened.config.warnings = [] ∧ opened.Mispatterned { positional := [rule] } plan rule ∧
      source.Brings opened.bufferSize.toNat [0x61, 0x62, 0x63, 0x0A] ∧
      ∃ fault, plan.compile = .error fault ∧
        (run opened (.found source)).Barren [reporting opened (.pattern fault)] 2) := by
  intro unused opened reason byte rule plan source
  have valid : unused.config.warnings = [] := by decide
  have validOpened : opened.config.warnings = [] := by decide
  have mistaken : unused.Mistaken reason := by
    let rules : RuleList := { positional := [.default byte, .default byte] }
    have read : RuleList.parse .builtin unused.rules = .ok rules := by decide +kernel
    have parsed : Template.parse unused.template = .ok [.capture ⟨.next, .next⟩ 0] := by cbv
    exact .binding read parsed (by decide +kernel)
  have brings := Source.brings_bytes opened.bufferSize.toNat [0x61, 0x62, 0x63, 0x0A]
  obtain ⟨fault, compiles, -, others⟩ :=
    (mistakes_end_program validOpened "0.000").2 _ _ _ mispatterned_of_open_parenthesis
  exact ⟨⟨valid, mistaken, (mistakes_end_program valid "0.000").1 reason mistaken _⟩,
    validOpened, mispatterned_of_open_parenthesis, brings, fault, compiles,
    (others _ _ brings).1 (by decide)⟩

/-- A parenthesis that is left open, over an input without bytes: the exit code is 0. -/
theorem unseen_mistake_of_no_bytes :
    let settings : Settings := { template := "\x7b\x7d", rules := "'(' as u8" }
    settings.config.warnings = [] ∧
      (∃ rules plan rule, settings.Mispatterned rules plan rule) ∧
      (Source.bytes []).Brings settings.bufferSize.toNat [] ∧
      (run settings (.found (.bytes []))).exitCode = some 0 := by
  intro settings
  exact ⟨by decide, ⟨_, _, _, mispatterned_of_open_parenthesis⟩, Source.brings_bytes _ [],
    by decide +kernel⟩

end Unformat.CommandLine
