import Unformat.Proofs.CommandLine.Preparing
import Unformat.Proofs.Rule.Refusing
import Unformat.Proofs.ScanType.Equality
import Unformat.Proofs.Template.Refusing

/-!
# Exit codes of texts that are refused

The program reads the rules and then the template.  A text that is refused for a fault with a code
is a mistake of configuration and gives the exit code 2.  The two failures without a code are not
mistakes of configuration: they give 1.
-/

namespace Unformat.CommandLine

open Text (CharacterTable)

variable {settings : Settings}

/-- Whether a failure is a mistake of configuration is seen from its code. -/
theorem exitCode_abort_ofArgument (failure : ArgumentFailure) :
    (abort settings (.ofArgument failure)).exitCode = some (if failure.isCoded then 2 else 1) := by
  cases failure with
  | malformedLiteral => rfl
  | fault fault =>
      have phase : (Diagnostic.of (AnyFault.argument fault)).code.phase = .arguments :=
        fault.phase_eq
      simp only [Failure.ofArgument, Failure.ofFault, abort, phase]
      rfl

theorem exitCode_abort_ofTemplate {template : String} {failure : TemplateFailure}
    (refused : Template.parse template = .error failure) :
    (abort settings (.ofTemplate failure)).exitCode = some (if failure.isCoded then 2 else 1) := by
  cases failure with
  | tooManyDigits fault => rfl
  | malformed fault =>
      have phase : (Diagnostic.of (AnyFault.template fault)).code.phase = .template :=
        Template.phase_of_parse refused
      simp only [Failure.ofTemplate, Failure.ofFault, abort, phase]
      rfl

section Texts

variable [CharacterTable]

/-- One of the texts cannot be read: the rules, or else the template. -/
inductive Settings.Refused (settings : Settings) : (coded : Bool) → Prop where
  | rules {failure : ArgumentFailure}
      (refused : RuleList.parse .builtin settings.rules = .error failure) :
      Refused settings failure.isCoded
  | template {rules : RuleList} {failure : TemplateFailure}
      (read : RuleList.parse .builtin settings.rules = .ok rules)
      (refused : Template.parse settings.template = .error failure) :
      Refused settings failure.isCoded

variable [PatternEngine]

/-- No scanner is made of texts that are refused. -/
theorem exists_failure_of_refused {coded : Bool} (refused : settings.Refused coded)
    (duration : String) :
    ∃ failure, (prepare settings duration).2 = .error failure ∧
      (abort settings failure).exitCode = some (if coded then 2 else 1) := by
  cases refused with
  | rules refused =>
      exact ⟨_, prepare_of_refused_rules refused, exitCode_abort_ofArgument _⟩
  | template accepted refused =>
      exact ⟨_, prepare_of_refused_template accepted refused, exitCode_abort_ofTemplate refused⟩

/-- Texts that are refused end the program, unless its parameters have ended it before. -/
theorem exitCode_run_of_refused {coded : Bool} (refused : settings.Refused coded)
    (input : InputFile) (duration : String) :
    (run settings input duration).exitCode =
      some (if settings.config.warnings = [] ∧ coded = false then 1 else 2) := by
  obtain ⟨failure, fails, ends⟩ := exists_failure_of_refused refused duration
  cases valid : settings.config.warnings with
  | nil =>
      obtain ⟨logs, _, written⟩ := run_of_failure valid fails input
      rw [written, Transcript.exitCode_after, ends]
      cases coded <;> rfl
  | cons warning warnings =>
      rw [run, Transcript.exitCode_after, valid]
      simp

/-- Templates and rule lists are refused for faults whose codes belong to their phases, and then
the program ends with the exit code 2.  The only other failures are those of a template with a
number of too many digits, and of a rule list with a malformed literal behind entries that state
arguments; then the program ends with 1. -/
theorem refused_texts_coded_unless (template : String) (registry : Registry) (text : String)
    (settings : Settings) (input : InputFile) (duration : String) :
    ((∀ fault, Template.parse template = .error (.malformed fault) →
        (Fault.code fault).phase = .template) ∧
      ((∃ failure, Template.parse template = .error failure ∧ failure.isCoded = false) ↔
        ∃ field, Template.DigitField template.toList field ∧
          Number.digitLimit < field.length)) ∧
    ((∀ fault, RuleList.parse registry text = .error (.fault fault) →
        (Fault.code fault).phase = .arguments) ∧
      ((∃ failure, RuleList.parse registry text = .error failure ∧ failure.isCoded = false) ↔
        RuleList.StatesFlawed registry text.toList)) ∧
    ∀ coded, settings.Refused coded →
      (run settings input duration).exitCode =
        some (if settings.config.warnings = [] ∧ coded = false then 1 else 2) := by
  refine ⟨⟨fun fault => Template.phase_of_parse, ?_⟩, ⟨fun fault _ => fault.phase_eq, ?_⟩,
    fun coded refused => exitCode_run_of_refused refused input duration⟩
  · rw [← Template.exists_tooManyDigits_iff]
    constructor
    · rintro ⟨_ | fault, refused, plain⟩
      · cases plain
      · exact ⟨fault, refused⟩
    · rintro ⟨fault, refused⟩
      exact ⟨_, refused, rfl⟩
  · rw [← RuleList.parse_eq_malformed_iff]
    constructor
    · rintro ⟨_ | _, refused, plain⟩
      · cases plain
      · exact refused
    · exact fun refused => ⟨_, refused, rfl⟩

end Texts

/-- A line end within quotation marks: the program ends with the exit code 1. -/
theorem refused_texts_coded_unless_of_line_end :
    let settings : Settings := { template := "\x7b\x7d", rules := "\"\n\" as String" }
    settings.Refused false ∧ (run settings (.missing "a")).exitCode = some 1 := by
  intro settings
  have malformed : RuleList.parse .builtin settings.rules = .error .malformedLiteral := by
    decide +kernel
  have refused : settings.Refused false := .rules malformed
  refine ⟨refused, ?_⟩
  obtain ⟨-, -, ends⟩ := refused_texts_coded_unless settings.template .builtin settings.rules
    settings (.missing "a") "0.000"
  rw [ends false refused]
  exact congrArg some (if_pos (by decide +kernel))

/-- A literal with half an escape, and a template with a number of too many digits: neither failure
is a fault, and the program ends with the exit code 1. -/
theorem uncoded_failures_of_texts :
    RuleList.parse .builtin "\"\\xZZ\"" = .error .malformedLiteral ∧
      (run { template := "\x7b\x7d", rules := "\"\\xZZ\"" } (.missing "a")).exitCode = some 1 ∧
      ∃ fault, Template.parse (String.ofList ('\x7b' :: (List.replicate 4301 '1' ++ ['\x7d']))) =
        .error (.tooManyDigits fault) := by
  have refused : RuleList.parse .builtin "\"\\xZZ\"" = .error .malformedLiteral := by
    decide +kernel
  refine ⟨refused, ?_, ?_⟩
  · rw [exitCode_run_of_refused (.rules refused)]
    exact congrArg some (if_pos (by decide +kernel))
  · have ones (count : Nat) : ∀ c ∈ List.replicate count '1', c.isDigit = true := by
      intro c member
      rw [List.eq_of_mem_replicate member]
      rfl
    have long : Number.digitLimit < (List.replicate 4301 '1').length := by
      rw [List.length_replicate]
      decide
    exact Template.exists_tooManyDigits_of_slot (ones 4301) long

end Unformat.CommandLine
