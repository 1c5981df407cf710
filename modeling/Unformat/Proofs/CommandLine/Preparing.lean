import Unformat.Proofs.CommandLine.Writing
import Unformat.Proofs.Input.Steady
import Unformat.Proofs.Plan.Fitting

/-!
# What a run of the program is prepared with

When the options are valid, a run is that of the scanner over the input, or it ends with what is
wrong with the scanner; before that only log entries are written.  The scanner is that of the plan
to which the template and the rules are bound.
-/

namespace Unformat

/-- The reads of a source bring the content together, and none of them fails. -/
def Source.Brings (source : Source) (size : Nat) (content : List UInt8) : Prop :=
  ∃ pending, source.deliveries size = .ok pending ∧ Unfailing pending ∧
    (incoming pending).flatten = content

theorem Source.brings_bytes (size : Nat) (content : List UInt8) :
    (Source.bytes content).Brings size content := by
  have cuts := cuts_cut size content
  refine ⟨_, rfl, unfailing_data _, ?_⟩
  rw [deliverBytes, incoming_data cuts.solid, cuts.flatten_eq]

theorem Source.Brings.exists_reader {source : Source} {size : Int} {content : List UInt8}
    (brings : source.Brings size.toNat content) (positive : 0 < size) :
    ∃ base, Reader.ofSource size source = .ok ⟨base, []⟩ ∧ base.Steady ∧ base.rest = content ∧
      base.consumed = 0 := by
  obtain ⟨pending, delivered, unfailing, flat⟩ := brings
  refine ⟨{ pending }, ?_, fun _ => unfailing, flat, rfl⟩
  rw [Reader.ofSource, if_neg (by omega), delivered]
  rfl

namespace CommandLine

open Text (CharacterTable)

variable {settings : Settings} {duration : String}

theorem bufferSize_pos (valid : settings.config.warnings = []) : 0 < settings.bufferSize := by
  rcases Int.lt_or_le 0 settings.bufferSize with positive | small
  · exact positive
  · have odd : settings.config.bufferSize ≤ 0 := small
    rw [Config.warnings, if_pos odd] at valid
    cases valid

theorem read_template {segments : List Segment}
    (parsed : Template.parse settings.template = .ok segments) :
    Template.read settings.template = .ok segments := by
  rw [Template.read, parsed]
  rfl

/-- Over an input that can be read, a run goes on line by line or back to back. -/
theorem exists_runOver_eq {scanner : Scanner} {source : Source} {content : List UInt8}
    (config : scanner.config = settings.config) (valid : settings.config.warnings = [])
    (brings : source.Brings settings.bufferSize.toNat content) :
    ∃ base : ByteReader, base.Steady ∧ base.rest = content ∧ base.consumed = 0 ∧
      runOver settings scanner (.found source) =
        match settings.mode with
        | .lines =>
            runLines settings scanner (runBound ⟨base, []⟩) { errors := .raise } ⟨base, [false]⟩ 0
        | .multiple =>
            runRepeated settings scanner (runBound ⟨base, []⟩) { separator := settings.separator }
              ⟨base, []⟩ := by
  obtain ⟨base, made, steady, rest, consumed⟩ := brings.exists_reader (bufferSize_pos valid)
  refine ⟨base, steady, rest, consumed, ?_⟩
  have opened : scanner.reader source = .ok ⟨base, []⟩ := by
    rw [Scanner.reader, config]
    exact made
  simp only [runOver, opened]
  rfl

/-! ## The scanner -/

variable [CharacterTable]

/-- The rules and the template can be read, and are bound to the plan. -/
structure Settings.Binds (settings : Settings) (rules : RuleList) (plan : Plan) : Prop where
  read : RuleList.parse .builtin settings.rules = .ok rules
  bound : ∃ segments, Template.parse settings.template = .ok segments ∧
    Plan.bind segments rules settings.template = .ok plan

theorem Settings.Binds.rules_eq {rules : RuleList} {plan : Plan}
    (binds : settings.Binds rules plan) : plan.rules = rules.flattened := by
  obtain ⟨segments, _, bound⟩ := binds.bound
  obtain ⟨fits, rfl⟩ := Plan.fits_of_bind bound
  exact (Binding.realizes_determined fits settings.template).rules_eq

def Settings.scanner [PatternEngine] (settings : Settings) (plan : Plan) : Scanner :=
  { plan, compiled := plan.compile, config := settings.config }

theorem read_rules {rules : RuleList} (read : RuleList.parse .builtin settings.rules = .ok rules) :
    RuleList.read .builtin settings.rules = .ok rules := by
  rw [RuleList.read, read]
  rfl

variable [PatternEngine]

theorem prepare_of_binds {rules : RuleList} {plan : Plan} (binds : settings.Binds rules plan) :
    (prepare settings duration).2 = do
      if settings.eager then discard plan.ready
      return settings.scanner plan := by
  obtain ⟨read, segments, parsed, bound⟩ := binds
  simp only [prepare, read_rules read, read_template parsed, link, bound]
  rfl

theorem prepare_of_compiled {rules : RuleList} {plan : Plan} {compiled : CompiledPlan}
    (binds : settings.Binds rules plan) (compiles : plan.compile = .ok compiled) :
    (prepare settings duration).2 = .ok (settings.scanner plan) := by
  rw [prepare_of_binds binds, Plan.ready, compiles]
  split <;> rfl

/-! ## No scanner -/

theorem prepare_of_refused_rules {failure : ArgumentFailure}
    (refused : RuleList.parse .builtin settings.rules = .error failure) :
    (prepare settings duration).2 = .error (.ofArgument failure) := by
  have read : RuleList.read .builtin settings.rules = .error (.ofArgument failure) := by
    rw [RuleList.read, refused]
    rfl
  rw [prepare, read]

theorem prepare_of_refused_template {rules : RuleList} {failure : TemplateFailure}
    (accepted : RuleList.parse .builtin settings.rules = .ok rules)
    (refused : Template.parse settings.template = .error failure) :
    (prepare settings duration).2 = .error (.ofTemplate failure) := by
  have read : Template.read settings.template = .error (.ofTemplate failure) := by
    rw [Template.read, refused]
    rfl
  simp only [prepare, read_rules accepted, read]

theorem prepare_of_misfit {rules : RuleList} {segments : List Segment} {report : BindingReport}
    (read : RuleList.parse .builtin settings.rules = .ok rules)
    (parsed : Template.parse settings.template = .ok segments)
    (misfit : Plan.bind segments rules settings.template = .error report) :
    (prepare settings duration).2 = .error (.ofFault (.bindings report)) := by
  simp only [prepare, read_rules read, read_template parsed, link, misfit]
  rfl

/-! ## The run -/

theorem run_of_failure {failure : Failure} (valid : settings.config.warnings = [])
    (fails : (prepare settings duration).2 = .error failure) (input : InputFile) :
    ∃ logs : List Event, (∀ event ∈ logs, event.isLog = true) ∧
      run settings input duration = (abort settings failure).after logs := by
  refine ⟨ignoredSettings settings ++ (prepare settings duration).1,
    List.forall_mem_append.mpr ⟨isLog_of_mem_ignoredSettings settings,
      isLog_of_mem_prepare settings duration⟩, ?_⟩
  rw [← Transcript.after_after, run, valid]
  simp only [fails]

theorem run_of_scanner {scanner : Scanner} (valid : settings.config.warnings = [])
    (made : (prepare settings duration).2 = .ok scanner) (input : InputFile) :
    ∃ logs : List Event, (∀ event ∈ logs, event.isLog = true) ∧
      run settings input duration =
        (if settings.explain then explain settings scanner
          else runOver settings scanner input).after logs := by
  refine ⟨ignoredSettings settings ++ (prepare settings duration).1,
    List.forall_mem_append.mpr ⟨isLog_of_mem_ignoredSettings settings,
      isLog_of_mem_prepare settings duration⟩, ?_⟩
  rw [← Transcript.after_after, run, valid]
  simp only [made]

end CommandLine

end Unformat
