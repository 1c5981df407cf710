import Unformat.Proofs.Pattern.Refusing
import Unformat.Proofs.Scan.Chunking
import Unformat.Proofs.Scan.LineReading

/-!
# What default rules make of the end of a line

A plan of default rules takes nothing of the end of a line, except that a single character may be
the carriage return of an otherwise empty rest.
-/

namespace Unformat

open Scan (TakesText Stands Suited)
open Text (Utf8.decode Utf8.encode)

/-- Every rule of the plan is the default rule of a type that has a default pattern. -/
def Plan.OfDefaults (plan : Plan) : Prop :=
  ∀ rule ∈ plan.rules, ∃ type ∈ ScanType.withDefault, rule = .default type

theorem Plan.OfTokens.ofDefaults {plan : Plan} (ofTokens : plan.OfTokens) : plan.OfDefaults := by
  intro rule member
  obtain ⟨type, token, rfl⟩ := ofTokens rule member
  exact ⟨type, ScanType.mem_withDefault_of_mem_tokens token, rfl⟩

/-- The matcher of a rule runs a plain pattern that matches some text, no line feed, and no carriage
return unless it matches single characters. -/
structure RunsDefault (rule : Rule) (matcher : Matcher) (pattern : Pattern) : Prop where
  runs : matcher = pattern.run
  plain : pattern.plain
  solid : pattern.blank = false
  refuses : pattern.refuses '\n'
  single : rule = .default .character ∧ pattern = .one .notLineFeed ∨
    rule ≠ .default .character ∧ pattern.refuses '\r'

/-- The matchers of a compiled plan run default patterns. -/
def CompiledPlan.OfDefaults (compiled : CompiledPlan) : Prop :=
  ∀ (index : Nat) (rule : Rule), compiled.plan.rules[index]? = some rule →
    ∃ pattern, RunsDefault rule (compiled.matcher index) pattern

theorem Plan.OfDefaults.compile {plan : Plan} (ofDefaults : plan.OfDefaults) :
    ∃ compiled, plan.compile = .ok compiled ∧ compiled.plan = plan ∧ compiled.OfDefaults := by
  have read : ∀ rule ∈ plan.rules, ∃ pattern, Plan.ReadsAs rule pattern ∧
      RunsDefault rule pattern.run pattern := by
    intro rule member
    obtain ⟨type, given, rfl⟩ := ofDefaults rule member
    obtain ⟨source, pattern, found, reads, plain, solid, refuses, single⟩ :=
      ScanType.exists_refusing_of_mem_withDefault given
    refine ⟨pattern, ?_, rfl, plain, solid, refuses, ?_⟩
    · rw [Plan.ReadsAs, Rule.pattern?, found]
      exact reads
    · rcases single with ⟨rfl, same⟩ | ⟨other, refuses, _⟩
      · exact .inl ⟨rfl, same⟩
      · exact .inr ⟨fun same => other (Rule.default.inj same), refuses⟩
  obtain ⟨compiled, compiles, same, matchers⟩ := Plan.compile_of_readsAs fun rule member =>
    (read rule member).imp fun _ both => both.1
  refine ⟨compiled, compiles, same, ?_⟩
  intro index rule found
  rw [same] at found
  obtain ⟨pattern, reads, runs⟩ := read rule (List.mem_of_getElem? found)
  exact ⟨pattern, matchers index rule pattern found reads ▸ runs⟩

namespace RunsDefault

variable {rule : Rule} {matcher : Matcher} {pattern : Pattern}

theorem takes (runs : RunsDefault rule matcher pattern) : TakesText matcher := by
  intro text length matched
  rw [runs.runs] at matched
  exact Pattern.bounds_of_run_eq_matched runs.plain runs.solid matched

/-- The end of a line behind a text does not change what is matched, unless it is a carriage return
and a line feed, nothing is before it, and a single character is wanted. -/
theorem matched_append_iff (runs : RunsDefault rule matcher pattern) {ending : LineEnding}
    {text : List Char}
    (blind : rule ≠ .default .character ∨ ending ≠ .both ∨ text ≠ []) (length : Nat) :
    matcher (text ++ ending.text) = .matched length ↔ matcher text = .matched length := by
  rw [runs.runs]
  cases ending with
  | none => rw [LineEnding.text, List.append_nil]
  | lineFeed => exact Pattern.run_append_of_refuses runs.refuses text length
  | both =>
      rcases runs.single with ⟨single, rfl⟩ | ⟨_, refuses⟩
      · have solid : text ≠ [] := by simpa [single] using blind
        obtain ⟨c, rest, rfl⟩ := List.exists_cons_of_ne_nil solid
        rw [List.cons_append, Pattern.run_one_cons, Pattern.run_one_cons]
      · exact Pattern.run_append_of_refuses refuses text length

end RunsDefault

namespace CompiledPlan

variable {compiled : CompiledPlan}

theorem OfDefaults.takes (ofDefaults : compiled.OfDefaults) :
    ∀ index < compiled.plan.rules.length, TakesText (compiled.matcher index) := by
  intro index bound
  obtain ⟨pattern, runs⟩ := ofDefaults index _ (List.getElem?_eq_getElem bound)
  exact runs.takes

end CompiledPlan

/-! ## Segments at the end of a line -/

/-- What a segment misses where there is nothing for it, if it asks for anything. -/
def Plan.misses (plan : Plan) : PlanSegment → Option ScanFault
  | .literal literal => if literal = "" then none else some (.literalMismatch literal)
  | .capture _ index =>
      plan.rules[index]?.map fun rule => .patternMismatch (rule.pattern?.getD "")

/-- A segment cannot take an ending of a line, or the beginning of it. -/
def Plan.PassesOver (plan : Plan) (ending : LineEnding) : PlanSegment → Prop
  | .literal literal => literal ≠ "" → ¬ literal.toList <+: ending.text
  | .capture _ index => ending = .both → plan.rules[index]? ≠ some (.default .character)

theorem Plan.passesOver_none (plan : Plan) (segment : PlanSegment) :
    plan.PassesOver .none segment := by
  cases segment with
  | literal literal => simp [PassesOver, LineEnding.text]
  | capture slot index => nofun

namespace Whole

variable {ending : LineEnding} {stream : Stream}

theorem decode_at_ending (standing : stream.remaining = ending.bytes) :
    Utf8.decode stream.remaining = (ending.text, .empty) := by
  rw [standing, LineEnding.bytes, Text.Utf8.decode_encode]

theorem matchRemaining_at_ending {literal : String} (absent : ¬ literal.toList <+: ending.text)
    (standing : stream.remaining = ending.bytes) :
    matchRemaining literal literal.toList stream = .error (.of (.literalMismatch literal)) := by
  apply matchRemaining_of_mismatch
  · rwa [decode_at_ending standing]
  · simp [decode_at_ending standing]

theorem matchPattern_at_ending {rule : Rule} {matcher : Matcher} {pattern : Pattern}
    (runs : RunsDefault rule matcher pattern)
    (passes : ending = .both → rule ≠ .default .character)
    (standing : stream.remaining = ending.bytes) (source : String) :
    matchPattern matcher source stream = .error (.of (.patternMismatch source)) := by
  have blind : rule ≠ .default .character ∨ ending ≠ .both ∨ ([] : List Char) ≠ [] := by
    by_cases both : ending = .both
    · exact .inl (passes both)
    · exact .inr (.inl both)
  have readable (offending : List UInt8) :
      Utf8.decode stream.remaining ≠ ([], .malformed offending) := by
    simp [decode_at_ending standing]
  rw [matchPattern_of_readable readable, decode_at_ending standing]
  cases verdict : matcher ending.text with
  | matched length =>
      -- Then the matcher would match as much where there is no text at all.
      have nothing := (runs.matched_append_iff blind length).mp verdict
      obtain ⟨positive, within⟩ := runs.takes [] length nothing
      exact absurd within (Nat.not_le_of_gt positive)
  | starved => rfl
  | failed => rfl

/-- Where an ending that a segment passes over is all that is left, the segment takes nothing. -/
theorem runSegment_at_ending {compiled : CompiledPlan} (ofDefaults : compiled.OfDefaults)
    {segment : PlanSegment} (passes : compiled.plan.PassesOver ending segment)
    (standing : stream.remaining = ending.bytes) :
    runSegment compiled segment stream =
      match compiled.plan.misses segment with
      | none => .ok ([], stream)
      | some fault => .error (.of fault) := by
  cases segment with
  | literal literal =>
      by_cases empty : literal = ""
      · subst empty
        simp [Plan.misses, runSegment, bind, matchRemaining, behind_nil, value]
      · simp only [Plan.misses, if_neg empty, runSegment, bind,
          matchRemaining_at_ending (passes empty) standing]
  | capture slot index =>
      rw [Plan.misses, runSegment]
      cases found : compiled.plan.rules[index]? with
      | none => rfl
      | some rule =>
          obtain ⟨pattern, runs⟩ := ofDefaults index rule found
          have other : ending = .both → rule ≠ .default .character := by
            rintro both rfl
            exact passes both found
          simp only [bind, matchPattern_at_ending runs other standing, Option.map_some]

end Whole

/-- A plan of token types compiles to matchers that suit lines in any chunks. -/
theorem Plan.OfTokens.suited {plan : Plan} (ofTokens : plan.OfTokens) :
    ∃ compiled, plan.compile = .ok compiled ∧ compiled.plan = plan ∧ compiled.OfDefaults ∧
      ∀ chunks, Suited compiled chunks := by
  obtain ⟨compiled, compiles, same, ofDefaults⟩ := ofTokens.ofDefaults.compile
  obtain ⟨_, alsoCompiles, _, conclusive, _⟩ := ofTokens.compile
  obtain rfl := Except.ok.inj (compiles.symm.trans alsoCompiles)
  exact ⟨compiled, compiles, same, ofDefaults, fun chunks =>
    ⟨ofDefaults.takes, .inl fun index bound => (conclusive index bound).stands⟩⟩

end Unformat
