import Mathlib.Data.List.Forall2
import Unformat.Plan.Compile
import Unformat.Template.Parse

/-!
# Matchers of a plan

A plan compiles exactly when the engine can read every pattern of its rules, and each rule then has
the matcher that its pattern is read as.  With the engine of this library a matcher runs a pattern.
-/

namespace Unformat.Plan

/-! ## Any engine -/

section Engine

variable [PatternEngine]

/-- The engine reads the pattern of a rule as the matcher. -/
def MatchedBy (rule : Rule) (matcher : Matcher) : Prop :=
  PatternEngine.read (rule.pattern?.getD "") = .ok matcher

/-- The engine cannot read the pattern of a rule. -/
def Unreadable (rule : Rule) : Prop :=
  ∃ reason, PatternEngine.read (rule.pattern?.getD "") = .error reason

theorem compileRule_eq_ok_iff {index : Nat} {rule : Rule} {matcher : Matcher} :
    compileRule index rule = .ok matcher ↔ MatchedBy rule matcher := by
  rw [compileRule, MatchedBy]
  cases PatternEngine.read (rule.pattern?.getD "") <;> simp [Except.mapError]

/-- Rules are compiled to the matchers of their patterns, one for each. -/
theorem compileRules_eq_ok_iff {index : Nat} {rules : List Rule} {matchers : List Matcher} :
    compileRules index rules = .ok matchers ↔ List.Forall₂ MatchedBy rules matchers := by
  induction rules generalizing index matchers with
  | nil =>
      rw [List.forall₂_nil_left_iff]
      exact ⟨fun made => (Except.ok.inj made).symm, fun none => by rw [none]; rfl⟩
  | cons rule rest ih =>
      rw [List.forall₂_cons_left_iff]
      constructor
      · intro made
        obtain ⟨first, firstMade, more⟩ := Template.exists_of_bind_eq_ok made
        obtain ⟨others, othersMade, done⟩ := Template.exists_of_bind_eq_ok more
        cases done
        exact ⟨first, others, compileRule_eq_ok_iff.mp firstMade, ih.mp othersMade, rfl⟩
      · rintro ⟨first, others, matched, later, rfl⟩
        rw [compileRules, compileRule_eq_ok_iff.mpr matched, ih.mpr later]
        rfl

theorem compileRules_of_compile {plan : Plan} {compiled : CompiledPlan}
    (compiles : plan.compile = .ok compiled) :
    List.Forall₂ MatchedBy plan.rules compiled.matchers ∧ compiled.plan = plan := by
  cases made : compileRules 0 plan.rules with
  | error fault =>
      rw [compile, made] at compiles
      cases compiles
  | ok matchers =>
      rw [compile, made] at compiles
      cases compiles
      exact ⟨compileRules_eq_ok_iff.mp made, rfl⟩

/-- The matcher of a rule of a compiled plan is that of the pattern of the rule. -/
theorem matcher_of_matchedBy {plan : Plan} {compiled : CompiledPlan}
    (compiles : plan.compile = .ok compiled) {index : Nat} {rule : Rule} {matcher : Matcher}
    (found : plan.rules[index]? = some rule) (matched : MatchedBy rule matcher) :
    compiled.matcher index = matcher := by
  obtain ⟨length, each⟩ := List.forall₂_iff_get.mp (compileRules_of_compile compiles).1
  obtain ⟨bound, rfl⟩ := List.getElem?_eq_some_iff.mp found
  have inside : index < compiled.matchers.length := length ▸ bound
  have here : MatchedBy plan.rules[index] compiled.matchers[index] := each index bound inside
  rw [CompiledPlan.matcher, List.getElem?_eq_getElem inside, Option.getD_some]
  exact Except.ok.inj (here.symm.trans matched)

/-- A plan whose patterns can all be read compiles. -/
theorem exists_compiled {plan : Plan}
    (readable : ∀ rule ∈ plan.rules, ∃ matcher, MatchedBy rule matcher) :
    ∃ compiled, plan.compile = .ok compiled ∧ compiled.plan = plan := by
  have made : ∀ rules : List Rule, (∀ rule ∈ rules, ∃ matcher, MatchedBy rule matcher) →
      ∃ matchers, List.Forall₂ MatchedBy rules matchers := by
    intro rules each
    induction rules with
    | nil => exact ⟨[], .nil⟩
    | cons rule rest ih =>
        obtain ⟨⟨matcher, matched⟩, behind⟩ := List.forall_mem_cons.mp each
        obtain ⟨matchers, later⟩ := ih behind
        exact ⟨matcher :: matchers, .cons matched later⟩
  obtain ⟨matchers, matched⟩ := made plan.rules readable
  exact ⟨⟨plan, matchers⟩, by rw [compile, compileRules_eq_ok_iff.mpr matched]; rfl, rfl⟩

/-- A plan with a pattern that cannot be read does not compile. -/
theorem exists_fault_of_unreadable {plan : Plan} {rule : Rule} (member : rule ∈ plan.rules)
    (unreadable : Unreadable rule) : ∃ fault, plan.compile = .error fault := by
  cases compiles : plan.compile with
  | error fault => exact ⟨fault, rfl⟩
  | ok compiled =>
      obtain ⟨reason, refused⟩ := unreadable
      obtain ⟨length, each⟩ := List.forall₂_iff_get.mp (compileRules_of_compile compiles).1
      obtain ⟨index, bound, rfl⟩ := List.getElem_of_mem member
      have inside : index < compiled.matchers.length := length ▸ bound
      have here : MatchedBy plan.rules[index] compiled.matchers[index] := each index bound inside
      cases refused.symm.trans here

end Engine

/-! ## The engine of this library -/

/-- The pattern of a rule reads as `pattern`. -/
def ReadsAs (rule : Rule) (pattern : Pattern) : Prop :=
  Pattern.compile (rule.pattern?.getD "") = .ok pattern

theorem ReadsAs.matchedBy {rule : Rule} {pattern : Pattern} (reads : ReadsAs rule pattern) :
    MatchedBy rule pattern.run := by
  rw [ReadsAs] at reads
  rw [MatchedBy]
  simp only [PatternEngine.read, reads]

/-- The matcher of a rule of a compiled plan runs the pattern of the rule. -/
theorem matcher_of_compile {plan : Plan} {compiled : CompiledPlan}
    (compiles : plan.compile = .ok compiled) {index : Nat} {rule : Rule} {pattern : Pattern}
    (found : plan.rules[index]? = some rule) (reads : ReadsAs rule pattern) :
    compiled.matcher index = pattern.run :=
  matcher_of_matchedBy compiles found reads.matchedBy

/-- A plan of readable patterns compiles, and its matchers run them. -/
theorem compile_of_readsAs {plan : Plan}
    (readable : ∀ rule ∈ plan.rules, ∃ pattern, ReadsAs rule pattern) :
    ∃ compiled, plan.compile = .ok compiled ∧ compiled.plan = plan ∧
      ∀ (index : Nat) (rule : Rule) (pattern : Pattern), plan.rules[index]? = some rule →
        ReadsAs rule pattern → compiled.matcher index = pattern.run := by
  obtain ⟨compiled, compiles, same⟩ := exists_compiled fun rule member =>
    (readable rule member).imp' Pattern.run fun _ => ReadsAs.matchedBy
  exact ⟨compiled, compiles, same, fun _ _ _ found => matcher_of_compile compiles found⟩

end Unformat.Plan
