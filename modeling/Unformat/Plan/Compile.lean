import Unformat.Pattern.Compile
import Unformat.Plan.Basic
import Unformat.Plan.Fault

/-!
# Compiling the patterns of a plan

A compiled plan has a matcher for each rule. A scan needs no more of a pattern than its matcher:
what it makes of the text at hand. Which patterns can be read, and as which matchers, is up to an
engine. The first pattern that cannot be read is the one reported.
-/

namespace Unformat

/-- What a pattern makes of a text. -/
abbrev Matcher := List Char → Pattern.Verdict

/-- What reads patterns. -/
class PatternEngine where
  /-- The matcher of a pattern, or why the pattern cannot be read. -/
  read : String → Except String Matcher

/-- The engine of the patterns of this library. -/
instance PatternEngine.builtin : PatternEngine where
  read source :=
    match Pattern.compile source with
    | .ok pattern => .ok pattern.run
    | .error fault => .error fault.message

/-- A plan with the matchers of its rules. -/
structure CompiledPlan where
  plan : Plan
  matchers : List Matcher

namespace CompiledPlan

/-- The matcher of a rule; a rule that does not exist matches nothing. -/
def matcher (compiled : CompiledPlan) (rule : Nat) : Matcher :=
  (compiled.matchers[rule]?).getD fun _ => .failed

end CompiledPlan

namespace Plan

variable [PatternEngine]

/-- The matcher of a rule, which is the `index`-th. -/
def compileRule (index : Nat) (rule : Rule) : Except PatternFault Matcher :=
  let source := rule.pattern?.getD ""
  (PatternEngine.read source).mapError fun reason => ⟨source, index, reason⟩

/-- The matchers of the rules from the `index`-th on. -/
def compileRules (index : Nat) : List Rule → Except PatternFault (List Matcher)
  | [] => .ok []
  | rule :: rest => do
      let matcher ← compileRule index rule
      return matcher :: (← compileRules (index + 1) rest)

/-- The plan with its matchers, or the first pattern that cannot be read. -/
def compile (plan : Plan) : Except PatternFault CompiledPlan :=
  (compileRules 0 plan.rules).map fun matchers => ⟨plan, matchers⟩

end Plan

end Unformat
