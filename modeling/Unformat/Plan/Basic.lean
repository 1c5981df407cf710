import Unformat.Rule.Basic
import Unformat.Template.Format

/-!
# Plans

A plan is a template whose captures have been bound to rules: every capture knows its slot and the
number of its rule. The canonical template of a plan spells both out.
-/

namespace Unformat

open Text (Quoted.quote)

/-- A part of a plan. A capture without a slot has to match, but its value is dropped. -/
inductive PlanSegment where
  | literal (text : String)
  | capture (slot : Option Nat) (rule : Nat)
  deriving Repr, DecidableEq

structure Plan where
  segments : List PlanSegment
  rules : List Rule
  arity : Nat
  template : String := ""
  deriving Repr

def slotText : Option Nat → String
  | none => "_"
  | some slot => toString slot

def PlanSegment.text : PlanSegment → String
  | .literal text => Template.escape text
  | .capture slot rule => "\x7b" ++ slotText slot ++ ":" ++ toString rule ++ "\x7d"

namespace Plan

/-- The slot and the rule of each capture. -/
def captures (plan : Plan) : List (Option Nat × Nat) :=
  plan.segments.filterMap fun
    | .literal _ => none
    | .capture slot rule => some (slot, rule)

/-- The name of the type that a slot yields: that of the last capture with the slot. -/
def slotType? (plan : Plan) (slot : Nat) : Option String := do
  let (_, rule) ← plan.captures.reverse.find? fun capture => capture.1 = some slot
  let rule ← plan.rules[rule]?
  return rule.typeName

/-- The names of the types that the slots yield. -/
def outputTypes (plan : Plan) : List String :=
  (List.range plan.arity).filterMap plan.slotType?

/-- The template with every slot and rule number spelled out. -/
def canonicalTemplate (plan : Plan) : String :=
  String.join (plan.segments.map PlanSegment.text)

def describeSegment (plan : Plan) : PlanSegment → String
  | .literal text => s!"  literal  {Quoted.quote text}"
  | .capture slot index =>
      let pattern := match plan.rules[index]?.bind Rule.pattern? with
        | some pattern => Quoted.quote pattern
        | none => "None"
      let type := match plan.rules[index]? with
        | some rule => rule.typeName
        | none => "_"
      s!"  capture  slot={slotText slot} rule={index} pattern={pattern} type={type}"

/-- Several lines about the plan. -/
def describe (plan : Plan) : String :=
  "\n".intercalate <|
    s!"plan for {Quoted.quote plan.template} (arity {plan.arity})" ::
      plan.segments.map plan.describeSegment

end Plan

end Unformat
