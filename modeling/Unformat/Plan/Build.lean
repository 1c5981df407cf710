import Unformat.Failure
import Unformat.Plan.Bind
import Unformat.Rule.ListText
import Unformat.Rule.Spec

/-!
# Building plans
-/

namespace Unformat

open Text (CharacterTable)

def Template.read (template : String) : Except Failure (List Segment) :=
  (Template.parse template).mapError .ofTemplate

namespace RuleList

def read [CharacterTable] (registry : Registry) (text : String) : Except Failure RuleList :=
  (parse registry text).mapError .ofArgument

def collect (registry : Registry) (specs : List Spec) (named : List (String × Spec)) :
    Except Failure RuleList :=
  (ofSpecs registry specs named).mapError fun fault => .ofFault (.argument fault)

end RuleList

namespace Plan

def link (segments : List Segment) (rules : RuleList) (template : String) : Except Failure Plan :=
  (bind segments rules template).mapError fun report => .ofFault (.bindings report)

def build (template : String) (rules : RuleList) : Except Failure Plan := do
  let segments ← Template.read template
  link segments rules template

/-- The plan with its matchers. -/
def ready [PatternEngine] (plan : Plan) : Except Failure CompiledPlan :=
  plan.compile.mapError fun fault => .ofFault (.pattern fault)

end Plan

end Unformat
