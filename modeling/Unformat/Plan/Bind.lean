import Unformat.Plan.Basic
import Unformat.Plan.Fault

/-!
# Binding captures to rules

Captures that leave the slot to the order take the slots 0, 1, 2, …, and captures that leave the
rule to the order take the positional rules 0, 1, 2, …, independently of each other. A template and
a rule list fit together when every reference leads to a rule, the slots are just those below their
number, names are unique, every rule is used, captures with a slot refer to rules that yield
something, and default rules have a pattern. All that does not fit is reported at once.
-/

namespace Unformat

namespace Binding

/-- The next slot and the next positional rule that are taken by order. -/
structure Counters where
  slot : Nat := 0
  rule : Nat := 0
  deriving Repr, DecidableEq

/-- What a segment becomes: a part of the plan at the place of the segment, or nothing when its
capture refers to an unknown name. -/
inductive Resolution where
  | resolved (index : Nat) (segment : PlanSegment)
  | unknownName (name : String)
  deriving Repr, DecidableEq

/-- The slot of a capture, and the counters after it. -/
def slotOf (counters : Counters) : SlotRef → Option Nat × Counters
  | .discard => (none, counters)
  | .number index => (some index, counters)
  | .next => (some counters.slot, { counters with slot := counters.slot + 1 })

/-- The first rule of a name, counted through all rules. -/
def namedRule? (rules : RuleList) (name : String) : Option Nat :=
  (rules.names.idxOf? name).map (rules.positional.length + ·)

/-- The number of the rule of a capture, and the counters after it. -/
def ruleOf (rules : RuleList) (counters : Counters) : RuleRef → Except String Nat × Counters
  | .next => (.ok counters.rule, { counters with rule := counters.rule + 1 })
  | .number index => (.ok index, counters)
  | .named name =>
      match namedRule? rules name with
      | some index => (.ok index, counters)
      | none => (.error name, counters)

/-- Resolve the segments from the `index`-th on. -/
def resolve (rules : RuleList) (index : Nat) (counters : Counters) :
    List Segment → List Resolution
  | [] => []
  | .literal text :: rest =>
      .resolved index (.literal text) :: resolve rules (index + 1) counters rest
  | .capture capture _ :: rest =>
      let (slot, counters) := slotOf counters capture.slot
      match ruleOf rules counters capture.rule with
      | (.ok rule, counters) =>
          .resolved index (.capture slot rule) :: resolve rules (index + 1) counters rest
      | (.error name, counters) =>
          .unknownName name :: resolve rules (index + 1) counters rest

/-- The numbers of positional rules that captures refer to by number or by order, in order. -/
def positionalReferences (counters : Counters) : List Segment → List Nat
  | [] => []
  | .literal _ :: rest => positionalReferences counters rest
  | .capture capture _ :: rest =>
      match capture.rule with
      | .next =>
          counters.rule :: positionalReferences { counters with rule := counters.rule + 1 } rest
      | .number index => index :: positionalReferences counters rest
      | .named _ => positionalReferences counters rest

/-- A capture that was resolved: the place of its segment, its slot and its rule. -/
structure BoundCapture where
  segment : Nat
  slot : Option Nat
  rule : Nat
  deriving Repr, DecidableEq

/-- The captures that were resolved. -/
def boundCaptures (resolutions : List Resolution) : List BoundCapture :=
  resolutions.filterMap fun
    | .resolved index (.capture slot rule) => some ⟨index, slot, rule⟩
    | _ => none

/-- The slots that captures take, each with the place of its capture, by increasing slot. -/
def takenSlots (captures : List BoundCapture) : List (Nat × Nat) :=
  (captures.filterMap fun capture => capture.slot.map fun slot => (slot, capture.segment)).mergeSort
    fun a b => decide (a.1 ≤ b.1)

/-- The entries whose key an earlier entry has, each with the value of the first entry of the
key. -/
def repeated {α : Type} [DecidableEq α] (entries : List (α × Nat)) : List (α × Nat × Nat) :=
  entries.filterMap fun (key, value) =>
    match entries.lookup key with
    | some first => if first = value then none else some (key, value, first)
    | none => none

/-- The slots below the number of different slots that no capture takes. -/
def missingSlots (slots : List Nat) : List Nat :=
  (List.range slots.eraseDups.length).filter fun slot => !slots.contains slot

/-- Unknown names, in order. -/
def nameFaults (resolutions : List Resolution) : List BindingFault :=
  resolutions.filterMap fun
    | .unknownName name => some (.unknownName name)
    | _ => none

/-- One fault for all references to positional rules that do not exist. -/
def positionFaults (rules : RuleList) (segments : List Segment) : List BindingFault :=
  match (positionalReferences {} segments).filter (rules.positional.length ≤ ·) with
  | [] => []
  | indices => [.invalidPositional indices rules.positional.length]

/-- Slots that are taken twice, and slots that are left out. -/
def slotFaults (captures : List BoundCapture) : List BindingFault :=
  let taken := takenSlots captures
  let slots := taken.map Prod.fst
  (repeated taken).map (fun (slot, segment, first) => .duplicateSlot slot segment first) ++
    match missingSlots slots with
    | [] => []
    | missing => [.missingSlots missing slots.eraseDups.length]

def duplicateNames (rules : RuleList) : List BindingFault :=
  let numbered := rules.names.zipIdx rules.positional.length
  let sorted := numbered.mergeSort fun a b => decide (a.1 ≤ b.1)
  (repeated sorted).map fun (name, index, first) => .duplicateName name index first

def unusedRules (captures : List BoundCapture) (rules : List Rule) : List BindingFault :=
  ((List.range rules.length).filter fun index =>
    !captures.any fun capture => capture.rule = index).map .unusedRule

/-- Captures with a slot whose rule yields nothing. -/
def untypedCaptures (captures : List BoundCapture) (rules : List Rule) : List BindingFault :=
  captures.filterMap fun capture =>
    if capture.slot.isSome ∧ (rules[capture.rule]?).any Rule.isNull then
      some (.untypedCapture capture.segment capture.rule)
    else none

/-- Default rules without a pattern. -/
def missingPatterns (rules : List Rule) : List BindingFault :=
  rules.zipIdx.filterMap fun
    | (.default type, index) =>
        if type.hasDefault then none else some (.missingPattern type.name index)
    | _ => none

/-- All that does not fit together, in the order of the report. -/
def faults (segments : List Segment) (rules : RuleList) : List BindingFault :=
  let resolutions := resolve rules 0 {} segments
  let captures := boundCaptures resolutions
  nameFaults resolutions ++ positionFaults rules segments ++ slotFaults captures ++
    duplicateNames rules ++ unusedRules captures rules.flattened ++
    untypedCaptures captures rules.flattened ++ missingPatterns rules.flattened

/-- The parts of the plan. -/
def planSegments (resolutions : List Resolution) : List PlanSegment :=
  resolutions.filterMap fun
    | .resolved _ segment => some segment
    | .unknownName _ => none

end Binding

/-- The plan of a template and a rule list that fit together, or the report of all that does
not. -/
def Plan.bind (segments : List Segment) (rules : RuleList) (template : String := "") :
    Except BindingReport Plan :=
  match Binding.faults segments rules with
  | [] =>
      let resolutions := Binding.resolve rules 0 {} segments
      let captures := Binding.boundCaptures resolutions
      .ok {
        segments := Binding.planSegments resolutions
        rules := rules.flattened
        arity := ((Binding.takenSlots captures).map Prod.fst).eraseDups.length
        template }
  | faults => .error (BindingReport.addAll {} faults)

end Unformat
