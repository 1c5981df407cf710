import Unformat.Diagnostic.Basic
import Unformat.Text.Quoted

/-!
# What may be wrong with a plan

A template and a rule list may not fit together in several ways at once; they are reported
together. A pattern that cannot be read is found only when the patterns of a plan are compiled.
-/

namespace Unformat

open Text (Quoted.quote)

/-- A way in which the captures of a template and the rules do not fit together. -/
inductive BindingFault where
  /-- Captures refer to positional rules that do not exist. -/
  | invalidPositional (indices : List Nat) (available : Nat)
  /-- A capture refers to a name that no rule has. -/
  | unknownName (name : String)
  /-- A capture takes a slot that an earlier one has taken. -/
  | duplicateSlot (slot segment first : Nat)
  /-- Slots are left out. -/
  | missingSlots (slots : List Nat) (total : Nat)
  /-- A rule has a name that an earlier one has. -/
  | duplicateName (name : String) (index first : Nat)
  /-- No capture refers to a rule. -/
  | unusedRule (index : Nat)
  /-- A capture with a slot refers to a rule that yields nothing. -/
  | untypedCapture (segment rule : Nat)
  /-- A default rule names a type without a default pattern. -/
  | missingPattern (typeName : String) (rule : Nat)
  deriving Repr, DecidableEq

def enumerate : List Nat → String
  | [] => ""
  | [a] => toString a
  | [a, b] => s!"{a} and {b}"
  | numbers =>
      let texts := numbers.map toString
      ", ".intercalate texts.dropLast ++ ", and " ++ texts.getLastD ""

def plural (one many : String) (count : Nat) : String := if count = 1 then one else many

instance : Fault BindingFault where
  code
    | .invalidPositional .. => .invalidPositionalReference
    | .unknownName _ => .unknownNamedReference
    | .duplicateSlot .. => .duplicateOutput
    | .missingSlots .. => .missingOutput
    | .duplicateName .. => .duplicateRuleName
    | .unusedRule _ => .unusedRule
    | .untypedCapture .. => .untypedCapture
    | .missingPattern .. => .missingDefaultPattern
  message
    | .invalidPositional indices available =>
        let noun := plural "argument" "arguments" indices.length
        let provided := if available = 1 then "only 1 argument was provided"
          else s!"only {available} arguments were provided"
        s!"invalid reference to positional {noun} {enumerate indices} ({provided})"
    | .unknownName name => s!"there is no argument named `{name}`"
    | .duplicateSlot slot _ _ => s!"duplicate reference to capture position {slot}"
    | .missingSlots slots total =>
        let noun := plural "capture" "captures" slots.length
        let specified := if total = 1 then "there was 1 capture spec"
          else s!"there were {total} capture specs"
        s!"missing {noun} {enumerate slots} ({specified})"
    | .duplicateName name _ _ => s!"duplicate argument name `{name}`"
    | .unusedRule index => s!"unused argument: {index}"
    | .untypedCapture segment rule =>
        s!"untyped argument {rule} cannot be used in a capture (segment {segment})"
    | .missingPattern typeName rule =>
        s!"type `{typeName}` has no default pattern (argument {rule})"
  notes
    | .duplicateSlot _ _ first => [⟨s!"first defined here: capture at segment {first}", "note"⟩]
    | .duplicateName _ _ first => [⟨s!"first defined here: argument {first}", "note"⟩]
    | _ => []
  hint
    | .untypedCapture .. =>
        "try specifying an output type for the argument or using a non-capturing specifier"
    | .missingPattern typeName _ => s!"write the argument as `\"<pattern>\" as {typeName}`"
    | _ => ""

/-- All binding faults of a template and a rule list. -/
structure BindingReport where
  problems : List (Diagnostic BindingFault) := []
  deriving Repr, DecidableEq

namespace BindingReport

def add (report : BindingReport) (fault : BindingFault) : BindingReport :=
  ⟨report.problems ++ [.of fault]⟩

def addAll (report : BindingReport) (faults : List BindingFault) : BindingReport :=
  ⟨report.problems ++ faults.map .of⟩

/-- One line for each problem, with its code. -/
def lines (report : BindingReport) : List String :=
  report.problems.map fun problem => s!"  [{problem.code.text}] {problem.text}"

end BindingReport

instance : Fault BindingReport where
  code _ := .bindingFailed
  message report :=
    let count := report.problems.length
    let noun := plural "binding error" "binding errors" count
    let header := s!"{count} {noun}"
    if report.problems = [] then header
    else header ++ ":\n" ++ "\n".intercalate report.lines
  summary report := s!"{report.problems.length} binding error(s)"
  details report := [("errors", .array (report.problems.map Diagnostic.toJson))]

/-- The pattern of a rule cannot be read. -/
structure PatternFault where
  pattern : String
  rule : Nat
  reason : String := ""
  deriving Repr, DecidableEq

instance : Fault PatternFault where
  code _ := .invalidPattern
  message fault :=
    let message := s!"invalid pattern {Quoted.quote fault.pattern} for argument {fault.rule}"
    if fault.reason = "" then message else message ++ ": " ++ fault.reason

end Unformat
