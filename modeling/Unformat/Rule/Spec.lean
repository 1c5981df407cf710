import Unformat.Rule.Basic

/-!
# Rules from values of the calling program

A calling program states rules by values: the name of a type or a kind of value, a tuple of a
pattern and a type, a rule, or an argument with a name. Any other value is a mistake, which the
complaint shows.
-/

namespace Unformat

open Text (Quoted.quote)

/-- A value that may state a rule. -/
inductive Spec where
  | none
  | bool (value : Bool)
  | int (value : Int)
  | real (value : Binary64)
  | text (value : String)
  | kind (host : HostKind)
  | tuple (items : List Spec)
  | list (items : List Spec)
  | type (value : ScanType)
  | rule (value : Rule)
  | argument (value : Argument)

namespace Spec

mutual

/-- A value as complaints show it. -/
def shown : Spec → String
  | .none => "None"
  | .bool value => if value then "True" else "False"
  | .int value => toString value
  | .real value => value.text
  | .text value => Quoted.quote value
  | .kind host => host.shown
  | .tuple [item] => "(" ++ item.shown ++ ",)"
  | .tuple items => "(" ++ ", ".intercalate (shownAll items) ++ ")"
  | .list items => "[" ++ ", ".intercalate (shownAll items) ++ "]"
  | .type value => value.shown
  | .rule value => value.shown
  | .argument value =>
      let name := match value.name with
        | some name => Quoted.quote name
        | Option.none => "None"
      s!"Arg(name={name}, rule={value.rule.shown})"

def shownAll : List Spec → List String
  | [] => []
  | item :: items => item.shown :: shownAll items

end

def kindName : Spec → String
  | .none => "NoneType"
  | .bool _ => "bool"
  | .int _ => "int"
  | .real _ => "float"
  | .text _ => "str"
  | .kind _ => "type"
  | .tuple _ => "tuple"
  | .list _ => "list"
  | .type _ => "ScanType"
  | .rule _ => "Rule"
  | .argument _ => "Arg"

/-- Whether a value stands for "no value" where a type is expected. -/
def isMarker : Spec → Bool
  | .none => true
  | .text value => value == "_"
  | _ => false

end Spec

/-- The type that a value designates. -/
def Registry.resolve (registry : Registry) : Spec → Except ArgumentFault ScanType
  | .type value => .ok value
  | .text name =>
      match registry.find? (.name name) with
      | some type => .ok type
      | none => .error (.unknownType name)
  | .kind host =>
      match registry.find? (.kind host) with
      | some type => .ok type
      | none => .error (.unknownType host.name)
  | other => .error (.unknownType other.shown)

namespace Rule

/-- The default rule of the type that a value designates. -/
def ofType (registry : Registry) (type : Spec) : Except ArgumentFault Rule :=
  (registry.resolve type).map .default

/-- The null rule of a pattern. -/
def ofPattern (pattern : Spec) : Except ArgumentFault Rule :=
  match pattern with
  | .text pattern => .ok (.null pattern)
  | other => .error (.patternNotText other.kindName)

/-- The rule of a pattern and a type; without a type it is a null rule. -/
def ofPair (registry : Registry) (pattern type : Spec) : Except ArgumentFault Rule :=
  match pattern with
  | .text pattern =>
      if type.isMarker then .ok (.null pattern) else (registry.resolve type).map (.custom pattern)
  | other => .error (.patternNotText other.kindName)

def ofSpec (registry : Registry) : Spec → Except ArgumentFault Rule
  | .rule value => .ok value
  | .tuple [pattern, type] => ofPair registry pattern type
  | .tuple [pattern] => ofPattern pattern
  | .tuple items => .error (.tupleSize items.length)
  | spec => ofType registry spec

end Rule

/-- The argument that a value states; it has a name only if the value is an argument. -/
def Argument.ofSpec (registry : Registry) : Spec → Except ArgumentFault Argument
  | .argument value => .ok value
  | spec => (Rule.ofSpec registry spec).map fun rule => ⟨none, rule⟩

/-- The rule list that values state: some in order, then some by name. Every value is read before
the order is looked at. -/
def RuleList.ofSpecs (registry : Registry) (specs : List Spec) (named : List (String × Spec)) :
    Except ArgumentFault RuleList := do
  let front ← specs.mapM (Argument.ofSpec registry)
  let back ← named.mapM fun (name, spec) =>
    (Rule.ofSpec registry spec).map fun rule => (⟨some name, rule⟩ : Argument)
  ofArguments (front ++ back)

end Unformat
