import Unformat.Rule.Fault
import Unformat.ScanType.Registry

/-!
# Rules

A rule says what a capture matches and what it yields. A default rule names a type and takes the
pattern from it; a custom rule has a pattern of its own; a null rule has a pattern and yields
nothing. A rule list has its positional rules first and its named rules after them.
-/

namespace Unformat

open Text (Quoted.quote)

/-- What a capture matches and yields. -/
inductive Rule where
  | default (type : ScanType)
  | custom (pattern : String) (type : ScanType)
  | null (pattern : String)
  deriving Repr, BEq

namespace Rule

/-- The pattern that the rule itself gives. -/
def ownPattern? : Rule → Option String
  | .default _ => none
  | .custom pattern _ => some pattern
  | .null pattern => some pattern

def type? : Rule → Option ScanType
  | .default type => some type
  | .custom _ type => some type
  | .null _ => none

/-- The pattern that the rule matches with; a default rule may lack one. -/
def pattern? : Rule → Option String
  | .default type => type.defaultPattern
  | .custom pattern _ => some pattern
  | .null pattern => some pattern

def isNull : Rule → Bool
  | .null _ => true
  | _ => false

/-- The name of the type, or the marker for none. -/
def typeName (rule : Rule) : String :=
  match rule.type? with
  | some type => type.name
  | none => "_"

def kindName : Rule → String
  | .default _ => "default"
  | .custom _ _ => "custom"
  | .null _ => "null"

/-- The rule as a rule list writes it. -/
def describe (rule : Rule) : String :=
  match rule.ownPattern? with
  | none => rule.typeName
  | some pattern => s!"{Quoted.quote pattern} as {rule.typeName}"

/-- The rule with its kind. -/
def shown (rule : Rule) : String := s!"Rule({rule.describe})"

end Rule

/-- A rule that may have a name. -/
structure Argument where
  name : Option String
  rule : Rule
  deriving Repr

/-- The argument as a rule list writes it. -/
def Argument.describe (argument : Argument) : String :=
  match argument.name with
  | none => argument.rule.describe
  | some name => s!"{name} = {argument.rule.describe}"

/-- Positional rules, then named rules. -/
structure RuleList where
  positional : List Rule := []
  named : List (String × Rule) := []
  deriving Repr, BEq

namespace RuleList

/-- All rules, positional ones first. -/
def flattened (rules : RuleList) : List Rule :=
  rules.positional ++ rules.named.map Prod.snd

def names (rules : RuleList) : List String := rules.named.map Prod.fst

/-- The kind of the first callable that keeps the rules from being hashed. -/
def unhashable? (rules : RuleList) : Option String :=
  rules.flattened.findSome? fun rule => rule.type?.bind fun type => type.conversion.unhashable?

def size (rules : RuleList) : Nat := rules.positional.length + rules.named.length

def arguments (rules : RuleList) : List Argument :=
  rules.positional.map (⟨none, ·⟩) ++ rules.named.map fun (name, rule) => ⟨some name, rule⟩

def describe (rules : RuleList) : String :=
  ", ".intercalate (rules.arguments.map Argument.describe)

/-- Put an argument, which is the `index`-th, behind the rules. -/
def add (rules : RuleList) (index : Nat) (argument : Argument) : Except ArgumentFault RuleList :=
  match argument.name with
  | some name => .ok { rules with named := rules.named ++ [(name, argument.rule)] }
  | none =>
      if rules.named = [] then .ok { rules with positional := rules.positional ++ [argument.rule] }
      else .error (.positionalAfterNamed index)

/-- The rule list of the arguments from the `index`-th on, behind the rules before them. -/
def extend (rules : RuleList) (index : Nat) : List Argument → Except ArgumentFault RuleList
  | [] => .ok rules
  | argument :: rest => do
      let rules ← rules.add index argument
      extend rules (index + 1) rest

/-- The rule list of a sequence of arguments, in which the named ones have to come last. -/
def ofArguments (arguments : List Argument) : Except ArgumentFault RuleList :=
  extend {} 0 arguments

end RuleList

end Unformat
