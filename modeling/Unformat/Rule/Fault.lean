import Unformat.Diagnostic.Basic
import Unformat.Text.Quoted

/-!
# What may be wrong with the arguments of a template
-/

namespace Unformat

open Text (Quoted.quote)

inductive ArgumentFault where
  /-- A character cannot stand at its position in the text of a rule list. -/
  | malformed (c : Char) (text : String) (position : Nat)
  /-- A positional argument follows a named one. -/
  | positionalAfterNamed (index : Nat)
  /-- A type is not registered. -/
  | unknownType (name : String)
  /-- A pattern is given as a value of another kind than text. -/
  | patternNotText (kind : String)
  /-- A tuple is neither a pattern nor a pattern with a type. -/
  | tupleSize (size : Nat)
  /-- The type that yields no value stands without a pattern. -/
  | loneMarker
  deriving Repr, DecidableEq

instance : Fault ArgumentFault where
  code
    | .malformed .. => .malformedArguments
    | .positionalAfterNamed _ => .positionalAfterNamed
    | .unknownType _ => .unknownType
    | _ => .invalidArgument
  message
    | .malformed c text position =>
        pointAt s!"unexpected {Quoted.quote (String.singleton c)} in argument list" text position
    | .positionalAfterNamed index =>
        s!"positional arguments must be before named arguments (argument {index})"
    | .unknownType name => s!"unknown type `{name}`"
    | .patternNotText kind => s!"pattern must be a string, got {kind}"
    | .tupleSize size => s!"expected (pattern, type), got a {size}-tuple"
    | .loneMarker => "the `_` type needs a pattern: write `\"<pattern>\" as _`"

/-- Why arguments cannot be used. -/
inductive ArgumentFailure where
  | fault (fault : ArgumentFault)
  /-- A quoted literal is not well formed. -/
  | malformedLiteral
  deriving Repr, DecidableEq

end Unformat
