import Unformat.Diagnostic.Basic
import Unformat.Text.Quoted

/-!
# What may be wrong with a template
-/

namespace Unformat

open Text (Quoted.quote)

inductive TemplateMistake where
  | unclosed
  /-- A closing brace stands alone outside of captures. -/
  | strayClose
  /-- The position field is neither empty, an underscore nor digits. -/
  | invalidPosition (field : String)
  /-- The rule field is neither empty, digits nor an identifier. -/
  | invalidRule (field : String)
  /-- A character that cannot stand at this point of a capture. -/
  | unexpectedCharacter (text : String)
  deriving Repr, DecidableEq

/-- A mistake in a template and where it lies. -/
structure TemplateFault where
  mistake : TemplateMistake
  template : String := ""
  position : Option Nat := none
  deriving Repr, DecidableEq

def TemplateMistake.code : TemplateMistake → Code
  | .unclosed => .unmatchedOpen
  | .strayClose => .unmatchedClose
  | .invalidPosition _ => .invalidPosition
  | .invalidRule _ => .invalidRuleReference
  | .unexpectedCharacter _ => .unexpectedCharacter

def TemplateMistake.reason : TemplateMistake → String
  | .unclosed => "unmatched '\x7b' in template (unexpected end of input)"
  | .strayClose => "unmatched '\x7d' in template"
  | .invalidPosition field => s!"invalid position: '{field}'"
  | .invalidRule field => s!"invalid rule: '{field}'"
  | .unexpectedCharacter text => s!"unexpected character {Quoted.quote text} in template"

instance : Fault TemplateFault where
  code fault := fault.mistake.code
  message fault := pointAt fault.mistake.reason fault.template fault.position
  summary fault := fault.mistake.reason
  hint fault :=
    match fault.mistake with
    | .strayClose => "write '\x7d\x7d' for a literal '\x7d'"
    | _ => ""
  details fault :=
    [("position", .int (match fault.position with
      | some position => position
      | none => -1))]

end Unformat
