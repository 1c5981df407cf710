/-!
# What may be wrong with a pattern
-/

namespace Unformat.Pattern

inductive Mistake where
  | missingClose
  | unbalancedClose
  | unterminatedSet
  | nothingToRepeat
  | multipleRepeat
  | leastAboveMost
  | tooManyRepeats
  | badRange
  | endInEscape
  | badEscape (c : Char)
  | incompleteEscape (text : String)
  | badHexEscape (text : String)
  | unknownProperty
  | unknownExtension
  | invalidReference
  deriving Repr, DecidableEq

def Mistake.reason : Mistake → String
  | .missingClose => "missing )"
  | .unbalancedClose => "unbalanced parenthesis"
  | .unterminatedSet => "unterminated character set"
  | .nothingToRepeat => "nothing to repeat"
  | .multipleRepeat => "multiple repeat"
  | .leastAboveMost => "min repeat greater than max repeat"
  | .tooManyRepeats => "repeat count too big"
  | .badRange => "bad character range"
  | .endInEscape => "bad escape (end of pattern)"
  | .badEscape c => "bad escape \\" ++ String.singleton c
  | .incompleteEscape text => "incomplete escape \\" ++ text
  | .badHexEscape text => "bad hex escape \\" ++ text
  | .unknownProperty => "unknown property"
  | .unknownExtension => "unknown extension"
  | .invalidReference => "invalid group reference"

/-- A mistake in a pattern and the number of characters before it. -/
structure SourceFault where
  mistake : Mistake
  position : Nat
  deriving Repr, DecidableEq

def SourceFault.message (fault : SourceFault) : String :=
  s!"{fault.mistake.reason} at position {fault.position}"

end Unformat.Pattern
