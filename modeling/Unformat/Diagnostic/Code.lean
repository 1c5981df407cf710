/-!
# Error codes

Every fault has a code: a number whose range tells the phase in which the fault arises. Faults of
every phase but the last are mistakes of configuration; those of the last phase lie in the data.
-/

namespace Unformat

inductive Phase where
  | template
  | arguments
  | binding
  | compile
  | scan
  deriving Repr, DecidableEq

namespace Phase

def name : Phase → String
  | .template => "template"
  | .arguments => "arguments"
  | .binding => "binding"
  | .compile => "compile"
  | .scan => "scan"

/-- Whether faults of the phase are mistakes of configuration. -/
def isConfiguration (phase : Phase) : Bool := phase ≠ .scan

end Phase

/-- The kinds of fault that have a code. -/
inductive Code where
  | unmatchedOpen
  | unmatchedClose
  | invalidPosition
  | invalidRuleReference
  | unexpectedCharacter
  | unexpectedEnd
  | malformedArguments
  | positionalAfterNamed
  | unknownType
  | invalidArgument
  | invalidPositionalReference
  | unknownNamedReference
  | duplicateOutput
  | missingOutput
  | duplicateRuleName
  | unusedRule
  | untypedCapture
  | missingDefaultPattern
  | bindingFailed
  | invalidPattern
  | literalMismatch
  | patternMismatch
  | malformedBytes
  | valueParse
  deriving Repr, DecidableEq

namespace Code

def number : Code → Nat
  | .unmatchedOpen => 1001
  | .unmatchedClose => 1002
  | .invalidPosition => 1003
  | .invalidRuleReference => 1004
  | .unexpectedCharacter => 1005
  | .unexpectedEnd => 1006
  | .malformedArguments => 1101
  | .positionalAfterNamed => 1102
  | .unknownType => 1103
  | .invalidArgument => 1104
  | .invalidPositionalReference => 3001
  | .unknownNamedReference => 3002
  | .duplicateOutput => 3003
  | .missingOutput => 3004
  | .duplicateRuleName => 3005
  | .unusedRule => 3006
  | .untypedCapture => 3007
  | .missingDefaultPattern => 3008
  | .bindingFailed => 3099
  | .invalidPattern => 4001
  | .literalMismatch => 5001
  | .patternMismatch => 5002
  | .malformedBytes => 5003
  | .valueParse => 5004

/-- The phase that the number of the code belongs to. -/
def phase (code : Code) : Phase :=
  if code.number < 1100 then .template
  else if code.number < 3000 then .arguments
  else if code.number < 4000 then .binding
  else if code.number < 5000 then .compile
  else .scan

def text (code : Code) : String := s!"RESCAN-{code.number}"

end Code

end Unformat
