import Unformat.Plan.Fault
import Unformat.Rule.Fault
import Unformat.Scan.Engine
import Unformat.Template.Parse

/-!
# Failures

All the ways in which a request may fail: a fault that has a code, a value that a parameter cannot
have, something that cannot be read, or a read that fails.
-/

namespace Unformat

open Text (Quoted.quote)

/-- A fault of any phase. -/
inductive AnyFault where
  | template (fault : TemplateFault)
  | argument (fault : ArgumentFault)
  | binding (fault : BindingFault)
  | bindings (report : BindingReport)
  | pattern (fault : PatternFault)
  | scan (fault : ScanFault)
  deriving Repr, DecidableEq

instance : Fault AnyFault where
  code
    | .template fault => Fault.code fault
    | .argument fault => Fault.code fault
    | .binding fault => Fault.code fault
    | .bindings report => Fault.code report
    | .pattern fault => Fault.code fault
    | .scan fault => Fault.code fault
  message
    | .template fault => Fault.message fault
    | .argument fault => Fault.message fault
    | .binding fault => Fault.message fault
    | .bindings report => Fault.message report
    | .pattern fault => Fault.message fault
    | .scan fault => Fault.message fault
  summary
    | .template fault => Fault.summary fault
    | .argument fault => Fault.summary fault
    | .binding fault => Fault.summary fault
    | .bindings report => Fault.summary report
    | .pattern fault => Fault.summary fault
    | .scan fault => Fault.summary fault
  notes
    | .template fault => Fault.notes fault
    | .argument fault => Fault.notes fault
    | .binding fault => Fault.notes fault
    | .bindings report => Fault.notes report
    | .pattern fault => Fault.notes fault
    | .scan fault => Fault.notes fault
  hint
    | .template fault => Fault.hint fault
    | .argument fault => Fault.hint fault
    | .binding fault => Fault.hint fault
    | .bindings report => Fault.hint report
    | .pattern fault => Fault.hint fault
    | .scan fault => Fault.hint fault
  details
    | .template fault => Fault.details fault
    | .argument fault => Fault.details fault
    | .binding fault => Fault.details fault
    | .bindings report => Fault.details report
    | .pattern fault => Fault.details fault
    | .scan fault => Fault.details fault

/-- A value that a parameter cannot have. -/
inductive ValueFault where
  | tooManyDigits (fault : Number.TooManyDigits)
  | bufferSize (size : Int)
  | lineErrors (text : String)
  | overrun (count : Int) (buffered : Nat)
  | pastLine
  | taken (fault : Registry.Taken)
  deriving Repr, DecidableEq

def ValueFault.message : ValueFault → String
  | .tooManyDigits fault => fault.message
  | .bufferSize size => s!"buffer_size must be positive, got {size}"
  | .lineErrors text => s!"on_error must be 'raise' or 'skip', got {Quoted.quote text}"
  | .overrun count buffered => s!"cannot consume {count} of {buffered} buffered bytes"
  | .pastLine => "cannot consume past the end of the line"
  | .taken fault => fault.message

inductive Failure where
  | fault (diagnostic : Diagnostic AnyFault)
  | value (fault : ValueFault)
  /-- A value of this kind cannot be read from. -/
  | unreadable (kind : String)
  /-- A callable of this kind cannot be hashed. -/
  | unhashable (kind : String)
  | read (failure : ReadFailure)
  /-- The input is used up. -/
  | endOfInput
  /-- A quoted literal of a rule list is not well formed. -/
  | malformedLiteral
  /-- Nothing is kept under this name. -/
  | unknownName (name : String)
  deriving Repr, DecidableEq

namespace Failure

/-- The failure of a fault. -/
def ofFault (reason : AnyFault) : Failure := .fault (.of reason)

def message : Failure → String
  | .fault diagnostic => diagnostic.text
  | .value reason => reason.message
  | .unreadable kind => s!"cannot read from {kind}"
  | .unhashable kind => s!"unhashable type: '{kind}'"
  | .read (.failed text) => text
  | .read .interrupted => "interrupted"
  | .endOfInput => "end of input"
  | .malformedLiteral => "malformed literal in argument list"
  | .unknownName name => s!"nothing is kept under the name {Quoted.quote name}"

def ofTemplate : TemplateFailure → Failure
  | .malformed reason => ofFault (.template reason)
  | .tooManyDigits reason => .value (.tooManyDigits reason)

def ofArgument : ArgumentFailure → Failure
  | .fault reason => ofFault (.argument reason)
  | .malformedLiteral => .malformedLiteral

def ofReader : ReaderFault → Failure
  | .read reason => .read reason
  | .overrun count buffered => .value (.overrun count buffered)
  | .pastLine => .value .pastLine

def ofStop : Scan.Stop → Failure
  | .pattern reason => ofFault (.pattern reason)
  | .fault diagnostic => .fault (diagnostic.map .scan)
  | .reader reason => ofReader reason

end Failure

end Unformat
