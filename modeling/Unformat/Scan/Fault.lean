import Unformat.Conversion
import Unformat.Diagnostic.Basic

/-!
# What may be wrong with the text that is scanned
-/

namespace Unformat

open Text (Quoted.quote Hex.ofByte)

inductive ScanFault where
  | literalMismatch (literal : String)
  | patternMismatch (pattern : String)
  /-- Bytes that are no UTF-8, and how many bytes were consumed before them, when that is known. -/
  | malformedBytes (data : List UInt8) (offset : Option Nat)
  /-- A text that matched is no value of the type. -/
  | unconvertible (text : String) (typeName : String) (reason : ConversionFault)
  deriving Repr, DecidableEq

namespace ScanFault

/-- The note about the place of malformed bytes. -/
def offsetNote (offset : Nat) : String := s!"at byte {offset} of the input"

/-- Malformed bytes, of which at most four are kept. -/
def malformed (data : List UInt8) (offset : Option Nat := none) : ScanFault :=
  .malformedBytes (data.take 4) offset

/-- The fault with a place for malformed bytes. -/
def withOffset (offset : Nat) : ScanFault → ScanFault
  | .malformedBytes data _ => .malformedBytes data (some offset)
  | fault => fault

end ScanFault

instance : Fault ScanFault where
  code
    | .literalMismatch _ => .literalMismatch
    | .patternMismatch _ => .patternMismatch
    | .malformedBytes .. => .malformedBytes
    | .unconvertible .. => .valueParse
  message
    | .literalMismatch literal => s!"input text does not match literal {Quoted.quote literal}"
    | .patternMismatch pattern => s!"input text does not match pattern {Quoted.quote pattern}"
    | .malformedBytes data _ =>
        let shown := " ".intercalate (data.map fun byte => String.ofList (Hex.ofByte byte))
        s!"invalid UTF-8 sequence: [{shown}]"
    | .unconvertible text typeName reason =>
        let message := s!"cannot parse {Quoted.quote text} as {typeName}"
        if reason.message = "" then message else message ++ ": " ++ reason.message
  notes
    | .malformedBytes _ (some offset) => [⟨ScanFault.offsetNote offset, "note"⟩]
    | _ => []

/-- Note where malformed bytes stand. -/
def Diagnostic.atOffset (diagnostic : Diagnostic ScanFault) (offset : Nat) :
    Diagnostic ScanFault :=
  { diagnostic with fault := diagnostic.fault.withOffset offset }.withNote
    (ScanFault.offsetNote offset)

end Unformat
