import Unformat.Number.Numeral
import Unformat.Text.LetterCase
import Unformat.Value

/-!
# Conversions

A conversion turns the text that a capture matched into a value, or says why the text is no value
of its kind. The calling program may bring conversions of its own.
-/

namespace Unformat

open Text (Quoted.quote isMargin)

/-- The integers of a kind: signed or not, with a width in bits or without bounds, with or without
zero. -/
structure IntegerKind where
  signed : Bool
  bits : Option Nat
  nonzero : Bool := false
  deriving Repr, DecidableEq

/-- A conversion of the calling program: the value of a text, or why there is none. -/
structure Callable where
  convert : List Char → Except String Value
  /-- The calling program takes callables of one identity for equal. -/
  identity : Nat
  /-- The kind of the callable, if callables of its kind cannot be hashed. -/
  unhashable? : Option String := none

namespace Callable

instance : BEq Callable := ⟨fun one other => one.identity == other.identity⟩

instance : Repr Callable := ⟨fun callable _ => repr callable.identity⟩

end Callable

inductive Conversion where
  | boolean
  | character
  | text
  | integer (kind : IntegerKind)
  | real
  | ipv4
  | ipv6
  | address
  | path
  | socket
  | socketV4
  | socketV6
  | supplied (callable : Callable)
  deriving Repr, BEq

/-- Why a text is no value of the kind asked for. -/
inductive ConversionFault where
  | notBoolean (text : String)
  | notOneCharacter (count : Nat)
  | invalidDigit (text : String)
  | tooManyDigits (fault : Number.TooManyDigits)
  | tooSmall (text : String)
  | tooLarge (text : String)
  | zero
  | realMargins (text : String)
  | notReal (text : String)
  | ipv4 (text : String) (fault : Ipv4.Fault)
  | ipv6 (text : String) (fault : Ipv6.Fault)
  | notAddress (text : String)
  | notSocket (text : String)
  /-- A conversion of the calling program refuses the text. -/
  | refused (reason : String)
  deriving Repr, DecidableEq

namespace ConversionFault

def message : ConversionFault → String
  | .notBoolean text => s!"provided string was not `true` or `false`: {Quoted.quote text}"
  | .notOneCharacter count => s!"expected exactly one character, got {count}"
  | .invalidDigit text => s!"invalid digit found in string: {Quoted.quote text}"
  | .tooManyDigits fault => fault.message
  | .tooSmall text => s!"number too small to fit in target type: {text}"
  | .tooLarge text => s!"number too large to fit in target type: {text}"
  | .zero => "number would be zero for non-zero type"
  | .realMargins text => s!"invalid float literal: {Quoted.quote text}"
  | .notReal text => s!"could not convert string to float: {Quoted.quote text}"
  | .ipv4 text fault => fault.message text
  | .ipv6 text fault =>
      fault.message text (String.ofList (Ipv6.splitScope text.toList).1)
  | .notAddress text => s!"{Quoted.quote text} does not appear to be an IPv4 or IPv6 address"
  | .notSocket text => s!"invalid socket address syntax: {Quoted.quote text}"
  | .refused reason => reason

end ConversionFault

namespace IntegerKind

/-- The least integer of the kind, if there is one. -/
def least? (kind : IntegerKind) : Option Int :=
  if kind.signed then kind.bits.map fun bits => -(Nat.pow 2 (bits - 1) : Int)
  else some 0

/-- The greatest integer of the kind, if there is one. -/
def greatest? (kind : IntegerKind) : Option Int :=
  kind.bits.map fun bits => (Nat.pow 2 (if kind.signed then bits - 1 else bits) : Int) - 1

/-- The sign and the digits of an integer numeral: ASCII digits, after a plus sign or, for signed
kinds, either sign. -/
def numeral? (kind : IntegerKind) (text : List Char) : Option (Bool × List Char) :=
  let (negative, digits) := Number.splitSign text
  if digits ≠ [] ∧ digits.all Char.isDigit ∧ (negative → kind.signed) then
    some (negative, digits)
  else none

/-- The integer that a text denotes, if it belongs to the kind. -/
def parse (kind : IntegerKind) (text : List Char) : Except ConversionFault Int :=
  match kind.numeral? text with
  | none => .error (.invalidDigit (String.ofList text))
  | some (negative, digits) =>
      match Number.natural digits with
      | .error fault => .error (.tooManyDigits fault)
      | .ok size =>
          let value := Number.signed negative size
          if kind.least?.any (value < ·) then .error (.tooSmall (String.ofList text))
          else if kind.greatest?.any (· < value) then .error (.tooLarge (String.ofList text))
          else if kind.nonzero ∧ value = 0 then .error .zero
          else .ok value

/-- Ports are the integers of sixteen bits without sign. -/
def port : IntegerKind := { signed := false, bits := some 16 }

end IntegerKind

namespace Conversion

/-- A double. Margins and digit separators are refused. -/
def parseReal (text : List Char) : Except ConversionFault Value :=
  if text.head?.any isMargin ∨ text.getLast?.any isMargin ∨ '_' ∈ text then
    .error (.realMargins (String.ofList text))
  else match Number.real? text with
    | some value => .ok (.real value)
    | none => .error (.notReal (String.ofList text))

def parseIpv4 (text : List Char) : Except ConversionFault Ipv4 :=
  match Ipv4.parse text with
  | .ok found => .ok found
  | .error fault => .error (.ipv4 (String.ofList text) fault)

def parseIpv6 (text : List Char) : Except ConversionFault Ipv6 :=
  match Ipv6.parse text with
  | .ok found => .ok found
  | .error fault => .error (.ipv6 (String.ofList text) fault)

def parsePort (text : List Char) : Except ConversionFault Nat :=
  (IntegerKind.port.parse text).map Int.toNat

/-- An IPv4 address and a port, divided by the last colon. -/
def parseSocketV4 (text : List Char) : Except ConversionFault Value :=
  let port := (text.reverse.takeWhile (· != ':')).reverse
  if port.length = text.length then .error (.notSocket (String.ofList text))
  else do
    let host ← parseIpv4 (text.take (text.length - port.length - 1))
    return .socket (.v4 host) (← parsePort port)

/-- The text before the first `]:`, and what follows it. -/
def splitBracket : List Char → Option (List Char × List Char)
  | [] => none
  | ']' :: ':' :: rest => some ([], rest)
  | c :: rest => (splitBracket rest).map fun (host, port) => (c :: host, port)

/-- An IPv6 address in brackets, a colon and a port. -/
def parseSocketV6 (text : List Char) : Except ConversionFault Value :=
  match text with
  | '[' :: inside =>
      match splitBracket inside with
      | none => .error (.notSocket (String.ofList text))
      | some (host, port) => do
          let host ← parseIpv6 host
          return .socket (.v6 host) (← parsePort port)
  | _ => .error (.notSocket (String.ofList text))

/-- The value that a text stands for under a conversion. -/
def apply (conversion : Conversion) (text : List Char) : Except ConversionFault Value :=
  match conversion with
  | .boolean =>
      if text = "true".toList then .ok (.bool true)
      else if text = "false".toList then .ok (.bool false)
      else .error (.notBoolean (String.ofList text))
  | .character =>
      match text with
      | [_] => .ok (.text (String.ofList text))
      | _ => .error (.notOneCharacter text.length)
  | .text => .ok (.text (String.ofList text))
  | .integer kind => (kind.parse text).map .int
  | .real => parseReal text
  | .ipv4 => (parseIpv4 text).map .ipv4
  | .ipv6 => (parseIpv6 text).map .ipv6
  | .address =>
      match Address.parse? text with
      | some found => .ok (Value.ofAddress found)
      | none => .error (.notAddress (String.ofList text))
  | .path => .ok (.path (PathName.parse text))
  | .socket => if text.head? = some '[' then parseSocketV6 text else parseSocketV4 text
  | .socketV4 => parseSocketV4 text
  | .socketV6 => parseSocketV6 text
  | .supplied callable => (callable.convert text).mapError .refused

/-- The kind of the callable that keeps the conversion from being hashed. -/
def unhashable? : Conversion → Option String
  | .supplied callable => callable.unhashable?
  | _ => none

end Conversion

end Unformat
