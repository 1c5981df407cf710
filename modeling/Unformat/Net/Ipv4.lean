import Unformat.Text.Quoted

/-!
# IPv4 addresses

Four octets in decimal, separated by points, without leading zeros. `Ipv4.parse` says which rule a
text breaks first.
-/

namespace Unformat

open Text (Quoted.quote)

structure Ipv4 where
  first : UInt8
  second : UInt8
  third : UInt8
  fourth : UInt8
  deriving Repr, DecidableEq

namespace Ipv4

/-- The rule that a text breaks. -/
inductive Fault where
  | slash
  | empty
  | octetCount
  | emptyOctet
  | notDecimal (octet : String)
  | tooLong (octet : String)
  | leadingZero (octet : String)
  | tooLarge (value : Nat)
  deriving Repr, DecidableEq

def Fault.message (text : String) : Fault → String
  | .slash => s!"Unexpected '/' in {Quoted.quote text}"
  | .empty => "Address cannot be empty"
  | .octetCount => s!"Expected 4 octets in {Quoted.quote text}"
  | .emptyOctet => s!"Empty octet not permitted in {Quoted.quote text}"
  | .notDecimal octet =>
      s!"Only decimal digits permitted in {Quoted.quote octet} in {Quoted.quote text}"
  | .tooLong octet =>
      s!"At most 3 characters permitted in {Quoted.quote octet} in {Quoted.quote text}"
  | .leadingZero octet =>
      s!"Leading zeros are not permitted in {Quoted.quote octet} in {Quoted.quote text}"
  | .tooLarge value => s!"Octet {value} (> 255) not permitted in {Quoted.quote text}"

/-- One octet: one to three decimal digits without a leading zero, at most 255. -/
def octet (digits : List Char) : Except Fault UInt8 :=
  if digits = [] then .error .emptyOctet
  else if !digits.all Char.isDigit then .error (.notDecimal (String.ofList digits))
  else if 3 < digits.length then .error (.tooLong (String.ofList digits))
  else if digits ≠ ['0'] ∧ digits.head? = some '0' then
    .error (.leadingZero (String.ofList digits))
  else
    let value := Nat.ofDigitChars 10 digits 0
    if 255 < value then .error (.tooLarge value) else .ok (UInt8.ofNat value)

/-- The address that a text without a slash spells. -/
def parseOctets (text : List Char) : Except Fault Ipv4 :=
  if text = [] then .error .empty
  else match text.splitOn '.' with
    | [first, second, third, fourth] => do
        return ⟨← octet first, ← octet second, ← octet third, ← octet fourth⟩
    | _ => .error .octetCount

/-- The address that a text spells, or the first rule that it breaks. -/
def parse (text : List Char) : Except Fault Ipv4 :=
  if text.contains '/' then .error .slash else parseOctets text

/-- The four octets in decimal. -/
def text (address : Ipv4) : String :=
  s!"{address.first.toNat}.{address.second.toNat}.{address.third.toNat}.{address.fourth.toNat}"

end Ipv4

end Unformat
