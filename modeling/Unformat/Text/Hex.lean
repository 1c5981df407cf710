/-!
# Hexadecimal digits

Numbers and bytes written with lower-case hexadecimal digits, and the value of a digit of either
case.
-/

namespace Unformat.Text.Hex

def digitValue? (c : Char) : Option Nat :=
  if '0' ≤ c ∧ c ≤ '9' then some (c.toNat - '0'.toNat)
  else if 'a' ≤ c ∧ c ≤ 'f' then some (c.toNat - 'a'.toNat + 10)
  else if 'A' ≤ c ∧ c ≤ 'F' then some (c.toNat - 'A'.toNat + 10)
  else none

def isDigit (c : Char) : Bool := (digitValue? c).isSome

/-- The number written by hexadecimal digits, most significant first. -/
def value (digits : List Char) : Nat :=
  digits.foldl (fun total c => total * 16 + (digitValue? c).getD 0) 0

/-- The last `width` hexadecimal digits of `n`, zeros in front. -/
def fixed : Nat → Nat → List Char
  | 0, _ => []
  | width + 1, n => fixed width (n / 16) ++ [Nat.digitChar (n % 16)]

def ofByte (byte : UInt8) : List Char := fixed 2 byte.toNat

/-- Bytes as an unbroken run of digits. -/
def ofBytes (bytes : List UInt8) : String := String.ofList (bytes.flatMap ofByte)

end Unformat.Text.Hex
