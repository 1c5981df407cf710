import Unformat.Number.Binary64
import Unformat.Text.Property.Blank
import Unformat.Text.Property.DecimalDigit

/-!
# Numerals

How integers and doubles are read. Integers have a limit on the number of their digits, leading
zeros counted. A double may be written with the decimal digits of any script.
-/

namespace Unformat.Number

open Text (decimalDigit? isMargin)

def digitLimit : Nat := 4300

/-- A decimal integer has too many digits. -/
structure TooManyDigits where
  count : Nat
  deriving Repr, DecidableEq

/-- The complaint about a numeral with too many digits. -/
def TooManyDigits.message (fault : TooManyDigits) : String :=
  s!"Exceeds the limit ({digitLimit} digits) for integer string conversion: value has " ++
  s!"{fault.count} digits; use sys.set_int_max_str_digits() to increase the limit"

/-- The natural that a run of ASCII decimal digits denotes. -/
def natural (digits : List Char) : Except TooManyDigits Nat :=
  if digitLimit < digits.length then .error ⟨digits.length⟩
  else .ok (Nat.ofDigitChars 10 digits 0)

/-- A sign in front of a numeral, and what follows it. -/
def splitSign : List Char → Bool × List Char
  | '+' :: rest => (false, rest)
  | '-' :: rest => (true, rest)
  | text => (false, text)

def signed (negative : Bool) (size : Nat) : Int := if negative then -size else size

/-! ## Doubles -/

/-- The text with every decimal digit replaced by the ASCII digit of its value. -/
def asciiDigits (text : List Char) : List Char :=
  text.map fun c =>
    match decimalDigit? c with
    | some value => Nat.digitChar value
    | none => c

/-- The exponent that ends a numeral: nothing, or a letter and a signed integer. -/
def exponent? : List Char → Option Int
  | [] => some 0
  | mark :: text =>
      let (negative, digits) := splitSign text
      if (mark = 'e' ∨ mark = 'E') ∧ digits ≠ [] ∧ digits.all Char.isDigit then
        some (signed negative (Nat.ofDigitChars 10 digits 0))
      else none

def lowerCase (text : List Char) : List Char := text.map Char.toLower

/-- The double that an unsigned numeral denotes: digits with at most one point among, before or
after them, and perhaps an exponent; or a name of infinity or not-a-number. -/
def unsignedReal? (negative : Bool) (text : List Char) : Option Binary64 :=
  let name := lowerCase text
  if name = "inf".toList ∨ name = "infinity".toList then some (.infinite negative)
  else if name = "nan".toList then some .nan
  else
    let whole := text.takeWhile Char.isDigit
    let rest := text.drop whole.length
    let fraction := match rest with
      | '.' :: rest => rest.takeWhile Char.isDigit
      | _ => []
    let rest := match rest with
      | '.' :: rest => rest.drop fraction.length
      | rest => rest
    let digits := whole ++ fraction
    if digits = [] then none
    else (exponent? rest).map fun exponent =>
      Binary64.ofDecimal negative (Nat.ofDigitChars 10 digits 0) digits.length
        (exponent - fraction.length)

/-- The double that a numeral denotes; the digits may be of any script. -/
def real? (text : List Char) : Option Binary64 :=
  let (negative, size) := splitSign (asciiDigits text)
  unsignedReal? negative size

/-! ## Integers with digit separators -/

def trim (text : List Char) : List Char :=
  ((text.dropWhile isMargin).reverse.dropWhile isMargin).reverse

/-- Decimal digits, of which single underscores may stand between two. -/
def separatedDigits? : List Char → Option (List Char)
  | [] => none
  | [c] => if c.isDigit then some [c] else none
  | c :: '_' :: rest => if c.isDigit then (separatedDigits? rest).map (c :: ·) else none
  | c :: rest => if c.isDigit then (separatedDigits? rest).map (c :: ·) else none

/-- The integer that a decimal numeral denotes. Margins, a sign and single underscores between
digits are allowed, and the digits may be of any script. -/
def integer? (text : List Char) : Option Int :=
  let (negative, size) := splitSign (asciiDigits (trim text))
  (separatedDigits? size).bind fun digits =>
    match natural digits with
    | .ok size => some (signed negative size)
    | .error _ => none

end Unformat.Number
