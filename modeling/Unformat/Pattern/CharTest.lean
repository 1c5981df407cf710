import Unformat.Text.Hex
import Unformat.Text.LetterCase
import Unformat.Text.Property.Alphabetic
import Unformat.Text.Property.Blank
import Unformat.Text.Property.Cased
import Unformat.Text.Property.DecimalDigit
import Unformat.Text.Property.Lowercase
import Unformat.Text.Property.Punctuation
import Unformat.Text.Property.Uppercase
import Unformat.Text.Property.Word

/-!
# Tests on one character

What a pattern may ask of a single character: to be a given one, to lie in a range, to have a
property, or a combination of these.
-/

namespace Unformat

open Text

/-- A property of characters that a pattern may name. -/
inductive CharProperty where
  | decimalDigit
  | blank
  | horizontalBlank
  | word
  | alphabetic
  | alphanumeric
  | asciiDigit
  | hexDigit
  | upper
  | lower
  | cased
  | punctuation
  | control
  deriving Repr, DecidableEq

namespace CharProperty

def holds (property : CharProperty) (c : Char) : Bool :=
  match property with
  | .decimalDigit => isDecimalDigit c
  | .blank => isBlank c
  | .horizontalBlank => c == '\t' || (isBlank c && staysOnLine c)
  | .word => isWord c
  | .alphabetic => isAlphabetic c
  | .alphanumeric => isAlphabetic c || c.isDigit
  | .asciiDigit => c.isDigit
  | .hexDigit => Hex.isDigit c
  | .upper => isUppercase c
  | .lower => isLowercase c
  | .cased => isCased c
  | .punctuation => isPunctuation c
  | .control => c.toNat < 32 || (127 ≤ c.toNat && c.toNat < 160)
where
  /-- A blank that ends no line. -/
  staysOnLine (c : Char) : Bool :=
    !(10 ≤ c.toNat && c.toNat ≤ 13) && c.toNat != 0x85 && c.toNat != 0x2028 && c.toNat != 0x2029

/-- The property that a pattern which ignores case asks for. -/
def ignoringCase : CharProperty → CharProperty
  | .upper => .cased
  | .lower => .cased
  | property => property

end CharProperty

inductive CharTest where
  | never
  | always
  | char (expected : Char)
  | range (low high : Char)
  | property (kind : CharProperty)
  | negate (test : CharTest)
  | either (first second : CharTest)
  /-- The character or one that differs from it only in case passes the test. -/
  | caseless (test : CharTest)
  deriving Repr, DecidableEq

namespace CharTest

def holds : CharTest → Char → Bool
  | .never, _ => false
  | .always, _ => true
  | .char expected, c => c == expected
  | .range low high, c => low ≤ c && c ≤ high
  | .property kind, c => kind.holds c
  | .negate test, c => !test.holds c
  | .either first second, c => first.holds c || second.holds c
  | .caseless test, c => (caseVariants c).any test.holds

/-- The same test by a pattern that ignores case. -/
def ignoringCase : CharTest → CharTest
  | .char expected => .caseless (.char expected)
  | .range low high => .caseless (.range low high)
  | .property kind => .property kind.ignoringCase
  | .negate test => .negate test.ignoringCase
  | .either first second => .either first.ignoringCase second.ignoringCase
  | test => test

def notLineFeed : CharTest := .negate (.char '\n')

/-- The character of a code point; a code point without one passes for no character. -/
def ofCodePoint (n : Nat) : CharTest := if n.isValidChar then .char (Char.ofNat n) else .never

end CharTest

end Unformat
