/-!
# Double-precision numbers

A double is not-a-number, an infinity, or a sign with `mantissa · 2 ^ exponent`. Rounding is exact:
a quotient of naturals goes to the nearest double and a tie to the even mantissa, so a decimal
numeral denotes the double that is nearest to it.
-/

namespace Unformat

/-- A double-precision number. A finite one has a mantissa below `2 ^ 53` and an exponent of at
least `-1074`; the mantissa is at least `2 ^ 52` unless the exponent is `-1074`. -/
inductive Binary64 where
  | nan
  | infinite (negative : Bool)
  | finite (negative : Bool) (mantissa : Nat) (exponent : Int)
  deriving Repr, DecidableEq

namespace Binary64

def leastExponent : Int := -1074

def greatestExponent : Int := 971

def zero (negative : Bool) : Binary64 := .finite negative 0 leastExponent

/-- The natural nearest to `numerator / denominator`; a tie goes to the even one. -/
def roundQuotient (numerator denominator : Nat) : Nat :=
  let quotient := numerator / denominator
  let twice := 2 * (numerator % denominator)
  if twice < denominator then quotient
  else if denominator < twice then quotient + 1
  else quotient + quotient % 2

/-- `numerator / (denominator · 2 ^ exponent)` as a fraction. -/
def scaleDown (numerator denominator : Nat) (exponent : Int) : Nat × Nat :=
  if 0 ≤ exponent then (numerator, denominator * Nat.pow 2 exponent.toNat)
  else (numerator * Nat.pow 2 (-exponent).toNat, denominator)

/-- The exponent at which a positive quotient has a mantissa of 53 bits, or the least exponent. -/
def exponentFor (numerator denominator : Nat) : Int :=
  let guess : Int := numerator.log2 - denominator.log2 - 52
  let (scaled, unit) := scaleDown numerator denominator guess
  max leastExponent (if scaled < unit * Nat.pow 2 52 then guess - 1 else guess)

/-- The double nearest to a quotient of naturals with a positive denominator. -/
def ofQuotient (negative : Bool) (numerator denominator : Nat) : Binary64 :=
  if numerator = 0 then zero negative
  else
    let exponent := exponentFor numerator denominator
    let (scaled, unit) := scaleDown numerator denominator exponent
    let mantissa := roundQuotient scaled unit
    let (mantissa, exponent) :=
      if mantissa = Nat.pow 2 53 then (Nat.pow 2 52, exponent + 1) else (mantissa, exponent)
    if greatestExponent < exponent then .infinite negative else .finite negative mantissa exponent

/-- The double nearest to `digits · 10 ^ scale`, where `digits` is written with `count` decimal
digits. Scales at which the answer is certain to be infinite or zero are answered at once. -/
def ofDecimal (negative : Bool) (digits count : Nat) (scale : Int) : Binary64 :=
  if digits = 0 then zero negative
  else if 0 ≤ scale then
    if 310 ≤ scale then .infinite negative
    else ofQuotient negative (digits * Nat.pow 10 scale.toNat) 1
  else if scale + count < -330 then zero negative
  else ofQuotient negative digits (Nat.pow 10 (-scale).toNat)

end Binary64

end Unformat
