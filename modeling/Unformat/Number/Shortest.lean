import Unformat.Number.Binary64

/-!
# The shortest decimal of a double

A double is written with the fewest significant digits that read back as the same double. The
reals that round to a double form an interval, closed when its mantissa is even; on the grid of
decimals with a given number of digits only the two neighbours of the double can lie in it. The
first grid with a hit wins, of two hits the nearer, and of two equally near the one with the even
last digit.
-/

namespace Unformat.Number

/-- `digits · 10 ^ (point - count)`, where `digits` has `count` decimal digits: the decimal point
stands `point` places after the front of the digits. -/
structure Decimal where
  digits : Nat
  count : Nat
  point : Int
  deriving Repr, DecidableEq

/-- A positive double with the ends of its rounding interval, over a common denominator. -/
structure RoundingInterval where
  value : Nat
  low : Nat
  high : Nat
  denominator : Nat
  closed : Bool

/-- The rounding interval of `mantissa · 2 ^ exponent`. Below a power of two the neighbour is half
as far. -/
def RoundingInterval.of (mantissa : Nat) (exponent : Int) : RoundingInterval :=
  let below := if mantissa = Nat.pow 2 52 ∧ Binary64.leastExponent < exponent then 1 else 2
  let up := Nat.pow 2 exponent.toNat
  { value := 4 * mantissa * up
    low := (4 * mantissa - below) * up
    high := (4 * mantissa + 2) * up
    denominator := 4 * Nat.pow 2 (-exponent).toNat
    closed := mantissa % 2 = 0 }

namespace RoundingInterval

/-- Whether `numerator / denominator` rounds to the double. -/
def holds (interval : RoundingInterval) (numerator denominator : Nat) : Bool :=
  let scaled := numerator * interval.denominator
  if interval.closed then
    interval.low * denominator ≤ scaled && scaled ≤ interval.high * denominator
  else interval.low * denominator < scaled && scaled < interval.high * denominator

/-- The power of ten just above the double: `10 ^ (point - 1) ≤ value < 10 ^ point`, searched
upwards from a point that is too low by at most `steps`. -/
def pointFrom (interval : RoundingInterval) : Nat → Int → Int
  | 0, point => point
  | steps + 1, point =>
      let below :=
        if 0 ≤ point then decide (interval.value < interval.denominator * Nat.pow 10 point.toNat)
        else decide (interval.value * Nat.pow 10 (-point).toNat < interval.denominator)
      if below then point else pointFrom interval steps (point + 1)

/-- Where the decimal point stands. The logarithm to base two fixes it up to a few places. -/
def point (interval : RoundingInterval) : Int :=
  let bits : Int := interval.value.log2 - interval.denominator.log2
  pointFrom interval 4 ((bits * 30103).fdiv 100000 - 1)

/-- The neighbour of the double with `count` digits that reads back, if one does. -/
def neighbour? (interval : RoundingInterval) (point : Int) (count : Nat) : Option Nat :=
  let scale := point - count
  let up := Nat.pow 10 scale.toNat
  let down := Nat.pow 10 (-scale).toNat
  let floor := interval.value * down / (interval.denominator * up)
  let remainder := 2 * (interval.value * down % (interval.denominator * up))
  let unit := interval.denominator * up
  let lower := interval.holds (floor * up) down
  let upper := interval.holds ((floor + 1) * up) down
  match lower, upper with
  | false, false => none
  | true, false => some floor
  | false, true => some (floor + 1)
  | true, true =>
      if remainder < unit then some floor
      else if unit < remainder then some (floor + 1)
      else some (floor + floor % 2)

/-- The first grid, from `count` digits on, on which a decimal reads back. -/
def search (interval : RoundingInterval) (point : Int) : Nat → Nat → Decimal
  | 0, count => { digits := 0, count, point }
  | steps + 1, count =>
      match interval.neighbour? point count with
      | none => search interval point steps (count + 1)
      | some digits =>
          if digits = Nat.pow 10 count then
            { digits := Nat.pow 10 (count - 1), count, point := point + 1 }
          else { digits, count, point }

end RoundingInterval

/-- The shortest decimal of a positive double; 17 digits always suffice. -/
def shortest (mantissa : Nat) (exponent : Int) : Decimal :=
  let interval := RoundingInterval.of mantissa exponent
  interval.search interval.point 17 1

end Unformat.Number

namespace Unformat.Binary64

/-- A decimal exponent: its sign, then at least two digits. -/
def exponentText (exponent : Int) : String :=
  let digits := toString exponent.natAbs
  (if exponent < 0 then "e-" else "e+") ++ (if digits.length < 2 then "0" ++ digits else digits)

/-- The text of a positive decimal: positional when the decimal point stands less than four zeros
before the digits and no more than sixteen places after their front, and with an exponent
otherwise. A positional text has at least one digit after the point. -/
def decimalText (decimal : Number.Decimal) : String :=
  let digits := Nat.toDigits 10 decimal.digits
  let point := decimal.point
  if -4 < point ∧ point ≤ 16 then
    if point ≤ 0 then "0." ++ String.ofList (List.replicate (-point).toNat '0' ++ digits)
    else if digits.length ≤ point.toNat then
      String.ofList (digits ++ List.replicate (point.toNat - digits.length) '0') ++ ".0"
    else String.ofList (digits.take point.toNat ++ '.' :: digits.drop point.toNat)
  else
    let mantissa := match digits with
      | first :: second :: rest => first :: '.' :: second :: rest
      | short => short
    String.ofList mantissa ++ exponentText (point - 1)

/-- The text of a double: the shortest decimal that reads back as it. -/
def text : Binary64 → String
  | .nan => "nan"
  | .infinite negative => if negative then "-inf" else "inf"
  | .finite negative mantissa exponent =>
      let size := if mantissa = 0 then "0.0" else decimalText (Number.shortest mantissa exponent)
      if negative then "-" ++ size else size

end Unformat.Binary64
