import Mathlib.Algebra.Order.Field.Power
import Mathlib.Algebra.Order.Field.Rat
import Mathlib.Tactic.Linarith
import Mathlib.Tactic.NormNum
import Unformat.Proofs.ScanType.Naming

/-!
# The doubles that are read

A numeral is read as a double that sixty-four bits hold: the exponent that a quotient is rounded at
leaves room for no more than 53 bits, and a mantissa that is rounded up to the next bit is halved.
-/

namespace Unformat

namespace Binary64

/-- The double is one that sixty-four bits hold. -/
def InRange : Binary64 → Prop
  | .finite _ mantissa exponent =>
      mantissa < 2 ^ 53 ∧ leastExponent ≤ exponent ∧ exponent ≤ greatestExponent
  | _ => True

theorem inRange_zero (negative : Bool) : (zero negative).InRange := by
  simp [zero, InRange, leastExponent, greatestExponent]

/-! ## Rounding a quotient -/

/-- A fraction is scaled without a change to its value. -/
theorem scaleDown_lt_iff {numerator denominator bits : Nat} {exponent : Int} :
    (scaleDown numerator denominator exponent).1 <
        (scaleDown numerator denominator exponent).2 * 2 ^ bits ↔
      (numerator : ℚ) < denominator * 2 ^ (exponent + bits) := by
  rw [zpow_add₀ two_ne_zero, ← mul_assoc, zpow_natCast]
  unfold scaleDown
  split
  · next nonneg =>
      obtain ⟨power, rfl⟩ := Int.eq_ofNat_of_zero_le nonneg
      simp only [Int.toNat_natCast, Nat.pow_eq, zpow_natCast]
      exact_mod_cast Iff.rfl
  · next neg =>
      obtain ⟨power, rfl⟩ : ∃ power : Nat, exponent = -power := ⟨(-exponent).toNat, by omega⟩
      have positive : (0 : ℚ) < 2 ^ power := by positivity
      simp only [neg_neg, Int.toNat_natCast, Nat.pow_eq, zpow_neg, zpow_natCast]
      rw [mul_right_comm, ← div_eq_mul_inv, lt_div_iff₀ positive]
      exact_mod_cast Iff.rfl

/-- At the exponent that is chosen, the mantissa has no more than 53 bits before it is rounded. -/
theorem lt_of_exponentFor (numerator : Nat) {denominator : Nat} (positive : 0 < denominator) :
    (numerator : ℚ) < denominator * 2 ^ (exponentFor numerator denominator + (53 : Nat)) := by
  obtain ⟨guess, guessed⟩ : ∃ guess : Int, guess = numerator.log2 - denominator.log2 - 52 :=
    ⟨_, rfl⟩
  have chosen : exponentFor numerator denominator =
      max leastExponent (if (scaleDown numerator denominator guess).1 <
        (scaleDown numerator denominator guess).2 * 2 ^ 52 then guess - 1 else guess) := by
    rw [guessed]
    rfl
  have raised {lesser greater : Int} (le : lesser ≤ greater)
      (holds : (numerator : ℚ) < denominator * 2 ^ lesser) :
      (numerator : ℚ) < denominator * 2 ^ greater := by
    refine holds.trans_le ?_
    gcongr
    norm_num
  rw [chosen]
  refine raised (Int.add_le_add_right (le_max_right _ _) _) ?_
  split
  · next less => exact raised (by omega) (scaleDown_lt_iff.mp less)
  · have below : (2 : ℚ) ^ denominator.log2 ≤ denominator := by
      exact_mod_cast Nat.log2_self_le (by omega)
    calc (numerator : ℚ) < 2 ^ (numerator.log2 + 1) := by
          exact_mod_cast Nat.lt_log2_self (n := numerator)
      _ = 2 ^ denominator.log2 * 2 ^ (guess + (53 : Nat)) := by
          rw [← zpow_natCast, ← zpow_natCast, ← zpow_add₀ two_ne_zero]
          congr 1
          push_cast
          omega
      _ ≤ denominator * 2 ^ (guess + (53 : Nat)) := by gcongr

theorem roundQuotient_le {numerator denominator bound : Nat}
    (less : numerator < denominator * bound) : roundQuotient numerator denominator ≤ bound := by
  have quotient : numerator / denominator < bound := Nat.div_lt_of_lt_mul less
  unfold roundQuotient
  dsimp only
  split
  · omega
  split <;> omega

theorem leastExponent_le_exponentFor (numerator denominator : Nat) :
    leastExponent ≤ exponentFor numerator denominator := le_max_left _ _

theorem inRange_ofQuotient (negative : Bool) (numerator : Nat) {denominator : Nat}
    (positive : 0 < denominator) : (ofQuotient negative numerator denominator).InRange := by
  fun_cases ofQuotient negative numerator denominator with
  | case1 => exact inRange_zero negative
  | case2 => exact trivial
  | case3 _ chosen scaled unit fraction nearest mantissa exponent settled notGreat =>
      have rounded : nearest ≤ 2 ^ 53 := by
        have bounded :=
          roundQuotient_le (scaleDown_lt_iff.mpr (lt_of_exponentFor numerator positive))
        rwa [fraction] at bounded
      have least : leastExponent ≤ chosen := leastExponent_le_exponentFor numerator denominator
      -- a mantissa with a bit too many is the power of two behind the last one
      by_cases whole : nearest = Nat.pow 2 53
      · rw [if_pos whole] at settled
        obtain ⟨rfl, rfl⟩ := Prod.mk.inj settled
        exact ⟨Nat.pow_lt_pow_right (by decide) (by decide), by omega, by omega⟩
      · rw [if_neg whole] at settled
        obtain ⟨rfl, rfl⟩ := Prod.mk.inj settled
        exact ⟨lt_of_le_of_ne rounded whole, least, by omega⟩

/-! ## Reading numerals -/

theorem inRange_ofDecimal (negative : Bool) (digits count : Nat) (scale : Int) :
    (ofDecimal negative digits count scale).InRange := by
  unfold ofDecimal
  split
  · exact inRange_zero negative
  split
  · split
    · exact trivial
    · exact inRange_ofQuotient negative _ Nat.one_pos
  split
  · exact inRange_zero negative
  · exact inRange_ofQuotient negative _ (Nat.pow_pos (by decide))

theorem inRange_of_unsignedReal? {negative : Bool} {text : List Char} {double : Binary64}
    (read : Number.unsignedReal? negative text = some double) : double.InRange := by
  have fromDigits {digits rest : List Char} {size count : Nat} {places : Int}
      (found : (if digits = [] then none else (Number.exponent? rest).map fun exponent =>
        ofDecimal negative size count (exponent - places)) = some double) : double.InRange := by
    split at found
    · cases found
    · obtain ⟨exponent, _, rfl⟩ := Option.map_eq_some_iff.mp found
      exact inRange_ofDecimal _ _ _ _
  unfold Number.unsignedReal? at read
  dsimp only at read
  split at read
  · cases read
    exact trivial
  split at read
  · cases read
    exact trivial
  · exact fromDigits read

end Binary64

namespace Conversion

variable {text : List Char} {double : Binary64}

theorem exists_of_map_eq_ok {ε α : Type} {result : Except ε α} {wrap : α → Value} {value : Value}
    (mapped : result.map wrap = .ok value) : ∃ inner, result = .ok inner ∧ value = wrap inner := by
  cases result with
  | error => cases mapped
  | ok inner => exact ⟨inner, rfl, (Except.ok.inj mapped).symm⟩

theorem exists_of_parseReal {value : Value} (converts : parseReal text = .ok value) :
    ∃ double, Number.real? text = some double ∧ value = .real double := by
  unfold parseReal at converts
  split at converts
  · cases converts
  split at converts
  · next found => exact ⟨_, found, (Except.ok.inj converts).symm⟩
  · cases converts

theorem parseSocketV4_ne_real : parseSocketV4 text ≠ .ok (.real double) := by
  unfold parseSocketV4
  dsimp only
  split
  · nofun
  cases parseIpv4 (text.take _) with
  | error => nofun
  | ok host => cases parsePort _ <;> nofun

theorem parseSocketV6_ne_real : parseSocketV6 text ≠ .ok (.real double) := by
  unfold parseSocketV6
  split
  · split
    · nofun
    next host port _ =>
      cases parseIpv6 host with
      | error => nofun
      | ok address => cases parsePort port <;> nofun
  · nofun

/-- Only the conversion to doubles gives a double, callables of the calling program aside. -/
theorem real?_of_apply {conversion : Conversion} (builtin : conversion.IsBuiltin)
    (converts : conversion.apply text = .ok (.real double)) : Number.real? text = some double := by
  cases conversion with
  | supplied callable => exact builtin.elim
  | real =>
      obtain ⟨_, found, same⟩ := exists_of_parseReal converts
      rwa [Value.real.inj same]
  | integer | ipv4 | ipv6 =>
      obtain ⟨_, _, same⟩ := exists_of_map_eq_ok converts
      cases same
  | socketV4 => exact (parseSocketV4_ne_real converts).elim
  | socketV6 => exact (parseSocketV6_ne_real converts).elim
  | socket =>
      rw [apply] at converts
      split at converts
      · exact (parseSocketV6_ne_real converts).elim
      · exact (parseSocketV4_ne_real converts).elim
  | address =>
      simp only [apply] at converts
      split at converts
      · next found _ => cases found <;> cases converts
      · cases converts
  | boolean | character =>
      simp only [apply] at converts
      repeat' split at converts
      all_goals cases converts
  | text | path => cases converts

/-- The conversions of this library give doubles that sixty-four bits hold. -/
theorem inRange_of_apply {conversion : Conversion} (builtin : conversion.IsBuiltin)
    (converts : conversion.apply text = .ok (.real double)) : double.InRange := by
  have read := real?_of_apply builtin converts
  unfold Number.real? at read
  exact Binary64.inRange_of_unsignedReal? read

end Conversion

end Unformat
