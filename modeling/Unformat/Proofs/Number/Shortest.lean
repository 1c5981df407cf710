import Mathlib.Tactic.Ring
import Unformat.Number.Shortest
import Unformat.Proofs.Number.Rounding

/-!
# Seventeen digits

The search for the shortest decimal of a double never comes to its end: the decimal point is not put
too far to the right, so the decimals of seventeen digits stand closer together than the rounding
interval is wide, and a neighbour of the double among them reads back.
-/

namespace Unformat.Number

namespace RoundingInterval

/-- The double lies between the ends of its interval, and zero is outside. -/
structure Surrounds (interval : RoundingInterval) : Prop where
  denominator_pos : 0 < interval.denominator
  low_pos : 0 < interval.low
  low_lt : interval.low < interval.value
  lt_high : interval.value < interval.high

/-- The double is no less than the power of ten. -/
def Reaches (interval : RoundingInterval) (power : Int) : Prop :=
  (interval.denominator : ℚ) * 10 ^ power ≤ interval.value

variable {interval : RoundingInterval}

/-- A power as a quotient of naturals. -/
theorem zpow_eq_div {base : ℚ} (nonzero : base ≠ 0) (power : Int) :
    base ^ power = base ^ power.toNat / base ^ (-power).toNat := by
  rw [← zpow_natCast, ← zpow_natCast, ← zpow_sub₀ nonzero]
  congr 1
  omega

theorem mul_zpow_le_iff {size bound : Nat} {power : Int} : (size : ℚ) * 10 ^ power ≤ bound ↔
    size * 10 ^ power.toNat ≤ bound * 10 ^ (-power).toNat := by
  have positive : (0 : ℚ) < 10 ^ (-power).toNat := by positivity
  rw [zpow_eq_div (by norm_num), ← mul_div_assoc, div_le_iff₀ positive]
  exact_mod_cast Iff.rfl

theorem mul_zpow_lt_iff {size bound : Nat} {power : Int} : (size : ℚ) * 10 ^ power < bound ↔
    size * 10 ^ power.toNat < bound * 10 ^ (-power).toNat := by
  have positive : (0 : ℚ) < 10 ^ (-power).toNat := by positivity
  rw [zpow_eq_div (by norm_num), ← mul_div_assoc, div_lt_iff₀ positive]
  exact_mod_cast Iff.rfl

/-! ## The decimal point -/

/-- The search for the point goes on only while the double is no less than the power of ten. -/
theorem reaches_pointFrom (steps : Nat) {point : Int} (reaches : interval.Reaches (point - 1)) :
    interval.Reaches (interval.pointFrom steps point - 1) := by
  fun_induction interval.pointFrom steps point with
  | case1 | case2 => exact reaches
  | case3 steps point below above ih =>
      refine ih ?_
      rw [add_sub_cancel_right, Reaches, mul_zpow_le_iff]
      simp only [below, Nat.pow_eq] at above
      split at above
      · next nonneg =>
          have none : (-point).toNat = 0 := by omega
          simpa [none] using above
      · next negative =>
          have none : point.toNat = 0 := by omega
          simpa [none] using above

/-- Where the search for the decimal point of a number of so many bits begins. -/
def firstPoint (bits : Int) : Int := (bits * 30103).fdiv 100000 - 1

/-- For as many bits as doubles have, the approximation to the logarithm of two is good enough. -/
theorem firstPoint_low {bits : Int} (least : -1100 ≤ bits) (greatest : bits < 1100) :
    (10 : ℚ) ^ (firstPoint bits - 1) ≤ 2 ^ bits := by
  have checked : ∀ shifted ∈ List.range 2200,
      10 ^ (firstPoint (shifted - 1100 : Int) - 1).toNat * 2 ^ (-(shifted - 1100 : Int)).toNat ≤
        2 ^ (shifted - 1100 : Int).toNat *
          10 ^ (-(firstPoint (shifted - 1100 : Int) - 1)).toNat := by
    decide +kernel
  have found := checked (bits + 1100).toNat (List.mem_range.mpr (by omega))
  have shifted : ((bits + 1100).toNat : Int) - 1100 = bits := by omega
  rw [shifted] at found
  rw [zpow_eq_div (by norm_num), zpow_eq_div two_ne_zero,
    div_le_div_iff₀ (by positivity) (by positivity)]
  exact_mod_cast found

/-- The decimal point of a double of so many bits is not put too far to the right. -/
theorem reaches_point (bits : Int) (least : -1100 ≤ bits) (greatest : bits < 1100)
    (given : (interval.value.log2 : Int) - interval.denominator.log2 = bits)
    (below : (interval.denominator : ℚ) * 2 ^ bits ≤ interval.value) :
    interval.Reaches (interval.point - 1) := by
  have first : interval.Reaches (firstPoint bits - 1) := by
    refine le_trans ?_ below
    gcongr
    exact firstPoint_low least greatest
  rw [point, given]
  exact reaches_pointFrom 4 first

/-! ## Neighbours -/

/-- A decimal below the double that does not read back is no more than the low end. -/
theorem le_low_of_not_holds (surrounds : interval.Surrounds) {numerator denominator : Nat}
    (positive : 0 < denominator) (out : interval.holds numerator denominator = false)
    (below : numerator * interval.denominator ≤ interval.value * denominator) :
    numerator * interval.denominator ≤ interval.low * denominator := by
  have inside : interval.value * denominator < interval.high * denominator :=
    Nat.mul_lt_mul_of_pos_right surrounds.lt_high positive
  unfold holds at out
  split at out
  all_goals
    simp only [Bool.and_eq_false_iff, decide_eq_false_iff_not] at out
    omega

/-- A decimal above the double that does not read back is no less than the high end. -/
theorem high_le_of_not_holds (surrounds : interval.Surrounds) {numerator denominator : Nat}
    (positive : 0 < denominator) (out : interval.holds numerator denominator = false)
    (above : interval.value * denominator ≤ numerator * interval.denominator) :
    interval.high * denominator ≤ numerator * interval.denominator := by
  have inside : interval.low * denominator < interval.value * denominator :=
    Nat.mul_lt_mul_of_pos_right surrounds.low_lt positive
  unfold holds at out
  split at out
  all_goals
    simp only [Bool.and_eq_false_iff, decide_eq_false_iff_not] at out
    omega

/-- Zero does not read back. -/
theorem pos_of_holds (surrounds : interval.Surrounds) {numerator denominator : Nat}
    (positive : 0 < denominator) (inside : interval.holds numerator denominator = true) :
    0 < numerator := by
  rcases Nat.eq_zero_or_pos numerator with rfl | some
  · have low : 0 < interval.low * denominator := Nat.mul_pos surrounds.low_pos positive
    unfold holds at inside
    split at inside
    all_goals
      simp only [Bool.and_eq_true, decide_eq_true_eq] at inside
      omega
  · exact some

theorem pos_of_neighbour? (surrounds : interval.Surrounds) {point : Int} {count digits : Nat}
    (found : interval.neighbour? point count = some digits) : 0 < digits := by
  have solid {floor up : Nat} {power : Nat}
      (lower : interval.holds (floor * up) (Nat.pow 10 power) = true) : 0 < floor :=
    Nat.pos_of_mul_pos_right (pos_of_holds surrounds (Nat.pow_pos (by decide)) lower)
  revert found
  fun_cases interval.neighbour? point count with
  | case1 => exact nofun
  | case2 scale up down floor lower upper _ reads =>
      intro found
      exact Option.some.inj found ▸ solid reads
  | case3 =>
      rintro ⟨⟩
      exact Nat.succ_pos _
  | case4 scale up down floor remainder unit lower upper _ reads =>
      intro found
      exact Option.some.inj found ▸ solid reads
  | case5 =>
      rintro ⟨⟩
      exact Nat.succ_pos _
  | case6 scale up down floor remainder unit lower upper _ reads =>
      rintro ⟨⟩
      exact Nat.add_pos_left (solid reads) _

/-- When the decimals of so many digits stand closer together than the interval is wide, one of the
neighbours of the double reads back. -/
theorem neighbour?_ne_none (surrounds : interval.Surrounds) {point : Int} {count : Nat}
    (close : interval.denominator * 10 ^ (point - count).toNat <
      (interval.high - interval.low) * 10 ^ (-(point - count)).toNat) :
    interval.neighbour? point count ≠ none := by
  fun_cases interval.neighbour? point count with
  | case1 scale up down floor lower upper upperOut lowerOut =>
      have positive : 0 < down := Nat.pow_pos (by decide)
      have unitPos : 0 < interval.denominator * up :=
        Nat.mul_pos surrounds.denominator_pos (Nat.pow_pos (by decide))
      have front : floor * up * interval.denominator ≤ interval.value * down := by
        rw [Nat.mul_assoc, Nat.mul_comm up]
        exact Nat.div_mul_le_self _ _
      have behind : interval.value * down ≤ (floor + 1) * up * interval.denominator := by
        rw [Nat.mul_assoc, Nat.mul_comm up, Nat.mul_comm (floor + 1)]
        exact (Nat.lt_mul_div_succ _ unitPos).le
      have low := le_low_of_not_holds surrounds positive lowerOut front
      have high := high_le_of_not_holds surrounds positive upperOut behind
      have width : (interval.high - interval.low) * down ≤ interval.denominator * up := by
        rw [Nat.sub_mul, Nat.sub_le_iff_le_add]
        calc interval.high * down ≤ (floor + 1) * up * interval.denominator := high
          _ = interval.denominator * up + floor * up * interval.denominator := by ring
          _ ≤ interval.denominator * up + interval.low * down := by omega
      exact (Nat.not_lt.mpr width close).elim
  | case2 | case3 | case4 | case5 | case6 => exact nofun

/-! ## The search -/

/-- A search that comes to a grid with a hit finds a digit. -/
theorem pos_of_search (surrounds : interval.Surrounds) {point : Int} {steps count last : Nat}
    (hit : interval.neighbour? point last ≠ none) (early : count ≤ last)
    (reached : last < count + steps) : 0 < (interval.search point steps count).digits := by
  induction steps generalizing count with
  | zero => omega
  | succ steps ih =>
      rw [search]
      split
      · next missed =>
          have other : count ≠ last := by
            rintro rfl
            exact hit missed
          exact ih (by omega) (by omega)
      · next digits found =>
          split
          · exact Nat.pow_pos (by decide)
          · exact pos_of_neighbour? surrounds found

/-! ## Doubles -/

variable {mantissa : Nat} {exponent : Int}

theorem surrounds_of (positive : 0 < mantissa) : (of mantissa exponent).Surrounds := by
  have up : 0 < Nat.pow 2 exponent.toNat := Nat.pow_pos (by decide)
  refine ⟨Nat.mul_pos (by decide) (Nat.pow_pos (by decide)), ?_, ?_, ?_⟩
  · refine Nat.mul_pos ?_ up
    split <;> omega
  · refine Nat.mul_lt_mul_of_pos_right ?_ up
    split <;> omega
  · exact Nat.mul_lt_mul_of_pos_right (by omega) up

theorem value_of : (of mantissa exponent).value = mantissa * 2 ^ (2 + exponent.toNat) := by
  simp only [of, Nat.pow_eq]
  ring

theorem denominator_of : (of mantissa exponent).denominator = 2 ^ (2 + (-exponent).toNat) := by
  simp only [of, Nat.pow_eq]
  ring

theorem log2_mul_two_pow (positive : 0 < mantissa) (power : Nat) :
    (mantissa * 2 ^ power).log2 = mantissa.log2 + power := by
  have above : 0 < 2 ^ power := Nat.two_pow_pos power
  rw [Nat.log2_eq_iff (Nat.mul_pos positive above).ne']
  constructor
  · rw [pow_add]
    exact Nat.mul_le_mul_right _ (Nat.log2_self_le positive.ne')
  · rw [add_right_comm, pow_add]
    exact Nat.mul_lt_mul_of_pos_right Nat.lt_log2_self above

/-- The decimal point of a double that sixty-four bits hold is not put too far to the right. -/
theorem reaches_of (positive : 0 < mantissa)
    (inRange : (Binary64.finite false mantissa exponent).InRange) :
    (of mantissa exponent).Reaches ((of mantissa exponent).point - 1) := by
  obtain ⟨small, least, greatest⟩ := inRange
  have bits : mantissa.log2 < 53 := (Nat.log2_lt positive.ne').mpr small
  have log2Value : (of mantissa exponent).value.log2 = mantissa.log2 + (2 + exponent.toNat) := by
    rw [value_of, log2_mul_two_pow positive]
  have log2Denominator : (of mantissa exponent).denominator.log2 = 2 + (-exponent).toNat := by
    rw [denominator_of, Nat.log2_two_pow]
  have below : (2 : ℚ) ^ (of mantissa exponent).value.log2 ≤ (of mantissa exponent).value := by
    have solid : (of mantissa exponent).value ≠ 0 := by
      rw [value_of]
      exact (Nat.mul_pos positive (Nat.two_pow_pos _)).ne'
    exact_mod_cast Nat.log2_self_le solid
  simp only [Binary64.leastExponent, Binary64.greatestExponent] at least greatest
  refine reaches_point (mantissa.log2 + exponent) (by omega) (by omega) (by omega) ?_
  refine le_of_eq_of_le ?_ below
  rw [denominator_of, log2Value]
  push_cast
  rw [← zpow_natCast, ← zpow_natCast, ← zpow_add₀ two_ne_zero]
  congr 1
  push_cast
  omega

/-- The rounding interval is wider than the double divided by so many that seventeen digits can tell
apart. -/
theorem value_lt_of (positive : 0 < mantissa) (small : mantissa < 2 ^ 53) :
    (of mantissa exponent).value <
      10 ^ 16 * ((of mantissa exponent).high - (of mantissa exponent).low) := by
  have up : 0 < Nat.pow 2 exponent.toNat := Nat.pow_pos (by decide)
  simp only [of]
  rw [← Nat.sub_mul, ← Nat.mul_assoc]
  refine Nat.mul_lt_mul_of_pos_right ?_ up
  split
  · next whole =>
      rw [whole.1]
      decide
  · omega

/-- The decimals of seventeen digits stand closer together than the rounding interval is wide. -/
theorem close_of (positive : 0 < mantissa)
    (inRange : (Binary64.finite false mantissa exponent).InRange) :
    (of mantissa exponent).denominator * 10 ^ ((of mantissa exponent).point - (17 : Nat)).toNat <
      ((of mantissa exponent).high - (of mantissa exponent).low) *
        10 ^ (-((of mantissa exponent).point - (17 : Nat))).toNat := by
  have reaches := reaches_of positive inRange
  have wide : ((of mantissa exponent).value : ℚ) <
      10 ^ 16 * ((of mantissa exponent).high - (of mantissa exponent).low : Nat) := by
    exact_mod_cast value_lt_of positive inRange.1
  have places (point : Int) : (10 : ℚ) ^ (point - 1) = 10 ^ 16 * 10 ^ (point - (17 : Nat)) := by
    rw [← zpow_natCast, ← zpow_add₀ (by norm_num)]
    congr 1
    push_cast
    omega
  rw [Reaches, places, mul_left_comm] at reaches
  exact mul_zpow_lt_iff.mp (lt_of_mul_lt_mul_left (reaches.trans_lt wide) (by norm_num))

end RoundingInterval

/-- Seventeen digits suffice. -/
theorem shortest_digits_pos {mantissa : Nat} {exponent : Int} (positive : 0 < mantissa)
    (inRange : (Binary64.finite false mantissa exponent).InRange) :
    0 < (shortest mantissa exponent).digits := by
  have surrounds : (RoundingInterval.of mantissa exponent).Surrounds :=
    RoundingInterval.surrounds_of positive
  exact RoundingInterval.pos_of_search surrounds
    (RoundingInterval.neighbour?_ne_none surrounds (RoundingInterval.close_of positive inRange))
    (by decide) (by decide)

end Unformat.Number
