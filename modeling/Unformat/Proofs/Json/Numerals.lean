import Mathlib.Data.List.TakeWhile
import Unformat.Proofs.Json.Grammar
import Unformat.Proofs.Number.Decimal
import Unformat.Proofs.Number.Shortest

/-!
# Numerals as JSON

The decimal numeral of an integer is one of standard JSON and denotes the integer, and so is the
text of every finite double that sixty-four bits hold; its shortest decimal has a digit, so no text
begins with a zero too many.
-/

namespace Unformat

open Json (WholePart FractionPart ExponentPart Numeral)

/-! ## Digits -/

theorem isDigit_of_mem_toDigits (number : Nat) :
    ∀ c ∈ Nat.toDigits 10 number, c.isDigit = true :=
  fun _ member => Nat.isDigit_of_mem_toDigits (by decide) (by decide) member

/-- The digits of a positive number begin with another one than zero. -/
theorem exists_toDigits_cons {number : Nat} (positive : 0 < number) :
    ∃ c rest, Nat.toDigits 10 number = c :: rest ∧ c ≠ '0' := by
  induction number using Nat.strongRecOn with
  | ind number ih =>
      by_cases small : number < 10
      · have single : ∀ digit : Fin 10, 0 < digit.val → Nat.digitChar digit.val ≠ '0' := by decide
        exact ⟨_, [], Nat.toDigits_of_lt_base small, single ⟨number, small⟩ positive⟩
      · obtain ⟨c, rest, standing, nonzero⟩ := ih (number / 10) (by omega) (by omega)
        rw [Nat.toDigits_of_base_le (by decide) (by omega), standing]
        exact ⟨c, _, rfl, nonzero⟩

theorem wholePart_toDigits (number : Nat) : WholePart (Nat.toDigits 10 number) := by
  rcases Nat.eq_zero_or_pos number with rfl | positive
  · exact .zero
  · obtain ⟨c, rest, standing, nonzero⟩ := exists_toDigits_cons positive
    have each := isDigit_of_mem_toDigits number
    rw [standing] at each ⊢
    exact .digits (each c List.mem_cons_self) nonzero fun d member =>
      each d (List.mem_cons_of_mem _ member)

/-! ## Integers -/

theorem numeral_decimal (number : Int) : Numeral (decimal number) := by
  have whole : WholePart (decimalDigits number) := wholePart_toDigits number.natAbs
  by_cases neg : number < 0
  · rw [decimal_of_neg neg]
    simpa using Numeral.parts (.inr rfl) whole .none .none
  · rw [decimal_of_nonneg (by omega)]
    simpa using Numeral.parts (.inl rfl) whole .none .none

theorem splitSign_decimal (number : Int) :
    Number.splitSign (decimal number) = (decide (number < 0), decimalDigits number) := by
  by_cases neg : number < 0
  · rw [decimal_of_neg neg]
    simp [Number.splitSign, neg]
  · obtain ⟨c, rest, standing, digit⟩ := exists_decimalDigits_cons number
    rw [decimal_of_nonneg (by omega), standing, splitSign_of_digit digit]
    simp [neg]

/-- The decimal numeral of an integer denotes the integer. -/
theorem numeralValue_decimal (number : Int) : Json.numeralValue (decimal number) = (number, 0) := by
  have digits : (decimalDigits number).takeWhile Char.isDigit = decimalDigits number :=
    List.takeWhile_eq_self_iff.mpr fun c member => isDigit_of_mem_decimalDigits member
  unfold Json.numeralValue
  simp only [splitSign_decimal, digits, List.drop_length, List.append_nil]
  rw [decimalDigits, Nat.ofDigitChars_ten_toDigits]
  refine Prod.ext ?_ rfl
  dsimp only [Number.signed]
  by_cases neg : number < 0
  · simp only [neg, decide_true, if_true]
    omega
  · simp only [neg, decide_false, Bool.false_eq_true, if_false]
    omega

/-! ## Doubles -/

/-- A numeral without a sign. -/
def Json.Magnitude (text : List Char) : Prop :=
  ∃ whole fraction exponent, WholePart whole ∧ FractionPart fraction ∧ ExponentPart exponent ∧
    text = whole ++ (fraction ++ exponent)

namespace Binary64

theorem exponentPart_exponentText (exponent : Int) :
    ExponentPart (exponentText exponent).toList := by
  obtain ⟨digits, solid, each, standing⟩ : ∃ digits : List Char, digits ≠ [] ∧
      (∀ d ∈ digits, d.isDigit = true) ∧ (exponentText exponent).toList =
        'e' :: ((if exponent < 0 then ['-'] else ['+']) ++ digits) := by
    have each := isDigit_of_mem_toDigits exponent.natAbs
    have solid : Nat.toDigits 10 exponent.natAbs ≠ [] := Nat.toDigits_ne_nil
    have digits : (toString exponent.natAbs).toList = Nat.toDigits 10 exponent.natAbs := by
      rw [Nat.toString_eq_ofList_toDigits, String.toList_ofList]
    have sign : (if exponent < 0 then "e-" else "e+").toList =
        'e' :: (if exponent < 0 then ['-'] else ['+']) := by
      split <;> rfl
    unfold exponentText
    dsimp only
    rw [String.toList_append, sign]
    by_cases short : (toString exponent.natAbs).length < 2
    · refine ⟨'0' :: Nat.toDigits 10 exponent.natAbs, nofun,
        List.forall_mem_cons.mpr ⟨rfl, each⟩, ?_⟩
      rw [if_pos short, String.toList_append, digits]
      rfl
    · refine ⟨Nat.toDigits 10 exponent.natAbs, solid, each, ?_⟩
      rw [if_neg short, digits]
      rfl
  rw [standing]
  refine .digits (.inl rfl) ?_ solid each
  split
  · exact .inr (.inr rfl)
  · exact .inr (.inl rfl)

/-- The text of a decimal with a digit is a numeral. -/
theorem magnitude_decimalText {decimal : Number.Decimal} (positive : 0 < decimal.digits) :
    Json.Magnitude (decimalText decimal).toList := by
  have each := isDigit_of_mem_toDigits decimal.digits
  obtain ⟨first, others, standing, nonzero⟩ := exists_toDigits_cons positive
  have zeros (count : Nat) : ∀ c ∈ List.replicate count '0', c.isDigit = true := by
    intro c member
    obtain rfl := List.eq_of_mem_replicate member
    rfl
  rw [standing] at each
  obtain ⟨firstDigit, otherDigits⟩ := List.forall_mem_cons.mp each
  unfold decimalText
  rw [standing]
  dsimp only
  split
  · split
    · refine ⟨['0'], '.' :: (List.replicate (-decimal.point).toNat '0' ++ first :: others), [],
        .zero, .digits (by simp) (List.forall_mem_append.mpr ⟨zeros _, each⟩), .none, ?_⟩
      simp
    · next above =>
        split
        · refine ⟨first :: (others ++ List.replicate
            (decimal.point.toNat - (first :: others).length) '0'), ['.', '0'], [],
            .digits firstDigit nonzero (List.forall_mem_append.mpr ⟨otherDigits, zeros _⟩),
            .digits nofun (List.all_eq_true.mp rfl), .none, ?_⟩
          simp
        · next long =>
            obtain ⟨places, counted⟩ : ∃ places, decimal.point.toNat = places + 1 :=
              ⟨decimal.point.toNat - 1, by omega⟩
            refine ⟨first :: others.take places, '.' :: others.drop places, [],
              .digits firstDigit nonzero
                fun d member => otherDigits d (List.mem_of_mem_take member),
              .digits ?_ fun d member => otherDigits d (List.mem_of_mem_drop member), .none, ?_⟩
            · rw [counted, List.length_cons] at long
              rw [Ne, List.drop_eq_nil_iff]
              omega
            · simp [counted]
  · have exponent := exponentPart_exponentText (decimal.point - 1)
    cases others with
    | nil =>
        exact ⟨[first], [], _, .digits firstDigit nonzero otherDigits, .none, exponent, by simp⟩
    | cons second rest =>
        exact ⟨[first], '.' :: second :: rest, _, .digits firstDigit nonzero nofun,
          .digits nofun otherDigits, exponent, by simp⟩

/-- The text of a finite double is a numeral. -/
theorem numeral_text {negative : Bool} {mantissa : Nat} {exponent : Int}
    (inRange : (finite negative mantissa exponent).InRange) :
    Numeral (finite negative mantissa exponent).text.toList := by
  have magnitude : Json.Magnitude (if mantissa = 0 then "0.0"
      else decimalText (Number.shortest mantissa exponent)).toList := by
    split
    · exact ⟨['0'], ['.', '0'], [], .zero, .digits nofun (List.all_eq_true.mp rfl), .none, rfl⟩
    · next solid =>
        exact magnitude_decimalText
          (Number.shortest_digits_pos (Nat.pos_of_ne_zero solid) inRange)
  obtain ⟨whole, fraction, exponentPart, isWhole, isFraction, isExponent, written⟩ := magnitude
  unfold text
  cases negative with
  | true =>
      simpa [written] using Numeral.parts (.inr rfl) isWhole isFraction isExponent
  | false =>
      simpa [written] using Numeral.parts (.inl rfl) isWhole isFraction isExponent

end Binary64

end Unformat
