import Unformat.Conversion

/-!
# Integers in decimal

The decimal numeral of an integer is read back as the integer by every kind that contains it, as
long as its digits are no more than may be read.
-/

namespace Unformat

def decimal (number : Int) : List Char := (toString number).toList

/-- The decimal digits of the size of an integer. -/
def decimalDigits (number : Int) : List Char := Nat.toDigits 10 number.natAbs

theorem decimal_of_nonneg {number : Int} (nonneg : 0 ≤ number) :
    decimal number = decimalDigits number := by
  rw [decimal, Int.toString_eq_repr, Int.repr_eq_if, if_pos nonneg, Nat.toList_repr, decimalDigits]
  congr 1
  omega

theorem decimal_of_neg {number : Int} (neg : number < 0) :
    decimal number = '-' :: decimalDigits number := by
  rw [decimal, Int.toString_eq_repr, Int.repr_eq_if, if_neg (by omega), String.toList_append,
    Nat.toList_repr, decimalDigits]
  have size : (-number).toNat = number.natAbs := by omega
  rw [size]
  rfl

theorem isDigit_of_mem_decimalDigits {number : Int} {c : Char}
    (member : c ∈ decimalDigits number) : c.isDigit = true :=
  Nat.isDigit_of_mem_toDigits (by decide) (by decide) member

theorem decimalDigits_ne_nil (number : Int) : decimalDigits number ≠ [] := Nat.toDigits_ne_nil

theorem exists_decimalDigits_cons (number : Int) :
    ∃ c rest, decimalDigits number = c :: rest ∧ c.isDigit = true := by
  obtain ⟨c, rest, standing⟩ := List.exists_cons_of_ne_nil (decimalDigits_ne_nil number)
  exact ⟨c, rest, standing, isDigit_of_mem_decimalDigits (standing ▸ List.mem_cons_self)⟩

theorem splitSign_of_digit {c : Char} {rest : List Char} (digit : c.isDigit = true) :
    Number.splitSign (c :: rest) = (false, c :: rest) := by
  unfold Number.splitSign
  split
  · simp_all
  · simp_all
  · rfl

namespace IntegerKind

structure Contains (kind : IntegerKind) (number : Int) : Prop where
  least : ∀ least ∈ kind.least?, least ≤ number
  greatest : ∀ greatest ∈ kind.greatest?, number ≤ greatest
  nonzero : kind.nonzero = true → number ≠ 0

theorem Contains.signed_of_neg {kind : IntegerKind} {number : Int}
    (contains : kind.Contains number) (neg : number < 0) : kind.signed = true := by
  cases signed : kind.signed with
  | true => rfl
  | false =>
      have bound := contains.least 0 (by simp [least?, signed])
      omega

theorem numeral?_decimal {kind : IntegerKind} {number : Int} (contains : kind.Contains number) :
    kind.numeral? (decimal number) = some (decide (number < 0), decimalDigits number) := by
  have digits : (decimalDigits number).all Char.isDigit = true :=
    List.all_eq_true.mpr fun c member => isDigit_of_mem_decimalDigits member
  by_cases neg : number < 0
  · rw [decimal_of_neg neg]
    simp [numeral?, Number.splitSign, digits, decimalDigits_ne_nil, neg,
      contains.signed_of_neg neg]
  · obtain ⟨c, rest, standing, digit⟩ := exists_decimalDigits_cons number
    rw [decimal_of_nonneg (by omega)]
    rw [standing] at digits ⊢
    simp only [numeral?, splitSign_of_digit digit]
    simp [digits, neg]

/-- A numeral whose digits can be read is read exactly when its integer is of the kind. -/
theorem parse_eq_ok_iff_contains {kind : IntegerKind} {text digits : List Char} {negative : Bool}
    {size : Nat} {number : Int} (found : kind.numeral? text = some (negative, digits))
    (read : Number.natural digits = .ok size) :
    kind.parse text = .ok number ↔
      kind.Contains (Number.signed negative size) ∧ number = Number.signed negative size := by
  rw [parse, found]
  simp only [read]
  generalize Number.signed negative size = value
  constructor
  · intro parsed
    split at parsed
    · cases parsed
    split at parsed
    · cases parsed
    split at parsed
    · cases parsed
    next notSmall notLarge notZero =>
      refine ⟨⟨?_, ?_, ?_⟩, (Except.ok.inj parsed).symm⟩
      · intro least given
        simpa [Option.mem_def.mp given] using notSmall
      · intro greatest given
        simpa [Option.mem_def.mp given] using notLarge
      · exact fun nonzero zero => notZero ⟨nonzero, zero⟩
  · rintro ⟨contains, rfl⟩
    rw [if_neg, if_neg, if_neg]
    · exact fun ⟨nonzero, zero⟩ => contains.nonzero nonzero zero
    · rw [Option.any_eq_true]
      rintro ⟨greatest, given, less⟩
      exact Int.not_lt.mpr (contains.greatest greatest given) (of_decide_eq_true less)
    · rw [Option.any_eq_true]
      rintro ⟨least, given, less⟩
      exact Int.not_lt.mpr (contains.least least given) (of_decide_eq_true less)

/-- The decimal numeral of an integer is read back. -/
theorem parse_decimal {kind : IntegerKind} {number : Int} (contains : kind.Contains number)
    (short : (decimalDigits number).length ≤ Number.digitLimit) :
    kind.parse (decimal number) = .ok number := by
  have read : Number.natural (decimalDigits number) = .ok number.natAbs := by
    rw [Number.natural, if_neg (by omega), decimalDigits, Nat.ofDigitChars_ten_toDigits]
  have value : Number.signed (decide (number < 0)) number.natAbs = number := by
    unfold Number.signed
    by_cases neg : number < 0
    · simp only [neg, decide_true, if_true]
      omega
    · simp only [neg, decide_false, Bool.false_eq_true, if_false]
      omega
  refine (parse_eq_ok_iff_contains (numeral?_decimal contains) read).mpr ?_
  rw [value]
  exact ⟨contains, rfl⟩

end IntegerKind

end Unformat
