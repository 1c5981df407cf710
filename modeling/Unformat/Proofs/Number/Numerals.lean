import Mathlib.Algebra.Ring.Int.Defs
import Mathlib.Algebra.Ring.Nat
import Unformat.Proofs.Number.Decimal

/-!
# What numerals denote

The digits of a numeral count by their places.  A numeral with no more digits than may be read is
read by a kind of integers exactly when it denotes an integer of the kind, and then as that integer.
-/

namespace Unformat

/-- The number that decimal digits denote by their places. -/
def digitsValue : List Char → Nat
  | [] => 0
  | c :: rest => (c.toNat - '0'.toNat) * 10 ^ rest.length + digitsValue rest

/-- The integer that decimal digits denote, with a sign before them or none. -/
def numeralValue : List Char → Int
  | '-' :: digits => -digitsValue digits
  | '+' :: digits => digitsValue digits
  | digits => digitsValue digits

theorem ofDigitChars_eq (digits : List Char) (start : Nat) :
    Nat.ofDigitChars 10 digits start = start * 10 ^ digits.length + digitsValue digits := by
  induction digits generalizing start with
  | nil => simp [digitsValue, Nat.ofDigitChars_nil]
  | cons c rest ih =>
      rw [Nat.ofDigitChars_cons, ih, digitsValue, List.length_cons, Nat.pow_succ, Nat.add_mul]
      rw [Nat.add_assoc, Nat.mul_comm 10, Nat.mul_assoc, Nat.mul_comm 10]

/-- Digits, with a sign before them or none; a minus sign only where integers are signed. -/
inductive IsNumeral (signed : Bool) : List Char → Prop
  | bare {digits : List Char} (passes : ∀ c ∈ digits, c.isDigit = true) (solid : digits ≠ []) :
      IsNumeral signed digits
  | plus {digits : List Char} (passes : ∀ c ∈ digits, c.isDigit = true) (solid : digits ≠ []) :
      IsNumeral signed ('+' :: digits)
  | minus {digits : List Char} (allowed : signed = true)
      (passes : ∀ c ∈ digits, c.isDigit = true) (solid : digits ≠ []) :
      IsNumeral signed ('-' :: digits)

theorem IsNumeral.mem_cases {signed : Bool} {text : List Char} (isNumeral : IsNumeral signed text)
    {c : Char} (member : c ∈ text) : c.isDigit = true ∨ c = '+' ∨ c = '-' := by
  cases isNumeral with
  | bare passes solid => exact .inl (passes c member)
  | plus passes solid =>
      exact (List.mem_cons.mp member).elim (fun same => .inr (.inl same))
        fun inside => .inl (passes c inside)
  | minus allowed passes solid =>
      exact (List.mem_cons.mp member).elim (fun same => .inr (.inr same))
        fun inside => .inl (passes c inside)

theorem numeralValue_of_digit {c : Char} {rest : List Char} (digit : c.isDigit = true) :
    numeralValue (c :: rest) = digitsValue (c :: rest) := by
  unfold numeralValue
  split
  · simp_all
  · simp_all
  · rfl

namespace IntegerKind

/-- An integer of the kind: it lies within the bounds that the width and the sign give, and it is
not zero where zero is left out. -/
def Holds (kind : IntegerKind) (number : Int) : Prop :=
  (match kind.signed, kind.bits with
    | true, some bits => -2 ^ (bits - 1) ≤ number ∧ number ≤ 2 ^ (bits - 1) - 1
    | false, some bits => 0 ≤ number ∧ number ≤ 2 ^ bits - 1
    | true, none => True
    | false, none => 0 ≤ number) ∧
  (kind.nonzero = true → number ≠ 0)

/-- The bounds that are checked are those of the kind. -/
theorem contains_iff_holds {kind : IntegerKind} {number : Int} :
    kind.Contains number ↔ kind.Holds number := by
  have parts : kind.Contains number ↔ (∀ least ∈ kind.least?, least ≤ number) ∧
      (∀ greatest ∈ kind.greatest?, number ≤ greatest) ∧ (kind.nonzero = true → number ≠ 0) :=
    ⟨fun given => ⟨given.least, given.greatest, given.nonzero⟩,
      fun ⟨least, greatest, nonzero⟩ => ⟨least, greatest, nonzero⟩⟩
  rw [parts, Holds, ← and_assoc]
  refine and_congr_left fun _ => ?_
  rcases kind with ⟨_ | _, _ | bits, nonzero⟩ <;> simp [least?, greatest?]

/-! ## Reading a numeral -/

variable {kind : IntegerKind} {text : List Char}

theorem exists_numeral?_of_isNumeral (isNumeral : IsNumeral kind.signed text) :
    ∃ negative digits, kind.numeral? text = some (negative, digits) ∧
      digits.length = text.countP Char.isDigit ∧
      Number.signed negative (Nat.ofDigitChars 10 digits 0) = numeralValue text := by
  have counted {digits : List Char} (passes : ∀ c ∈ digits, c.isDigit = true) :
      digits.length = digits.countP Char.isDigit := (List.countP_eq_length.mpr passes).symm
  cases isNumeral with
  | bare passes solid =>
      obtain ⟨c, rest, rfl⟩ := List.exists_cons_of_ne_nil solid
      have digit := passes c List.mem_cons_self
      refine ⟨false, c :: rest, ?_, counted passes, ?_⟩
      · simp only [numeral?, splitSign_of_digit digit]
        simpa using passes
      · simp [numeralValue_of_digit digit, ofDigitChars_eq, Number.signed]
  | @plus digits passes solid =>
      refine ⟨false, digits, ?_, ?_, ?_⟩
      · simpa [numeral?, Number.splitSign, solid] using passes
      · rw [List.countP_cons_of_neg (by decide), counted passes]
      · simp [numeralValue, ofDigitChars_eq, Number.signed]
  | @minus digits allowed passes solid =>
      refine ⟨true, digits, ?_, ?_, ?_⟩
      · simpa [numeral?, Number.splitSign, solid, allowed] using passes
      · rw [List.countP_cons_of_neg (by decide), counted passes]
      · simp [numeralValue, ofDigitChars_eq, Number.signed]

theorem isNumeral_of_numeral? {negative : Bool} {digits : List Char}
    (found : kind.numeral? text = some (negative, digits)) : IsNumeral kind.signed text := by
  simp only [numeral?] at found
  split at found
  · next holds =>
      unfold Number.splitSign at holds
      simp only [List.all_eq_true] at holds
      split at holds
      · exact .plus holds.2.1 holds.1
      · exact .minus (holds.2.2 rfl) holds.2.1 holds.1
      · exact .bare holds.2.1 holds.1
  · cases found

theorem isNumeral_of_parse {number : Int} (parsed : kind.parse text = .ok number) :
    IsNumeral kind.signed text := by
  cases found : kind.numeral? text with
  | none => simp [parse, found] at parsed
  | some parts => exact isNumeral_of_numeral? found

/-- A text is read as an integer exactly when it is a numeral of one of the kind. -/
theorem parse_eq_ok_iff {number : Int} (short : text.countP Char.isDigit ≤ Number.digitLimit) :
    kind.parse text = .ok number ↔
      IsNumeral kind.signed text ∧ kind.Holds (numeralValue text) ∧
        number = numeralValue text := by
  by_cases isNumeral : IsNumeral kind.signed text
  · obtain ⟨negative, digits, found, count, value⟩ := exists_numeral?_of_isNumeral isNumeral
    have read : Number.natural digits = .ok (Nat.ofDigitChars 10 digits 0) := by
      rw [Number.natural, if_neg (by omega)]
    rw [parse_eq_ok_iff_contains found read, value, contains_iff_holds]
    simp [isNumeral]
  · exact iff_of_false (fun parsed => isNumeral (isNumeral_of_parse parsed))
      fun given => isNumeral given.1

end IntegerKind

end Unformat
