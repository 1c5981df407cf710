import Mathlib.Algebra.Group.Nat.Defs
import Unformat.Text.Quoted

/-!
# Reading back a quoted text

What a quoted text writes between its marks stands for the text. The argument goes one character
at a time: `Spelling` says in which ways a character may be written, and each way is read back as
that character, whatever follows.
-/

namespace Unformat.Text

namespace Hex

theorem digitValue?_digitChar : ∀ digit < 16, digitValue? (Nat.digitChar digit) = some digit := by
  decide

theorem value_append_digitChar (digits : List Char) {digit : Nat} (small : digit < 16) :
    value (digits ++ [Nat.digitChar digit]) = value digits * 16 + digit := by
  simp [value, digitValue?_digitChar digit small]

theorem length_fixed (width number : Nat) : (fixed width number).length = width := by
  induction width generalizing number with
  | zero => rfl
  | succ width ih => simp [fixed, ih]

/-- Digits that are enough for a number denote it. -/
theorem value_fixed {width number : Nat} (enough : number < 16 ^ width) :
    value (fixed width number) = number := by
  induction width generalizing number with
  | zero =>
      obtain rfl := Nat.lt_one_iff.mp enough
      rfl
  | succ width ih =>
      have front : number / 16 < 16 ^ width := by
        rw [Nat.pow_succ'] at enough
        exact Nat.div_lt_of_lt_mul enough
      rw [fixed, value_append_digitChar _ (Nat.mod_lt number (by decide)), ih front]
      omega

theorem exists_digit_of_mem_fixed {width number : Nat} {c : Char}
    (member : c ∈ fixed width number) : ∃ digit < 16, c = Nat.digitChar digit := by
  induction width generalizing number with
  | zero => cases member
  | succ width ih =>
      rcases List.mem_append.mp member with front | last
      · exact ih front
      · exact ⟨number % 16, Nat.mod_lt number (by decide), List.mem_singleton.mp last⟩

end Hex

namespace Quoted

/-- A quotation mark. -/
def IsMark (c : Char) : Prop := c = '\'' ∨ c = '"'

instance : DecidablePred IsMark := fun c => inferInstanceAs (Decidable (c = '\'' ∨ c = '"'))

/-- The letters that stand for a character behind a backslash. -/
def letters : List (Char × Char) :=
  [('n', '\n'), ('r', '\r'), ('t', '\t'), ('a', '\x07'), ('b', '\x08'), ('f', '\x0c'),
    ('v', '\x0b')]

/-- The letters that hexadecimal digits stand behind, with their number. -/
def widths : List (Char × Nat) := [('x', 2), ('u', 4), ('U', 8)]

/-- The ways in which a character is written between marks. -/
inductive Spelling (mark : Char) : Char → List Char → Prop where
  | masked {c : Char} : c = mark ∨ c = '\\' → Spelling mark c ['\\', c]
  | lettered {letter c : Char} : (letter, c) ∈ letters → Spelling mark c ['\\', letter]
  | numeric {letter c : Char} {width : Nat} : (letter, width) ∈ widths → c.toNat < 16 ^ width →
      Spelling mark c ('\\' :: letter :: Hex.fixed width c.toNat)
  | plain {c : Char} : c ≠ mark → c ≠ '\\' → breaksLiteral c = false → Spelling mark c [c]

theorem isMark_delimiterFor (text : List Char) : IsMark (delimiterFor text) := by
  unfold delimiterFor
  split
  · exact .inr rfl
  · exact .inl rfl

theorem spelling_numericEscape (mark c : Char) : Spelling mark c (numericEscape c) := by
  unfold numericEscape
  split
  · next small => exact .numeric (by simp [widths]) small
  · split
    · next small => exact .numeric (by simp [widths]) small
    · have valid : c.toNat.isValidChar := c.valid
      unfold Nat.isValidChar at valid
      exact .numeric (by simp [widths]) (by omega)

theorem breaksLiteral_of_isPrintable {c : Char} (printable : isPrintable c = true) :
    breaksLiteral c = false := by
  have bound : 32 ≤ c.toNat := by
    unfold isPrintable at printable
    split at printable
    · simp only [Bool.and_eq_true, decide_eq_true_eq] at printable
      exact printable.1
    · omega
  have notFeed : c ≠ '\n' := by
    rintro rfl
    simp at bound
  have notReturn : c ≠ '\r' := by
    rintro rfl
    simp at bound
  have notNul : c.toNat ≠ 0 := by omega
  simp [breaksLiteral, notFeed, notReturn, notNul]

/-- Every character is written in one of these ways. -/
theorem spelling_escapeChar (mark c : Char) : Spelling mark c (escapeChar mark c) := by
  unfold escapeChar
  split
  · next special => exact .masked special
  · next ordinary =>
      obtain ⟨notMark, notBackslash⟩ := not_or.mp ordinary
      split
      · next feed => exact .lettered (by simp [letters, feed])
      · split
        · next ret => exact .lettered (by simp [letters, ret])
        · split
          · next tab => exact .lettered (by simp [letters, tab])
          · split
            · next printable =>
                exact .plain notMark notBackslash (breaksLiteral_of_isPrintable printable)
            · exact spelling_numericEscape mark c

theorem Spelling.length_pos {mark c : Char} {spelled : List Char}
    (spelling : Spelling mark c spelled) : 0 < spelled.length := by
  cases spelling <;> simp

/-! ## One character -/

section Reading

variable [CharacterTable]

theorem character_toNat (c : Char) : CharacterTable.character c.toNat = c := by
  have valid : c.toNat.isValidChar := c.valid
  rw [CharacterTable.character, if_pos valid, Char.ofNat_toNat]

theorem numericCharacter?_fixed {width : Nat} {c : Char} (enough : c.toNat < 16 ^ width)
    (rest : List Char) :
    numericCharacter? width (Hex.fixed width c.toNat ++ rest) = some (c, rest) := by
  have front : (Hex.fixed width c.toNat ++ rest).take width = Hex.fixed width c.toNat := by
    rw [List.take_left' (Hex.length_fixed width c.toNat)]
  have behind : (Hex.fixed width c.toNat ++ rest).drop width = rest := by
    rw [List.drop_left' (Hex.length_fixed width c.toNat)]
  have digits : (Hex.fixed width c.toNat).all Hex.isDigit = true := by
    rw [List.all_eq_true]
    intro d member
    obtain ⟨digit, small, rfl⟩ := Hex.exists_digit_of_mem_fixed member
    simp [Hex.isDigit, Hex.digitValue?_digitChar digit small]
  have valid : c.toNat.isValidChar := c.valid
  have small : c.toNat < 0x110000 := by
    unfold Nat.isValidChar at valid
    omega
  simp only [numericCharacter?, front, behind, Hex.length_fixed, Hex.value_fixed enough, digits,
    small, and_self, if_true, character_toNat]

theorem escaped?_masked {mark c : Char} (isMark : IsMark mark) (special : c = mark ∨ c = '\\')
    (rest : List Char) : escaped? (c :: rest) = some ([c], rest) := by
  rcases special with rfl | rfl
  · rcases isMark with rfl | rfl <;> rfl
  · rfl

theorem escaped?_lettered {letter c : Char} (listed : (letter, c) ∈ letters) (rest : List Char) :
    escaped? (letter :: rest) = some ([c], rest) := by
  simp only [letters, List.mem_cons, Prod.mk.injEq, List.not_mem_nil, or_false] at listed
  rcases listed with ⟨rfl, rfl⟩ | ⟨rfl, rfl⟩ | ⟨rfl, rfl⟩ | ⟨rfl, rfl⟩ | ⟨rfl, rfl⟩ |
    ⟨rfl, rfl⟩ | ⟨rfl, rfl⟩ <;> rfl

theorem escaped?_numeric {letter : Char} {width : Nat} (listed : (letter, width) ∈ widths)
    (text : List Char) :
    escaped? (letter :: text) =
      (numericCharacter? width text).map fun (c, rest) => ([c], rest) := by
  simp only [widths, List.mem_cons, Prod.mk.injEq, List.not_mem_nil, or_false] at listed
  rcases listed with ⟨rfl, rfl⟩ | ⟨rfl, rfl⟩ | ⟨rfl, rfl⟩ <;> rfl

/-- A character that is written in one of the ways is read back in one step. -/
theorem unescapeWithin_spelling {mark c : Char} (isMark : IsMark mark) {spelled : List Char}
    (spelling : Spelling mark c spelled) (steps : Nat) (rest : List Char) :
    unescapeWithin (steps + 1) (spelled ++ rest) = (unescapeWithin steps rest).map (c :: ·) := by
  have behind (text : List Char) (found : escaped? text = some ([c], rest)) :
      unescapeWithin (steps + 1) ('\\' :: text) = (unescapeWithin steps rest).map (c :: ·) := by
    rw [unescapeWithin, found]
    cases result : unescapeWithin steps rest <;> simp [result]
  cases spelling with
  | masked special => exact behind (c :: rest) (escaped?_masked isMark special rest)
  | lettered listed => exact behind (_ :: rest) (escaped?_lettered listed rest)
  | @numeric letter _ width listed enough =>
      refine behind (letter :: (Hex.fixed width c.toNat ++ rest)) ?_
      rw [escaped?_numeric listed, numericCharacter?_fixed enough]
      rfl
  | plain notMark notBackslash whole =>
      rw [List.singleton_append, unescapeWithin, whole]
      · rfl
      · exact notBackslash

/-! ## Whole texts -/

theorem unescapeWithin_escaped {mark : Char} (isMark : IsMark mark) (text : List Char)
    {steps : Nat} (enough : (text.flatMap (escapeChar mark)).length ≤ steps) :
    unescapeWithin steps (text.flatMap (escapeChar mark)) = some text := by
  -- a character takes one step however long its spelling is, so steps may be left over
  induction text generalizing steps with
  | nil => cases steps <;> rfl
  | cons c text ih =>
      have positive := (spelling_escapeChar mark c).length_pos
      rw [List.flatMap_cons, List.length_append] at enough
      match steps with
      | 0 => omega
      | steps + 1 =>
          rw [List.flatMap_cons, unescapeWithin_spelling isMark (spelling_escapeChar mark c),
            ih (by omega)]
          rfl

/-- What is written between marks stands for the text. -/
theorem unescape?_escaped {mark : Char} (isMark : IsMark mark) (text : List Char) :
    unescape? (text.flatMap (escapeChar mark)) = some text :=
  unescapeWithin_escaped isMark text (Nat.le_refl _)

end Reading

/-- A quoted text is longer than the text. -/
theorem length_lt_length_quoteChars (text : List Char) :
    text.length + 1 < (quoteChars text).length := by
  have inside (mark : Char) : text.length ≤ (text.flatMap (escapeChar mark)).length := by
    induction text with
    | nil => exact Nat.le_refl _
    | cons c text ih =>
        have positive := (spelling_escapeChar mark c).length_pos
        rw [List.flatMap_cons, List.length_append, List.length_cons]
        omega
  have within := inside (delimiterFor text)
  rw [quoteChars]
  simp only [List.length_cons, List.length_append, List.length_nil]
  omega

end Quoted

end Unformat.Text
