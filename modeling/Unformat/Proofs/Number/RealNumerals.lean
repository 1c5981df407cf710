import Mathlib.Data.Bool.AllAny
import Mathlib.Data.List.Sections
import Unformat.Conversion
import Unformat.Proofs.Pattern.RealNumber
import Unformat.Proofs.Text.LetterCase

/-!
# Doubles that the default pattern describes

A text that the default pattern of doubles describes is a fraction with or without an exponent, or a
special value in any letter case.  All of these are read as doubles but those whose first letter is
the dotted capital: a pattern that ignores case takes it for the letter i, which it is not when the
text is read.
-/

namespace Unformat

namespace DefaultPattern

open Pattern Number

/-! ## Special values -/

/-- The characters that pass for the letters, one for each of them. -/
theorem mem_sections_of_describes {entries : List (Char × List Char)} {word : List Char}
    (listed : ∀ entry ∈ entries, entry ∈ Text.specialLetters)
    (described : Describes (spelledAnyCase (entries.map Prod.fst)) word) :
    word ∈ (entries.map Prod.snd).sections := by
  rw [List.mem_sections]
  induction entries generalizing word with
  | nil =>
      obtain rfl : word = [] := described
      exact .nil
  | cons entry rest ih =>
      have passing {c : Char} := Text.caseless_iff_mem (c := c) (listed entry List.mem_cons_self)
      cases rest with
      | nil =>
          obtain ⟨c, holds, rfl⟩ := described
          exact .cons (passing.mp holds) .nil
      | cons next rest =>
          obtain ⟨_, behind, rfl, ⟨c, holds, rfl⟩, behindDescribed⟩ := described
          refine .cons (passing.mp holds) (ih ?_ behindDescribed)
          exact fun other member => listed other (List.mem_cons_of_mem _ member)

def infinityLetters : List (Char × List Char) :=
  [('i', ['i', 'I', 'İ']), ('n', ['n', 'N']), ('f', ['f', 'F'])]

def notANumberLetters : List (Char × List Char) :=
  [('n', ['n', 'N']), ('a', ['a', 'A']), ('n', ['n', 'N'])]

/-- Infinity or not-a-number in ASCII letters. -/
def specialNames : List (List Char) :=
  ["inf".toList, "iNf".toList, "inF".toList, "iNF".toList, "Inf".toList, "INf".toList, "InF".toList,
    "INF".toList, "nan".toList, "nAn".toList, "naN".toList, "nAN".toList, "Nan".toList,
    "NAn".toList, "NaN".toList, "NAN".toList]

/-- Infinity with the dotted capital letter. -/
def dottedNames : List (List Char) :=
  ["İnf".toList, "İNf".toList, "İnF".toList, "İNF".toList]

theorem mem_of_describes_specialValue {word : List Char}
    (described : Describes specialValue word) : word ∈ specialNames ∨ word ∈ dottedNames := by
  rcases described with spelled | spelled
  · have member : word ∈ (infinityLetters.map Prod.snd).sections :=
      mem_sections_of_describes (by decide) spelled
    have all : ∀ word ∈ (infinityLetters.map Prod.snd).sections,
        word ∈ specialNames ∨ word ∈ dottedNames := by
      decide
    exact all word member
  · have member : word ∈ (notANumberLetters.map Prod.snd).sections :=
      mem_sections_of_describes (by decide) spelled
    have all : ∀ word ∈ (notANumberLetters.map Prod.snd).sections, word ∈ specialNames := by
      decide
    exact .inl (all word member)

/-- A sign or none. -/
def signTexts : List (List Char) := [[], ['+'], ['-']]

theorem mem_signTexts {signs : List Char} (signed : Signs signs) : signs ∈ signTexts := by
  rcases describes_optional_iff.mp signed with rfl | ⟨c, holds, rfl⟩
  · decide
  · rcases holds_sign_iff.mp holds with rfl | rfl <;> decide

theorem parseReal_specialName {signs word : List Char} (signed : signs ∈ signTexts)
    (member : word ∈ specialNames) : (Conversion.parseReal (signs ++ word)).isOk = true := by
  have all : ∀ signs ∈ signTexts, ∀ word ∈ specialNames,
      (Conversion.parseReal (signs ++ word)).isOk = true := by
    decide +kernel
  exact all signs signed word member

theorem parseReal_dottedName {signs word : List Char} (signed : signs ∈ signTexts)
    (member : word ∈ dottedNames) : (Conversion.parseReal (signs ++ word)).isOk = false := by
  have all : ∀ signs ∈ signTexts, ∀ word ∈ dottedNames,
      (Conversion.parseReal (signs ++ word)).isOk = false := by
    decide +kernel
  exact all signs signed word member

/-! ## Fractions -/

theorem asciiDigits_of_numeric {text : List Char} (isNumeric : ∀ c ∈ text, c ∈ numeric) :
    asciiDigits text = text := by
  have same : ∀ c ∈ numeric, asciiDigits [c] = [c] :=
    List.all_iff_forall_prop.mp (by decide +kernel)
  induction text with
  | nil => rfl
  | cons c rest ih =>
      calc asciiDigits (c :: rest) = asciiDigits [c] ++ asciiDigits rest := rfl
        _ = [c] ++ asciiDigits rest := by rw [same c (isNumeric c List.mem_cons_self)]
        _ = c :: rest := by rw [ih fun d member => isNumeric d (List.mem_cons_of_mem _ member)]; rfl

theorem takeWhile_digits {digits behind : List Char} (passes : Digits digits)
    (stops : ∀ c ∈ behind.head?, digit.holds c = false) :
    (digits ++ behind).takeWhile Char.isDigit = digits := by
  have rest : behind.takeWhile Char.isDigit = [] := by
    cases behind with
    | nil => rfl
    | cons c rest => exact List.takeWhile_cons_of_neg (by simpa [holds_digit] using stops c rfl)
  have digits : ∀ c ∈ digits, c.isDigit = true := passes
  rw [List.takeWhile_append_of_pos digits, rest, List.append_nil]

theorem splitSign_signs {signs body : List Char} (signed : Signs signs)
    (noSign : ∀ c ∈ body.head?, sign.holds c = false) :
    ∃ negative, splitSign (signs ++ body) = (negative, body) := by
  rcases describes_optional_iff.mp signed with rfl | ⟨c, holds, rfl⟩
  · refine ⟨false, ?_⟩
    rw [List.nil_append]
    unfold splitSign
    split
    · cases noSign _ rfl
    · cases noSign _ rfl
    · rfl
  · rcases holds_sign_iff.mp holds with rfl | rfl
    · exact ⟨false, rfl⟩
    · exact ⟨true, rfl⟩

theorem exponent?_isSome {word : List Char} (isExponent : IsExponent word) :
    (exponent? word).isSome := by
  cases isExponent with
  | absent => rfl
  | @given signs digits signed passes solid =>
      have noSign : ∀ c ∈ digits.head?, sign.holds c = false :=
        fun c first => not_sign_of_digit (passes c (List.mem_of_mem_head? first))
      obtain ⟨negative, split⟩ := splitSign_signs signed noSign
      have allDigits : digits.all Char.isDigit = true := List.all_eq_true.mpr passes
      simp only [exponent?, split]
      simp [solid, allDigits]

theorem unsignedReal?_isSome {fraction exponents : List Char} (isFraction : IsFraction fraction)
    (isExponent : IsExponent exponents) (negative : Bool) :
    (unsignedReal? negative (fraction ++ exponents)).isSome := by
  have noName {name : List Char} (named : name.head?.any (· ∈ ['i', 'n']) = true) :
      lowerCase (fraction ++ exponents) ≠ name := by
    obtain ⟨c, rest, rfl, isNumeric, _⟩ := isFraction.exists_cons
    rintro rfl
    have other : ∀ c ∈ numeric, c.toLower ∉ ['i', 'n'] :=
      List.all_iff_forall_prop.mp (by decide)
    exact other c isNumeric (of_decide_eq_true named)
  have exponentRead := exponent?_isSome isExponent
  unfold unsignedReal?
  rw [if_neg, if_neg (noName rfl)]
  · cases isFraction with
    | whole passes solid =>
        have whole := takeWhile_digits passes fun c first => (isExponent.stops c first).1
        have rest : ∀ after, exponents ≠ '.' :: after := by
          rintro after rfl
          exact (isExponent.stops '.' rfl).2 rfl
        simp only [whole, List.drop_left, List.append_nil]
        rw [if_neg solid, Option.isSome_map]
        exact exponentRead
    | @point before after beforePasses afterPasses solid =>
        have point : ∀ c ∈ ('.' :: (after ++ exponents)).head?, digit.holds c = false := by
          simp only [List.head?_cons, Option.mem_some_iff, forall_eq']
          decide
        have whole := takeWhile_digits beforePasses point
        have decimals := takeWhile_digits afterPasses fun c first => (isExponent.stops c first).1
        rw [List.append_assoc, List.cons_append]
        simp only [whole, List.drop_left, decimals]
        have someDigits : before ++ after ≠ [] := by
          rw [Ne, List.append_eq_nil_iff, not_and_or]
          exact solid
        rw [if_neg someDigits, Option.isSome_map]
        exact exponentRead
  · exact not_or.mpr ⟨noName rfl, noName rfl⟩

theorem mem_numeric_of_fraction {signs fraction exponents : List Char} (signed : Signs signs)
    (isFraction : IsFraction fraction) (isExponent : IsExponent exponents) :
    ∀ c ∈ signs ++ (fraction ++ exponents), c ∈ numeric := by
  intro c member
  rcases List.mem_append.mp member with member | member
  · exact mem_numeric_of_sign (signed.holds_of_mem member)
  rcases List.mem_append.mp member with member | member
  · rcases isFraction.mem_cases member with holds | rfl
    · exact mem_numeric_of_digit holds
    · decide
  cases isExponent with
  | absent => cases member
  | given exponentSigned passes solid =>
      rcases List.mem_cons.mp member with rfl | member
      · decide
      rcases List.mem_append.mp member with member | member
      · exact mem_numeric_of_sign (exponentSigned.holds_of_mem member)
      · exact mem_numeric_of_digit (passes c member)

theorem parseReal_fraction {signs fraction exponents : List Char} (signed : Signs signs)
    (isFraction : IsFraction fraction) (isExponent : IsExponent exponents) :
    (Conversion.parseReal (signs ++ (fraction ++ exponents))).isOk = true := by
  have isNumeric := mem_numeric_of_fraction signed isFraction isExponent
  have plain : ∀ c ∈ numeric, Text.isMargin c = false ∧ c ≠ '_' :=
    List.all_iff_forall_prop.mp (by decide +kernel)
  have noSign : ∀ c ∈ (fraction ++ exponents).head?, sign.holds c = false := by
    obtain ⟨c, rest, rfl, _, noSign⟩ := isFraction.exists_cons
    simpa using noSign
  obtain ⟨negative, split⟩ := splitSign_signs signed noSign
  have read : (real? (signs ++ (fraction ++ exponents))).isSome := by
    rw [real?, asciiDigits_of_numeric isNumeric, split]
    exact unsignedReal?_isSome isFraction isExponent negative
  rw [Conversion.parseReal, if_neg]
  · cases value : real? (signs ++ (fraction ++ exponents)) with
    | none => simp [value] at read
    | some value => rfl
  · simp only [not_or, Bool.not_eq_true, Option.any_eq_false]
    refine ⟨?_, ?_, ?_⟩
    · exact fun c first => (plain c (isNumeric c (List.mem_of_mem_head? first))).1
    · exact fun c last => (plain c (isNumeric c (List.mem_of_mem_getLast? last))).1
    · exact fun member => (plain '_' (isNumeric '_' member)).2 rfl

/-! ## What converts -/

/-- Infinity with the dotted capital letter, with a sign before it or none. -/
def DottedInfinity (text : List Char) : Prop :=
  ∃ signs ∈ signTexts, ∃ name ∈ dottedNames, text = signs ++ name

/-- A text that the pattern describes is read as a double unless it spells infinity with the dotted
capital letter. -/
theorem parseReal_isOk_iff {text : List Char} (described : Describes number text) :
    (Conversion.parseReal text).isOk = true ↔ ¬ DottedInfinity text := by
  constructor
  · rintro converts ⟨signs, signed, name, dotted, rfl⟩
    rw [parseReal_dottedName signed dotted] at converts
    cases converts
  · intro notDotted
    obtain ⟨signs, body, rfl, signed, bodyCase⟩ := describes_number_iff.mp described
    rcases bodyCase with special | ⟨fraction, exponents, rfl, isFraction, isExponent⟩
    · rcases mem_of_describes_specialValue special with plain | dotted
      · exact parseReal_specialName (mem_signTexts signed) plain
      · exact absurd ⟨signs, mem_signTexts signed, body, dotted, rfl⟩ notDotted
    · exact parseReal_fraction signed isFraction isExponent

end DefaultPattern

end Unformat
