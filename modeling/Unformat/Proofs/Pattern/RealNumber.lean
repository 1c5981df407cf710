import Mathlib.Tactic.IntervalCases
import Unformat.Proofs.Pattern.Defaults
import Unformat.Proofs.Pattern.Stopping

/-!
# The default pattern of decimal fractions

The texts that the pattern describes are all matched as a whole.  Of the beginnings of such a text,
those that end inside the exponent before its first digit begin with a described text without being
described, and they are the only ones.
-/

namespace Unformat

open Pattern

namespace DefaultPattern

/-! ## The pattern read -/

/-- The characters of a word in either case, one after the other. -/
def spelledAnyCase : List Char → Pattern
  | [] => .nothing
  | [c] => .one (.caseless (.char c))
  | c :: word => .both (.one (.caseless (.char c))) (spelledAnyCase word)

def many (test : CharTest) : Pattern := .repetition (.one test) ⟨0, none, .longest⟩

def specialValue : Pattern := .either (spelledAnyCase "inf".toList) (spelledAnyCase "nan".toList)

/-- Digits with a point among them, or none. -/
def fraction : Pattern :=
  .either (.both (run digit) (.both (optional (.char '.')) (many digit)))
    (.both (.one (.char '.')) (run digit))

def exponent : Pattern := .both (.one (.char 'e')) (.both (optional sign) (run digit))

/-- A decimal fraction or a special value, with a sign before it or none. -/
def number : Pattern :=
  .both (optional sign)
    (.either specialValue (.both fraction (.repetition exponent ⟨0, some 1, .longest⟩)))

set_option maxRecDepth 4000 in
theorem compile_real : Pattern.compile real = .ok number := by
  apply compile_of_readWith
  case spelled => rfl
  case reads => rfl

theorem plain_number : number.plain := rfl

/-! ## The texts described -/

def Signs (word : List Char) : Prop := Describes (optional sign) word

def Digits (word : List Char) : Prop := ∀ c ∈ word, digit.holds c

/-- Digits with a point among them, or none. -/
inductive IsFraction : List Char → Prop
  | whole {digits : List Char} (passes : Digits digits) (solid : digits ≠ []) : IsFraction digits
  | point {before after : List Char} (beforePasses : Digits before) (afterPasses : Digits after)
      (solid : before ≠ [] ∨ after ≠ []) : IsFraction (before ++ '.' :: after)

inductive IsExponent : List Char → Prop
  | absent : IsExponent []
  | given {signs digits : List Char} (signed : Signs signs) (passes : Digits digits)
      (solid : digits ≠ []) : IsExponent ('e' :: (signs ++ digits))

theorem describes_many_iff {test : CharTest} {word : List Char} :
    Describes (many test) word ↔ ∀ c ∈ word, test.holds c := by
  rw [many, describes_tests_iff]
  simp

theorem describes_fraction_iff {word : List Char} : Describes fraction word ↔ IsFraction word := by
  constructor
  · rintro (⟨before, _, rfl, beforeDescribed, dot, after, rfl, dotDescribed, afterDescribed⟩ |
      ⟨dot, after, rfl, dotDescribed, afterDescribed⟩)
    · obtain ⟨beforePasses, solid⟩ := describes_run_iff.mp beforeDescribed
      have afterPasses := describes_many_iff.mp afterDescribed
      rcases describes_optional_iff.mp dotDescribed with rfl | ⟨c, holds, rfl⟩
      · refine .whole ?_ (by simp [solid])
        intro c member
        exact (List.mem_append.mp member).elim (beforePasses c) (afterPasses c)
      · obtain rfl : c = '.' := by simpa [CharTest.holds] using holds
        exact .point beforePasses afterPasses (.inl solid)
    · obtain ⟨afterPasses, solid⟩ := describes_run_iff.mp afterDescribed
      obtain rfl := describes_one_char_iff.mp dotDescribed
      have beforePasses : Digits [] := by simp [Digits]
      exact .point beforePasses afterPasses (.inr solid)
  · intro fraction
    cases fraction with
    | whole passes solid =>
        refine .inl ⟨word, [], by simp, describes_run_iff.mpr ⟨passes, solid⟩, [], [], rfl, ?_, ?_⟩
        · exact describes_optional_iff.mpr (.inl rfl)
        · exact describes_many_iff.mpr (by simp)
    | @point before after beforePasses afterPasses solid =>
        by_cases empty : before = []
        · subst empty
          have solid : after ≠ [] := by simpa using solid
          exact .inr ⟨['.'], after, rfl, describes_one_char_iff.mpr rfl,
            describes_run_iff.mpr ⟨afterPasses, solid⟩⟩
        · exact .inl ⟨before, _, rfl, describes_run_iff.mpr ⟨beforePasses, empty⟩, ['.'], after, rfl,
            describes_optional_iff.mpr (.inr ⟨'.', rfl, rfl⟩), describes_many_iff.mpr afterPasses⟩

theorem describes_exponents_iff {word : List Char} :
    Describes (.repetition exponent ⟨0, some 1, .longest⟩) word ↔ IsExponent word := by
  have solid : ¬ Describes exponent [] := by
    intro spelled
    obtain ⟨letter, rest, empty, letterDescribed, _⟩ := spelled
    obtain rfl := describes_one_char_iff.mp letterDescribed
    simp at empty
  rw [describes_at_most_once_iff solid]
  constructor
  · rintro (rfl | ⟨letter, _, rfl, letterDescribed, signs, digits, rfl, signed, described⟩)
    · exact .absent
    · obtain rfl := describes_one_char_iff.mp letterDescribed
      obtain ⟨passes, solid⟩ := describes_run_iff.mp described
      have exponent : IsExponent ('e' :: (signs ++ digits)) := .given signed passes solid
      exact exponent
  · intro exponent
    cases exponent with
    | absent => exact .inl rfl
    | @given signs digits signed passes solid =>
        right
        refine ⟨['e'], signs ++ digits, rfl, describes_one_char_iff.mpr rfl, ?_⟩
        exact ⟨signs, digits, rfl, signed, describes_run_iff.mpr ⟨passes, solid⟩⟩

/-- The characters of fractions, exponents and signs. -/
def numeric : List Char := "0123456789.+-e".toList

theorem mem_numeric_of_digit {c : Char} (holds : digit.holds c) : c ∈ numeric := by
  obtain ⟨low, high⟩ := holds_digit_iff.mp holds
  have lower : 48 ≤ c.toNat := low
  have upper : c.toNat ≤ 57 := high
  rw [← Char.ofNat_toNat c]
  interval_cases c.toNat <;> decide

theorem ne_letter_of_digit {c : Char} (holds : digit.holds c) : c ≠ 'e' := by
  intro same
  subst same
  revert holds
  decide

theorem not_sign_of_digit {c : Char} (holds : digit.holds c) : sign.holds c = false := by
  cases isSign : sign.holds c with
  | false => rfl
  | true => simp [not_digit_of_sign isSign] at holds

theorem mem_numeric_of_sign {c : Char} (holds : sign.holds c) : c ∈ numeric := by
  rcases holds_sign_iff.mp holds with rfl | rfl <;> decide

theorem Signs.holds_of_mem {word : List Char} (signed : Signs word) {c : Char}
    (member : c ∈ word) : sign.holds c := by
  rcases describes_optional_iff.mp signed with rfl | ⟨d, holds, rfl⟩
  · simp at member
  · rwa [List.mem_singleton.mp member]

theorem refused_of_mem_numeric {letter c : Char} (letterMember : letter ∈ "infa".toList)
    (member : c ∈ numeric) : (CharTest.caseless (.char letter)).holds c = false := by
  -- The lists are gone through as such: there are too many characters to try them all.
  have refused : ("infa".toList.all fun letter =>
      numeric.all fun c => !(CharTest.caseless (.char letter)).holds c) = true := by
    decide +kernel
  have others := List.all_eq_true.mp refused letter letterMember
  simpa using List.all_eq_true.mp others c member

theorem spelledAnyCase_of_describes {letters word : List Char}
    (described : Describes (spelledAnyCase letters) word) :
    word.length = letters.length ∧
      ∀ c ∈ word, ∃ letter ∈ letters, (CharTest.caseless (.char letter)).holds c := by
  match letters with
  | [] =>
      obtain rfl : word = [] := described
      simp
  | [letter] =>
      obtain ⟨c, holds, rfl⟩ := described
      simpa using holds
  | letter :: next :: letters =>
      obtain ⟨_, behind, rfl, ⟨c, holds, rfl⟩, behindDescribed⟩ := described
      obtain ⟨sameLength, passes⟩ := spelledAnyCase_of_describes behindDescribed
      refine ⟨by simp [sameLength], ?_⟩
      intro d member
      rcases List.mem_cons.mp member with rfl | member
      · exact ⟨letter, List.mem_cons_self, holds⟩
      · obtain ⟨other, otherMember, otherHolds⟩ := passes d member
        exact ⟨other, List.mem_cons_of_mem _ otherMember, otherHolds⟩

theorem specialValue_of_describes {word : List Char} (described : Describes specialValue word) :
    word.length = 3 ∧ ∀ c ∈ word, c ∉ numeric := by
  have apart : ∀ letters : List Char, letters.length = 3 → letters ⊆ "infa".toList →
      Describes (spelledAnyCase letters) word → word.length = 3 ∧ ∀ c ∈ word, c ∉ numeric := by
    intro letters three known spelled
    obtain ⟨sameLength, passes⟩ := spelledAnyCase_of_describes spelled
    refine ⟨sameLength.trans three, ?_⟩
    intro c member isNumeric
    obtain ⟨letter, letterMember, holds⟩ := passes c member
    rw [refused_of_mem_numeric (known letterMember) isNumeric] at holds
    exact Bool.false_ne_true holds
  rcases described with spelled | spelled
  · exact apart _ rfl (by decide) spelled
  · exact apart _ rfl (by decide) spelled

theorem IsFraction.mem_cases {word : List Char} (fraction : IsFraction word) {c : Char}
    (member : c ∈ word) : digit.holds c ∨ c = '.' := by
  cases fraction with
  | whole passes solid => exact .inl (passes c member)
  | point beforePasses afterPasses solid =>
      rcases List.mem_append.mp member with member | member
      · exact .inl (beforePasses c member)
      · exact (List.mem_cons.mp member).elim .inr fun member => .inl (afterPasses c member)

theorem IsFraction.exists_digit {word : List Char} (fraction : IsFraction word) :
    ∃ c ∈ word, digit.holds c := by
  cases fraction with
  | whole passes solid =>
      obtain ⟨c, member⟩ := List.exists_mem_of_ne_nil _ solid
      exact ⟨c, member, passes c member⟩
  | point beforePasses afterPasses solid =>
      rcases solid with solid | solid
      · obtain ⟨c, member⟩ := List.exists_mem_of_ne_nil _ solid
        exact ⟨c, by simp [member], beforePasses c member⟩
      · obtain ⟨c, member⟩ := List.exists_mem_of_ne_nil _ solid
        exact ⟨c, by simp [member], afterPasses c member⟩

theorem IsFraction.exists_cons {word : List Char} (fraction : IsFraction word) :
    ∃ c rest, word = c :: rest ∧ c ∈ numeric ∧ sign.holds c = false := by
  obtain ⟨_, member, _⟩ := fraction.exists_digit
  obtain ⟨c, rest, rfl⟩ := List.exists_cons_of_ne_nil (List.ne_nil_of_mem member)
  refine ⟨c, rest, rfl, ?_⟩
  rcases fraction.mem_cases List.mem_cons_self with holds | rfl
  · exact ⟨mem_numeric_of_digit holds, not_sign_of_digit holds⟩
  · decide

theorem IsExponent.stops {word : List Char} (exponent : IsExponent word) :
    ∀ c ∈ word.head?, digit.holds c = false ∧ c ≠ '.' := by
  cases exponent with
  | absent => simp
  | given =>
      simp only [List.head?_cons, Option.mem_some_iff, forall_eq']
      decide

/-! ## What is taken -/

section Taking

variable {cursor : Cursor} {word behind : List Char} {c : Char} {rest : List Char}

theorem fails_specialValue (counted : cursor.Counted) (standing : cursor.rest = c :: rest)
    (isNumeric : c ∈ numeric) : Fails specialValue cursor := by
  apply fails_of_plain rfl counted
  intro word described here
  obtain ⟨three, apart⟩ := specialValue_of_describes described
  obtain ⟨d, letters, rfl⟩ := List.exists_cons_of_length_pos (by omega : 0 < word.length)
  rw [standing, List.cons_prefix_cons] at here
  exact apart d List.mem_cons_self (here.1 ▸ isNumeric)

theorem takes_many {test : CharTest} (counted : cursor.Counted)
    (standing : cursor.rest = word ++ behind) (passes : ∀ c ∈ word, test.holds c)
    (stops : ∀ c ∈ behind.head?, test.holds c = false) : Takes (many test) cursor word := by
  refine takes_tests rfl counted ⟨behind, standing.symm⟩ passes (fun _ _ => rfl)
    (Nat.zero_le _) (.inr ?_)
  simpa [standing] using stops

theorem takes_signs (counted : cursor.Counted) (standing : cursor.rest = word ++ behind)
    (signed : Signs word) (stops : ∀ c ∈ behind.head?, sign.holds c = false) :
    Takes (optional sign) cursor word := by
  rcases describes_optional_iff.mp signed with rfl | ⟨c, holds, rfl⟩
  · exact takes_optional_of_stops counted (by simpa [standing] using stops)
  · exact takes_optional_of_holds counted standing holds

theorem takes_fraction (counted : cursor.Counted) (standing : cursor.rest = word ++ behind)
    (fraction : IsFraction word)
    (stops : ∀ c ∈ behind.head?, digit.holds c = false ∧ c ≠ '.') :
    Takes DefaultPattern.fraction cursor word := by
  have noDigit : ∀ c ∈ behind.head?, digit.holds c = false := fun c head => (stops c head).1
  cases fraction with
  | whole passes solid =>
      have noDot : ∀ c ∈ (cursor.past word).rest.head?, (CharTest.char '.').holds c = false := by
        intro c head
        have other := (stops c (by simpa [standing] using head)).2
        simpa [CharTest.holds] using other
      have digits := takes_run counted standing passes solid noDigit
      have dot := takes_optional_of_stops (counted.past word) noDot
      have more : Takes (many digit) ((cursor.past word).past []) [] := by
        have behindStands : ((cursor.past word).past []).rest = [] ++ behind := by simp [standing]
        exact takes_many ((counted.past word).past []) behindStands (by simp) noDigit
      have taken : Takes DefaultPattern.fraction cursor (word ++ ([] ++ [])) :=
        (digits.both (dot.both more)).left
      rwa [List.append_nil, List.append_nil] at taken
  | @point before after beforePasses afterPasses solid =>
      rw [List.append_assoc, List.cons_append] at standing
      by_cases empty : before = []
      · subst empty
        have dotFirst : cursor.rest = '.' :: (after ++ behind) := standing
        have noDigits : Fails (run digit) cursor :=
          fun next => by
            rw [run, attempt_tests_of_refused (by decide) dotFirst (by decide)]
            rfl
        have dot : Takes (.one (.char '.')) cursor ['.'] := takes_one dotFirst rfl
        have digits : Takes (run digit) (cursor.past ['.']) after := by
          have afterStands : (cursor.past ['.']).rest = after ++ behind := by simp [dotFirst]
          exact takes_run (counted.past _) afterStands afterPasses (by simpa using solid) noDigit
        exact .right noDigits.both (dot.both digits)
      · have dotStops : ∀ c ∈ ('.' :: (after ++ behind)).head?, digit.holds c = false := by
          simp only [List.head?_cons, Option.mem_some_iff, forall_eq']
          decide
        have digits := takes_run counted standing beforePasses empty dotStops
        have dotStands : (cursor.past before).rest = '.' :: (after ++ behind) := by
          simp [standing]
        have dot : Takes (optional (.char '.')) (cursor.past before) ['.'] :=
          takes_optional_of_holds (counted.past before) dotStands rfl
        have more : Takes (many digit) ((cursor.past before).past ['.']) after := by
          have afterStands : ((cursor.past before).past ['.']).rest = after ++ behind := by
            rw [Cursor.rest_past, dotStands]
            rfl
          exact takes_many ((counted.past _).past _) afterStands afterPasses noDigit
        exact (digits.both (dot.both more)).left

theorem takes_exponents (counted : cursor.Counted) (standing : cursor.rest = word)
    (exponents : IsExponent word) :
    Takes (.repetition exponent ⟨0, some 1, .longest⟩) cursor word := by
  cases exponents with
  | absent => exact takes_nothing counted (fails_one (by simp [standing])).both
  | @given signs digits signed passes solid =>
      have letter : Takes (.one (.char 'e')) cursor ['e'] := takes_one standing rfl
      have signStands : (cursor.past ['e']).rest = signs ++ digits := by simp [standing]
      have digitFirst : ∀ c ∈ digits.head?, sign.holds c = false :=
        fun c head => not_sign_of_digit (passes c (List.mem_of_mem_head? head))
      have signTakes := takes_signs (counted.past _) signStands signed digitFirst
      have digitsStand : ((cursor.past ['e']).past signs).rest = digits ++ [] := by
        rw [Cursor.rest_past, signStands, List.drop_left, List.append_nil]
      have digitsTake := takes_run ((counted.past _).past _) digitsStand passes solid (by simp)
      exact takes_once counted (by simp) (by simp [standing])
        (letter.both (signTakes.both digitsTake))

/-- A number that is not a special value is taken up to the end of the text. -/
theorem takes_number {signs fraction exponents : List Char} (counted : cursor.Counted)
    (standing : cursor.rest = signs ++ (fraction ++ exponents)) (signed : Signs signs)
    (isFraction : IsFraction fraction) (isExponent : IsExponent exponents) :
    Takes number cursor (signs ++ (fraction ++ exponents)) := by
  obtain ⟨c, rest, rfl, isNumeric, noSign⟩ := isFraction.exists_cons
  have signTakes := takes_signs counted standing signed (by simpa using noSign)
  have fractionStands : (cursor.past signs).rest = c :: rest ++ exponents := by
    rw [Cursor.rest_past, standing, List.drop_left]
  have exponentStands : ((cursor.past signs).past (c :: rest)).rest = exponents := by
    rw [Cursor.rest_past, fractionStands, List.drop_left]
  have noSpecial : Fails specialValue (cursor.past signs) :=
    fails_specialValue (counted.past _) fractionStands isNumeric
  have fractionTakes :=
    takes_fraction (counted.past _) fractionStands isFraction isExponent.stops
  have exponentTakes := takes_exponents ((counted.past _).past _) exponentStands isExponent
  exact signTakes.both (.right noSpecial (fractionTakes.both exponentTakes))

end Taking

/-! ## What is matched as a whole -/

/-- A beginning of a fraction is a fraction, unless it has no digits yet. -/
theorem IsFraction.of_prefix {word part : List Char} (fraction : IsFraction word)
    (here : part <+: word) : IsFraction part ∨ part = [] ∨ part = ['.'] := by
  by_cases empty : part = []
  · exact .inr (.inl empty)
  cases fraction with
  | whole passes solid => exact .inl (.whole (fun c member => passes c (here.subset member)) empty)
  | @point before after beforePasses afterPasses solid =>
      rcases prefix_append_cases here with inside | ⟨more, moreHere, rfl⟩
      · exact .inl (.whole (fun c member => beforePasses c (inside.subset member)) empty)
      rcases List.prefix_cons_iff.mp moreHere with rfl | ⟨decimals, rfl, decimalsHere⟩
      · rw [List.append_nil] at empty ⊢
        exact .inl (.whole beforePasses empty)
      · have decimalsPass : Digits decimals :=
          fun c member => afterPasses c (decimalsHere.subset member)
        by_cases bare : before = [] ∧ decimals = []
        · obtain ⟨rfl, rfl⟩ := bare
          exact .inr (.inr rfl)
        · exact .inl (.point beforePasses decimalsPass (not_and_or.mp bare))

/-! ## Where a match stops short -/

theorem matchesAll_number {signs fraction exponents : List Char} (signed : Signs signs)
    (isFraction : IsFraction fraction) (isExponent : IsExponent exponents) :
    MatchesAll number (signs ++ (fraction ++ exponents)) :=
  matchesAll_of_takes
    (takes_number (Cursor.counted_front _) rfl signed isFraction isExponent)

theorem describes_number_iff {text : List Char} :
    Describes number text ↔ ∃ signs body, text = signs ++ body ∧ Signs signs ∧
      (Describes specialValue body ∨ ∃ fraction exponents, body = fraction ++ exponents ∧
        IsFraction fraction ∧ IsExponent exponents) := by
  simp only [number, Describes, Signs, ← describes_fraction_iff, ← describes_exponents_iff]

/-- The text ends inside an exponent, before its first digit. -/
def OpenExponent (text : List Char) : Prop :=
  ['e'] <:+ text ∨ ['e', '+'] <:+ text ∨ ['e', '-'] <:+ text

theorem openExponent_iff {text : List Char} :
    OpenExponent text ↔ ∃ before signs, Signs signs ∧ text = before ++ 'e' :: signs := by
  constructor
  · intro given
    rcases given with ⟨before, rfl⟩ | ⟨before, rfl⟩ | ⟨before, rfl⟩
    · exact ⟨before, [], describes_optional_iff.mpr (.inl rfl), rfl⟩
    · exact ⟨before, ['+'], describes_optional_iff.mpr (.inr ⟨'+', rfl, rfl⟩), rfl⟩
    · exact ⟨before, ['-'], describes_optional_iff.mpr (.inr ⟨'-', rfl, rfl⟩), rfl⟩
  · intro given
    obtain ⟨before, signs, signed, rfl⟩ := given
    rcases describes_optional_iff.mp signed with rfl | ⟨c, holds, rfl⟩
    · exact .inl (List.suffix_append _ _)
    · rcases holds_sign_iff.mp holds with rfl | rfl
      · exact .inr (.inl (List.suffix_append _ _))
      · exact .inr (.inr (List.suffix_append _ _))

/-- A number has a character that is neither a sign nor a point. -/
theorem exists_mem_of_describes_number {text : List Char} (described : Describes number text) :
    ∃ c ∈ text, sign.holds c = false ∧ c ≠ '.' := by
  obtain ⟨signs, body, rfl, _, bodyCase⟩ := describes_number_iff.mp described
  rcases bodyCase with special | ⟨fraction, exponents, rfl, isFraction, _⟩
  · obtain ⟨three, apart⟩ := specialValue_of_describes special
    obtain ⟨c, rest, rfl⟩ := List.exists_cons_of_length_pos (by omega : 0 < body.length)
    have other := apart c List.mem_cons_self
    refine ⟨c, by simp, ?_, ?_⟩
    · exact Bool.eq_false_iff.mpr fun holds => other (mem_numeric_of_sign holds)
    · intro same
      subst same
      exact other (by decide)
  · obtain ⟨c, member, holds⟩ := isFraction.exists_digit
    refine ⟨c, by simp [member], not_sign_of_digit holds, ?_⟩
    intro same
    subst same
    revert holds
    decide

theorem not_describes_number_nil : ¬ Describes number [] := by
  intro described
  obtain ⟨c, member, _⟩ := exists_mem_of_describes_number described
  simp at member

theorem exists_getLast?_append (before : List Char) {word : List Char} (solid : word ≠ []) :
    ∃ c ∈ word, (before ++ word).getLast? = some c := by
  refine ⟨word.getLast solid, List.getLast_mem solid, ?_⟩
  rw [List.getLast?_append, List.getLast?_eq_some_getLast solid]
  rfl

/-- The last character of a number is no part of an exponent before its first digit. -/
theorem exists_getLast?_of_describes_number {text : List Char}
    (described : Describes number text) :
    ∃ c, text.getLast? = some c ∧ sign.holds c = false ∧ c ≠ 'e' := by
  obtain ⟨signs, body, rfl, _, bodyCase⟩ := describes_number_iff.mp described
  rcases bodyCase with special | ⟨fraction, exponents, rfl, isFraction, isExponent⟩
  · obtain ⟨three, apart⟩ := specialValue_of_describes special
    have solid : body ≠ [] := by
      intro same
      subst same
      simp at three
    obtain ⟨c, member, last⟩ := exists_getLast?_append signs solid
    refine ⟨c, last, ?_, ?_⟩
    · exact Bool.eq_false_iff.mpr fun holds => apart c member (mem_numeric_of_sign holds)
    · intro same
      subst same
      exact apart _ member (by decide)
  cases isExponent with
  | absent =>
      have solid : fraction ≠ [] := by
        obtain ⟨c, member, _⟩ := isFraction.exists_digit
        exact List.ne_nil_of_mem member
      obtain ⟨c, member, last⟩ := exists_getLast?_append signs solid
      refine ⟨c, by simpa using last, ?_⟩
      rcases isFraction.mem_cases member with holds | rfl
      · exact ⟨not_sign_of_digit holds, ne_letter_of_digit holds⟩
      · decide
  | @given exponentSigns digits _ passes solid =>
      obtain ⟨c, member, last⟩ :=
        exists_getLast?_append (signs ++ fraction ++ 'e' :: exponentSigns) solid
      refine ⟨c, by simpa using last, not_sign_of_digit (passes c member), ?_⟩
      exact ne_letter_of_digit (passes c member)

/-- A number does not end inside its exponent. -/
theorem not_openExponent_of_describes {text : List Char} (described : Describes number text) :
    ¬ OpenExponent text := by
  intro isOpen
  obtain ⟨before, signs, signed, rfl⟩ := openExponent_iff.mp isOpen
  obtain ⟨c, last, noSign, noLetter⟩ := exists_getLast?_of_describes_number described
  rcases describes_optional_iff.mp signed with rfl | ⟨d, holds, rfl⟩
  · simp [Ne.symm noLetter] at last
  · obtain rfl : d = c := by simpa using last
    simp [holds] at noSign

/-- A special value does not begin with any number but itself. -/
theorem eq_of_begins_specialValue {signs body shown : List Char} (signed : Signs signs)
    (special : Describes specialValue body) (part : shown <+: signs ++ body)
    (begins : Begins number shown) : shown = signs ++ body := by
  obtain ⟨three, apart⟩ := specialValue_of_describes special
  obtain ⟨word, described, here⟩ := begins
  have inside : word <+: signs ++ body := here.trans part
  obtain ⟨wordSigns, wordBody, rfl, wordSigned, wordCase⟩ := describes_number_iff.mp described
  rcases wordCase with wordSpecial | ⟨fraction, exponents, rfl, isFraction, _⟩
  · obtain ⟨wordThree, wordApart⟩ := specialValue_of_describes wordSpecial
    have enough : signs.length ≤ wordSigns.length := by
      rcases describes_optional_iff.mp wordSigned with rfl | ⟨d, _, rfl⟩
      · rcases describes_optional_iff.mp signed with rfl | ⟨c, holds, rfl⟩
        · exact Nat.le_refl _
        · obtain ⟨d, rest, rfl⟩ := List.exists_cons_of_length_pos (by omega : 0 < wordBody.length)
          obtain ⟨rfl, _⟩ := List.cons_prefix_cons.mp inside
          exact (wordApart d List.mem_cons_self (mem_numeric_of_sign holds)).elim
      · rcases describes_optional_iff.mp signed with rfl | ⟨c, _, rfl⟩ <;> simp
    apply part.eq_of_length_le
    have bound := here.length_le
    simp only [List.length_append] at bound ⊢
    omega
  · obtain ⟨c, member, holds⟩ := isFraction.exists_digit
    have located : c ∈ signs ++ body := inside.subset (by simp [member])
    rcases List.mem_append.mp located with member | member
    · rw [not_digit_of_sign (signed.holds_of_mem member)] at holds
      exact (Bool.false_ne_true holds).elim
    · exact (apart c member (mem_numeric_of_digit holds)).elim

/-- A beginning of a fraction with an exponent is matched as a whole, does not begin with a number
yet, or ends inside the exponent before its first digit. -/
theorem matchesAll_or_openExponent {signs fraction exponents shown : List Char}
    (signed : Signs signs) (isFraction : IsFraction fraction) (isExponent : IsExponent exponents)
    (part : shown <+: signs ++ (fraction ++ exponents)) (begins : Begins number shown) :
    MatchesAll number shown ∨ OpenExponent shown := by
  obtain ⟨word, described, here⟩ := begins
  obtain ⟨c, member, noSign, noDot⟩ := exists_mem_of_describes_number described
  rcases prefix_append_cases part with inside | ⟨body, bodyHere, rfl⟩
  · have holds := signed.holds_of_mem (inside.subset (here.subset member))
    simp [holds] at noSign
  rcases prefix_append_cases bodyHere with inside | ⟨rest, restHere, rfl⟩
  · rcases isFraction.of_prefix inside with isFraction | bare
    · left
      have whole := matchesAll_number signed isFraction .absent
      rwa [List.append_nil] at whole
    · have located : c ∈ signs ++ body := here.subset member
      rcases List.mem_append.mp located with member | member
      · have holds := signed.holds_of_mem member
        simp [holds] at noSign
      · rcases bare with rfl | rfl
        · simp at member
        · exact (noDot (List.mem_singleton.mp member)).elim
  cases isExponent with
  | absent =>
      obtain rfl := List.prefix_nil.mp restHere
      exact .inl (matchesAll_number signed isFraction .absent)
  | @given exponentSigns digits exponentSigned passes _ =>
      rcases List.prefix_cons_iff.mp restHere with rfl | ⟨more, rfl, moreHere⟩
      · exact .inl (matchesAll_number signed isFraction .absent)
      rw [← List.append_assoc]
      rcases prefix_append_cases moreHere with inside | ⟨shownDigits, digitsHere, rfl⟩
      · right
        have moreSigned : Signs more := by
          rcases describes_optional_iff.mp exponentSigned with rfl | ⟨d, holds, rfl⟩
          · exact describes_optional_iff.mpr (.inl (List.prefix_nil.mp inside))
          · rcases List.prefix_cons_iff.mp inside with rfl | ⟨_, rfl, nothing⟩
            · exact describes_optional_iff.mpr (.inl rfl)
            · obtain rfl := List.prefix_nil.mp nothing
              exact exponentSigned
        exact openExponent_iff.mpr ⟨_, more, moreSigned, rfl⟩
      · by_cases empty : shownDigits = []
        · subst empty
          right
          rw [List.append_nil]
          exact openExponent_iff.mpr ⟨_, exponentSigns, exponentSigned, rfl⟩
        · left
          rw [List.append_assoc]
          refine matchesAll_number signed isFraction (.given exponentSigned ?_ empty)
          exact fun c member => passes c (digitsHere.subset member)

/-- A beginning of a fraction with an exponent begins with a number when it reaches into the
exponent. -/
theorem begins_of_openExponent {signs body shown : List Char} (signed : Signs signs)
    (bodyCase : Describes specialValue body ∨ ∃ fraction exponents, body = fraction ++ exponents ∧
      IsFraction fraction ∧ IsExponent exponents)
    (part : shown <+: signs ++ body) (isOpen : OpenExponent shown) : Begins number shown := by
  obtain ⟨before, openSigns, _, rfl⟩ := openExponent_iff.mp isOpen
  have letter : 'e' ∈ before ++ 'e' :: openSigns := by simp
  have noSign : 'e' ∉ signs := by
    intro member
    have holds := signed.holds_of_mem member
    revert holds
    decide
  rcases bodyCase with special | ⟨fraction, exponents, rfl, isFraction, _⟩
  · rcases List.mem_append.mp (part.subset letter) with member | member
    · exact (noSign member).elim
    · exact ((specialValue_of_describes special).2 _ member (by decide)).elim
  · have noFraction : 'e' ∉ fraction := by
      intro member
      rcases isFraction.mem_cases member with holds | dot
      · exact ne_letter_of_digit holds rfl
      · revert dot
        decide
    rw [← List.append_assoc] at part
    rcases prefix_append_cases part with inside | ⟨rest, _, same⟩
    · rcases List.mem_append.mp (inside.subset letter) with member | member
      · exact (noSign member).elim
      · exact (noFraction member).elim
    · rw [same]
      have described : Describes number (signs ++ fraction) := by
        refine describes_number_iff.mpr ⟨signs, fraction, rfl, signed, .inr ⟨fraction, [], ?_⟩⟩
        exact ⟨by simp, isFraction, .absent⟩
      exact ⟨_, described, List.prefix_append _ _⟩

/-- A match of a beginning of a number stops short when the beginning ends inside the exponent
before its first digit, and only then. -/
theorem stopsShort_number_iff {text shown : List Char} (all : MatchesAll number text)
    (part : shown <+: text) : StopsShort number shown ↔ OpenExponent shown := by
  rw [stopsShort_iff plain_number]
  obtain ⟨signs, body, rfl, signed, bodyCase⟩ :=
    describes_number_iff.mp (all.describes plain_number)
  constructor
  · intro given
    obtain ⟨begins, notAll⟩ := given
    rcases bodyCase with special | ⟨fraction, exponents, rfl, isFraction, isExponent⟩
    · rw [eq_of_begins_specialValue signed special part begins] at notAll
      exact (notAll all).elim
    · have cases := matchesAll_or_openExponent signed isFraction isExponent part begins
      exact cases.resolve_left notAll
  · intro isOpen
    refine ⟨begins_of_openExponent signed bodyCase part isOpen, ?_⟩
    intro shownAll
    exact not_openExponent_of_describes (shownAll.describes plain_number) isOpen

end DefaultPattern

end Unformat
