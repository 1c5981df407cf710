import Unformat.Proofs.Pattern.Greedy
import Unformat.Proofs.Pattern.Settling
import Unformat.Pattern.Compile
import Unformat.ScanType.Basic

/-!
# The default patterns of single tokens

Truth values, characters, words, integers and IPv4 addresses have patterns that settle: what they
match before the end of a text stays matched when more text arrives.
-/

namespace Unformat

open Pattern

namespace DefaultPattern

/-! ## The patterns read -/

def digit : CharTest := .range '0' '9'

def sign : CharTest := .either (.char '+') (.char '-')

/-- A character, once or not at all. -/
def optional (test : CharTest) : Pattern := .repetition (.one test) ⟨0, some 1, .longest⟩

/-- As many characters as there are, at least one. -/
def run (test : CharTest) : Pattern := .repetition (.one test) ⟨1, none, .longest⟩

def octet : Pattern := .repetition (.one digit) ⟨1, some 3, .longest⟩

/-- The characters of a word, one after the other. -/
def spelled : List Char → Pattern
  | [] => .nothing
  | [c] => .one (.char c)
  | c :: word => .both (.one (.char c)) (spelled word)

def truthValue : Pattern := .either (spelled "true".toList) (spelled "false".toList)

/-- Digits, with a sign that passes the test before them or none. -/
def numeral (sign : CharTest) : Pattern := .both (optional sign) (run digit)

def dotted : Pattern :=
  .both (.repetition (.both octet (.one (.char '.'))) ⟨3, some 3, .longest⟩) octet

theorem compile_of_readWith {source : String} {characters : List Char} {pattern : Pattern}
    (spelled : source.toList = characters)
    (reads : Pattern.readWith {} characters = .ok (pattern, {})) :
    Pattern.compile source = .ok pattern := by
  simp [Pattern.compile, spelled, reads, bind, Except.bind, pure, Except.pure]

theorem compile_boolean : Pattern.compile boolean = .ok truthValue := rfl

theorem compile_character : Pattern.compile character = .ok (.one .notLineFeed) := rfl

theorem compile_word : Pattern.compile word = .ok (run (.property .word)) := rfl

theorem compile_signed : Pattern.compile signed = .ok (numeral sign) := rfl

theorem compile_unsigned : Pattern.compile unsigned = .ok (numeral (.char '+')) := rfl

theorem compile_ipv4 : Pattern.compile ipv4 = .ok dotted := rfl

/-! ## The texts described -/

theorem describes_optional_iff {test : CharTest} {word : List Char} :
    Describes (optional test) word ↔ word = [] ∨ ∃ c, test.holds c ∧ word = [c] :=
  describes_at_most_once_iff (not_describes_one_nil test)

theorem describes_run_iff {test : CharTest} {word : List Char} :
    Describes (run test) word ↔ (∀ c ∈ word, test.holds c) ∧ word ≠ [] := by
  rw [run, describes_tests_iff]
  simp [Nat.one_le_iff_ne_zero]

/-! ## What settles -/

theorem holds_digit_iff {c : Char} : digit.holds c = true ↔ '0' ≤ c ∧ c ≤ '9' := by
  simp [digit, CharTest.holds]

theorem holds_sign_iff {c : Char} : sign.holds c = true ↔ c = '+' ∨ c = '-' := by
  simp [sign, CharTest.holds]

theorem not_digit_of_sign {c : Char} (holds : sign.holds c) : digit.holds c = false := by
  rcases holds_sign_iff.mp holds with rfl | rfl <;> decide

theorem not_digit_of_plus {c : Char} (holds : (CharTest.char '+').holds c) :
    digit.holds c = false :=
  not_digit_of_sign (by simp_all [sign, CharTest.holds])

theorem not_dot_of_digit {c : Char} (holds : digit.holds c) :
    (CharTest.char '.').holds c = false := by
  by_cases dot : c = '.'
  · subst dot
    simp [holds_digit_iff] at holds
  · simpa [CharTest.holds] using dot

theorem settlesAlone_run (test : CharTest) : SettlesAlone (run test) :=
  settling_iterate_one rfl settling_success (decides_success test) 0

theorem settles_spelled (word : List Char) : Settles (spelled word) := by
  match word with
  | [] => exact fun next settling => settling
  | [c] => exact settles_one _
  | c :: d :: word => exact (settles_one _).both (settles_spelled (d :: word))

theorem settlesAlone_truthValue : SettlesAlone truthValue := by
  refine ((settles_spelled _).either (settles_spelled _) ?_).alone
  intro cursor next remaining
  obtain ⟨c, rest, standing⟩ := List.exists_cons_of_ne_nil remaining
  by_cases first : c = 't'
  · right
    simp [spelled, attempt, standing, CharTest.holds, first]
  · left
    simp [spelled, attempt, standing, CharTest.holds, first]

theorem settlesAlone_numeral {sign : CharTest}
    (apart : ∀ c, sign.holds c → digit.holds c = false) : SettlesAlone (numeral sign) := by
  refine settling_iterate_one rfl (settlesAlone_run digit) ?_ 0
  intro cursor c rest _ standing holds
  left
  exact attempt_tests_of_refused (by decide) standing (apart c holds) _

theorem settles_octet_dot : Settles (.both octet (.one (.char '.'))) := by
  intro next settling
  refine settling_iterate_one rfl (settles_one _ next settling) ?_ 0
  intro cursor c rest _ standing holds
  left
  simp [attempt_one_of_cons standing, not_dot_of_digit holds]

theorem settlesAlone_dotted : SettlesAlone dotted := by
  have octetSettles : SettlesAlone octet :=
    settling_iterate_one rfl settling_success (decides_success digit) 0
  exact settling_iterate_exactly settles_octet_dot 3 octetSettles 0

/-! ## What is taken -/

theorem holds_digit (c : Char) : digit.holds c = c.isDigit := rfl

theorem isWord_of_isDigit {c : Char} (isDigit : c.isDigit = true) : Text.isWord c = true := by
  have below : c.toNat < 128 := by
    simp only [Char.isDigit, Bool.and_eq_true, decide_eq_true_eq] at isDigit
    exact Nat.lt_of_le_of_lt (UInt32.le_iff_toNat_le.mp isDigit.2) (by decide)
  simp [Text.isWord, below, Char.isAlphanum, isDigit]

theorem not_digit_of_not_word {c : Char} (other : Text.isWord c = false) :
    digit.holds c = false := by
  cases isDigit : c.isDigit with
  | true => simp [isWord_of_isDigit isDigit] at other
  | false => rwa [holds_digit]

theorem takes_spelled {cursor : Cursor} {word behind : List Char}
    (standing : cursor.rest = word ++ behind) : Takes (spelled word) cursor word := by
  match word with
  | [] =>
      intro next reached found
      rwa [Cursor.past_nil] at found
  | [c] => exact takes_one standing (by simp [CharTest.holds])
  | c :: d :: word =>
      have first : Takes (.one (.char c)) cursor [c] :=
        takes_one standing (by simp [CharTest.holds])
      have second : (cursor.past [c]).rest = d :: word ++ behind := by simp [standing]
      exact first.both (takes_spelled second)

variable {test : CharTest} {cursor : Cursor} {word behind : List Char}

theorem fails_spelled {c d : Char} {rest : List Char} (standing : cursor.rest = d :: rest)
    (other : d ≠ c) : Fails (spelled (c :: word)) cursor := by
  have refused : Fails (.one (.char c)) cursor := by
    apply fails_one
    simpa [standing, CharTest.holds] using other
  cases word with
  | nil => exact refused
  | cons d word => exact refused.both

theorem takes_run (counted : cursor.Counted) (standing : cursor.rest = word ++ behind)
    (passes : ∀ c ∈ word, test.holds c) (solid : word ≠ [])
    (stops : ∀ c ∈ behind.head?, test.holds c = false) : Takes (run test) cursor word := by
  refine takes_tests rfl counted ⟨behind, standing.symm⟩ passes (fun _ _ => rfl)
    (List.length_pos_iff.mpr solid) (.inr ?_)
  simpa [standing] using stops

theorem takes_optional_of_holds {c : Char} {rest : List Char} (counted : cursor.Counted)
    (standing : cursor.rest = c :: rest) (holds : test.holds c) :
    Takes (optional test) cursor [c] := by
  refine takes_tests rfl counted (by simp [standing]) (by simpa using holds) ?_ (Nat.zero_le _)
    (.inl rfl)
  intro earlier bound
  obtain rfl : earlier = 0 := by simpa using bound
  rfl

theorem takes_optional_of_stops (counted : cursor.Counted)
    (stops : ∀ c ∈ cursor.rest.head?, test.holds c = false) :
    Takes (optional test) cursor [] :=
  takes_tests rfl counted List.nil_prefix (by simp) (by simp) (Nat.zero_le _) (.inr (by simpa))

/-- Digits with a sign before them or none are taken where no digit follows. -/
theorem takes_numeral {sign : CharTest} {signs digits behind : List Char}
    (apart : ∀ c, sign.holds c → digit.holds c = false)
    (signed : Describes (optional sign) signs) (passes : ∀ c ∈ digits, digit.holds c)
    (solid : digits ≠ []) (stops : ∀ c ∈ behind.head?, digit.holds c = false) :
    Takes (numeral sign) (.front (signs ++ (digits ++ behind))) (signs ++ digits) := by
  have counted := Cursor.counted_front (signs ++ (digits ++ behind))
  have standing : ((Cursor.front (signs ++ (digits ++ behind))).past signs).rest =
      digits ++ behind := by
    simp [Cursor.front]
  refine Takes.both ?_ (takes_run (counted.past signs) standing passes solid stops)
  rcases describes_optional_iff.mp signed with rfl | ⟨c, holds, rfl⟩
  · apply takes_optional_of_stops counted
    obtain ⟨d, rest, rfl⟩ := List.exists_cons_of_ne_nil solid
    rintro c ⟨⟩
    cases holds : sign.holds d with
    | false => rfl
    | true => exact absurd (passes d List.mem_cons_self) (Bool.eq_false_iff.mp (apart d holds))
  · exact takes_optional_of_holds counted rfl holds

theorem run_truthValue (value : Bool) (behind : List Char) :
    truthValue.run ((toString value).toList ++ behind) =
      .matched (toString value).toList.length := by
  apply run_of_takes
  cases value with
  | true => exact (takes_spelled rfl).left
  | false => exact .right (fails_spelled rfl (by decide)) (takes_spelled rfl)

theorem run_run (passes : ∀ c ∈ word, test.holds c) (solid : word ≠ [])
    (stops : ∀ c ∈ behind.head?, test.holds c = false) :
    (run test).run (word ++ behind) = .matched word.length :=
  run_of_takes (takes_run (Cursor.counted_front _) rfl passes solid stops)

end DefaultPattern

/-! ## Types whose tokens are seen whole -/

namespace ScanType

/-- The types whose default patterns match one run of characters or a few of fixed shape. -/
def tokens : List ScanType := boolean :: character :: string :: ipv4 :: integers

theorem exists_of_mem_integers {type : ScanType} (member : type ∈ integers) :
    ∃ name signed bits nonzero, type = ofIntegers name signed bits nonzero := by
  simp only [integers, integersOfWidth, List.cons_append, List.nil_append, List.mem_cons,
    List.not_mem_nil, or_false] at member
  rcases member with rfl | rfl | rfl | rfl | rfl | rfl | rfl | rfl | rfl | rfl | rfl | rfl | rfl |
    rfl | rfl | rfl | rfl | rfl | rfl | rfl | rfl | rfl | rfl | rfl | rfl | rfl <;>
    exact ⟨_, _, _, _, rfl⟩

/-- The default pattern of such a type is plain and settles. -/
theorem exists_settling_of_mem_tokens {type : ScanType} (member : type ∈ tokens) :
    ∃ source pattern, type.defaultPattern = some source ∧ Pattern.compile source = .ok pattern ∧
      pattern.plain ∧ SettlesAlone pattern := by
  rcases List.mem_cons.mp member with rfl | member
  · exact ⟨_, _, rfl, DefaultPattern.compile_boolean, rfl, DefaultPattern.settlesAlone_truthValue⟩
  rcases List.mem_cons.mp member with rfl | member
  · exact ⟨_, _, rfl, DefaultPattern.compile_character, rfl, (settles_one _).alone⟩
  rcases List.mem_cons.mp member with rfl | member
  · exact ⟨_, _, rfl, DefaultPattern.compile_word, rfl, DefaultPattern.settlesAlone_run _⟩
  rcases List.mem_cons.mp member with rfl | member
  · exact ⟨_, _, rfl, DefaultPattern.compile_ipv4, rfl, DefaultPattern.settlesAlone_dotted⟩
  obtain ⟨name, signed, bits, nonzero, rfl⟩ := exists_of_mem_integers member
  cases signed with
  | true =>
      exact ⟨_, _, rfl, DefaultPattern.compile_signed, rfl,
        DefaultPattern.settlesAlone_numeral fun _ => DefaultPattern.not_digit_of_sign⟩
  | false =>
      exact ⟨_, _, rfl, DefaultPattern.compile_unsigned, rfl,
        DefaultPattern.settlesAlone_numeral fun _ => DefaultPattern.not_digit_of_plus⟩

end ScanType

end Unformat
