import Unformat.Proofs.Pattern.Address
import Unformat.Proofs.Pattern.RealNumber
import Unformat.Proofs.ScanType.Equality

/-!
# Characters that a pattern has no use for

A pattern refuses a character when none of its tests lets it pass.  Behind a text such a character
stops every way just as the end of the text does, so it does not change what the pattern matches.
No default pattern but that of single characters has a use for the characters that end a line, and
none matches the empty text.
-/

namespace Unformat

namespace Pattern

/-- No test of the pattern lets the character pass, and the pattern asks for nothing else. -/
def refuses (c : Char) : Pattern → Bool
  | .nothing => true
  | .one test => !test.holds c
  | .both first second | .either first second => refuses c first && refuses c second
  | .repetition body _ => refuses c body
  | .place _ | .ahead _ _ | .atomic _ => false

/-- Whether a pattern may describe the empty text. -/
def blank : Pattern → Bool
  | .nothing => true
  | .one _ => false
  | .both first second => blank first && blank second
  | .either first second => blank first || blank second
  | .repetition body limits => limits.least == 0 || blank body
  | .place _ | .ahead _ _ | .atomic _ => true

/-! ## The same ways with a refused character behind the text -/

section Refused

variable {c : Char} {rest : List Char}

/-- With the character behind the text, what follows finds the same. -/
def FindsSame (more : List Char) (next extended : Continuation) : Prop :=
  ∀ cursor : Cursor, cursor.Counted →
    (extended (cursor.extend more)).found = (next cursor).found.map (·.extend more)

theorem found_iterate_extend {more : List Char} {step : Cursor → Continuation → Outcome}
    (limits : Repetition)
    (stepSame : ∀ (cursor : Cursor) (next extended : Continuation), cursor.Counted →
      FindsSame more next extended →
        (step (cursor.extend more) extended).found =
          (step cursor next).found.map (·.extend more))
    {next extended : Continuation} (same : FindsSame more next extended) {cursor : Cursor}
    {count : Nat} (counted : cursor.Counted) :
    (iterate step limits extended count (cursor.extend more)).found =
      (iterate step limits next count cursor).found.map (·.extend more) := by
  induction left : cursor.left using Nat.strongRecOn generalizing cursor count with
  | _ left ih =>
      have onward : FindsSame more (onward step limits next count cursor)
          (onward step limits extended count (cursor.extend more)) := by
        intro reached reachedCounted
        by_cases nearer : reached.left < cursor.left
        · have stillNearer : (reached.extend more).left < (cursor.extend more).left :=
            Nat.add_lt_add_right nearer _
          rw [onward_of_lt nearer, onward_of_lt stillNearer]
          exact ih _ (left ▸ nearer) reachedCounted rfl
        · have stillStuck : ¬ (reached.extend more).left < (cursor.extend more).left := by
            simpa [Cursor.extend] using nearer
          rw [onward_of_not_lt nearer, onward_of_not_lt stillStuck]
          exact same reached reachedCounted
      have furtherSame : (further step limits extended count (cursor.extend more)).found =
          (further step limits next count cursor).found.map (·.extend more) := by
        unfold further
        split
        · exact stepSame _ _ _ counted onward
        · rfl
      have enoughSame : (enough limits extended count (cursor.extend more)).found =
          (enough limits next count cursor).found.map (·.extend more) := by
        unfold enough
        split
        · exact same cursor counted
        · rfl
      rw [iterate_eq, iterate_eq]
      cases limits.preference <;>
        simp only [Outcome.found_orElse, furtherSame, enoughSame, Option.map_or]

theorem found_attempt_extend {pattern : Pattern} (refused : pattern.refuses c) {cursor : Cursor}
    {next extended : Continuation} (counted : cursor.Counted)
    (same : FindsSame (c :: rest) next extended) :
    (attempt pattern (cursor.extend (c :: rest)) extended).found =
      (attempt pattern cursor next).found.map (·.extend (c :: rest)) := by
  induction pattern generalizing cursor next extended with
  | nothing => exact same cursor counted
  | one test =>
      cases standing : cursor.rest with
      | nil =>
          have refusedHere : (cursor.extend (c :: rest)).rest = c :: rest := by
            simp [Cursor.extend, standing]
          have fails : test.holds c = false := by simpa [refuses] using refused
          rw [attempt_one_of_nil standing, attempt_one_of_cons refusedHere, if_neg (by simp [fails])]
          rfl
      | cons d behind =>
          have stillStanding : (cursor.extend (c :: rest)).rest = d :: (behind ++ c :: rest) := by
            simp [Cursor.extend, standing]
          rw [attempt_one_of_cons standing, attempt_one_of_cons stillStanding]
          split
          · rw [Cursor.past_extend counted (by simp [standing])]
            exact same _ (counted.past [d])
          · rfl
  | both first second firstSame secondSame =>
      obtain ⟨firstRefused, secondRefused⟩ := (Bool.and_eq_true _ _).mp refused
      refine firstSame firstRefused counted ?_
      exact fun reached reachedCounted => secondSame secondRefused reachedCounted same
  | either first second firstSame secondSame =>
      obtain ⟨firstRefused, secondRefused⟩ := (Bool.and_eq_true _ _).mp refused
      rw [attempt, attempt, Outcome.found_orElse, Outcome.found_orElse,
        firstSame firstRefused counted same, secondSame secondRefused counted same, Option.map_or]
  | repetition body limits bodySame =>
      exact found_iterate_extend limits (fun _ _ _ counted same => bodySame refused counted same)
        same counted
  | place condition => simp [refuses] at refused
  | ahead negated body => simp [refuses] at refused
  | atomic body => simp [refuses] at refused

/-- A refused character behind a text does not change what the pattern matches. -/
theorem run_append_of_refuses {pattern : Pattern} (refused : pattern.refuses c) (text : List Char)
    (length : Nat) :
    pattern.run (text ++ c :: rest) = .matched length ↔ pattern.run text = .matched length := by
  have front : Cursor.front (text ++ c :: rest) = (Cursor.front text).extend (c :: rest) := by
    simp [Cursor.front, Cursor.extend]
  have same : FindsSame (c :: rest) Outcome.success Outcome.success := fun _ _ => rfl
  have found := found_attempt_extend refused (Cursor.counted_front text) same
  rw [run_eq_matched_iff, run_eq_matched_iff, front, found]
  cases (attempt pattern (.front text) .success).found with
  | none => simp
  | some reached => simp [Cursor.extend, Nat.add_sub_add_right]

end Refused

theorem run_one_cons (test : CharTest) (c : Char) (rest : List Char) :
    run (.one test) (c :: rest) = if test.holds c then .matched 1 else .failed := by
  by_cases holds : test.holds c <;>
    simp [run, attempt, Cursor.front, holds, Outcome.success, Outcome.failure]

/-- A text that a pattern describes has no character that the pattern refuses. -/
theorem not_mem_of_describes {pattern : Pattern} {c : Char} (refused : pattern.refuses c)
    {word : List Char} (described : Describes pattern word) : c ∉ word := by
  induction pattern generalizing word with
  | nothing =>
      obtain rfl : word = [] := described
      exact List.not_mem_nil
  | one test =>
      obtain ⟨d, holds, rfl⟩ := described
      rw [List.mem_singleton]
      rintro rfl
      simp [refuses, holds] at refused
  | both first second firstOut secondOut =>
      obtain ⟨firstRefused, secondRefused⟩ := (Bool.and_eq_true _ _).mp refused
      obtain ⟨front, behind, rfl, firstDescribed, secondDescribed⟩ := described
      rw [List.mem_append, not_or]
      exact ⟨firstOut firstRefused firstDescribed, secondOut secondRefused secondDescribed⟩
  | either first second firstOut secondOut =>
      obtain ⟨firstRefused, secondRefused⟩ := (Bool.and_eq_true _ _).mp refused
      exact described.elim (firstOut firstRefused) (secondOut secondRefused)
  | repetition body limits bodyOut =>
      obtain ⟨parts, rfl, each, _, _⟩ := described
      rw [List.mem_flatten]
      rintro ⟨part, member, inside⟩
      exact bodyOut refused (each part member).2 inside
  | place condition => exact described.elim
  | ahead negated body => exact described.elim
  | atomic body => exact described.elim

/-! ## Empty texts -/

theorem blank_of_describes_nil {pattern : Pattern} (described : Describes pattern []) :
    pattern.blank = true := by
  induction pattern with
  | nothing => rfl
  | one test => exact (not_describes_one_nil test described).elim
  | both first second firstBlank secondBlank =>
      obtain ⟨front, behind, split, firstDescribed, secondDescribed⟩ := described
      obtain ⟨rfl, rfl⟩ := List.append_eq_nil_iff.mp split.symm
      rw [blank, firstBlank firstDescribed, secondBlank secondDescribed, Bool.and_self]
  | either first second firstBlank secondBlank =>
      rw [blank, Bool.or_eq_true]
      exact described.imp firstBlank secondBlank
  | repetition body limits bodyBlank =>
      obtain ⟨parts, joined, each, _, admitted⟩ := described
      rw [blank, Bool.or_eq_true, beq_iff_eq]
      cases parts with
      | nil => exact admitted.imp (by simp) fun more => bodyBlank more.2
      | cons part parts =>
          have empty : part = [] := (List.append_eq_nil_iff.mp joined.symm).1
          exact ((each part List.mem_cons_self).1 empty).elim
  | place condition => exact described.elim
  | ahead negated body => exact described.elim
  | atomic body => exact described.elim

/-- What a pattern that describes no empty text matches is some of the text. -/
theorem bounds_of_run_eq_matched {pattern : Pattern} (plain : pattern.plain)
    (solid : pattern.blank = false) {text : List Char} {length : Nat}
    (matched : pattern.run text = .matched length) : 0 < length ∧ length ≤ text.length := by
  obtain ⟨described, within⟩ := describes_of_run_eq_matched plain matched
  refine ⟨Nat.pos_of_ne_zero ?_, within⟩
  rintro rfl
  rw [List.take_zero] at described
  simp [blank_of_describes_nil described] at solid

end Pattern

/-! ## The default patterns -/

open Pattern

namespace ScanType

/-- The types with a default pattern. -/
def withDefault : List ScanType := character :: boolean :: string :: ipv4 :: real :: ipv6 ::
  address :: integers

theorem mem_withDefault_of_mem_tokens {type : ScanType} (member : type ∈ tokens) :
    type ∈ withDefault := by
  simp only [tokens, withDefault, List.mem_cons] at member ⊢
  tauto

/-- The default pattern of single characters takes a carriage return and a tab, and no default
pattern takes a line feed or, if it is another one, any of these two. -/
theorem exists_refusing_of_mem_withDefault {type : ScanType} (member : type ∈ withDefault) :
    ∃ source pattern, type.defaultPattern = some source ∧ Pattern.compile source = .ok pattern ∧
      pattern.plain ∧ pattern.blank = false ∧ pattern.refuses '\n' ∧
        (type = character ∧ pattern = .one .notLineFeed ∨
          type ≠ character ∧ pattern.refuses '\r' ∧ pattern.refuses '\t') := by
  rcases List.mem_cons.mp member with rfl | member
  · exact ⟨_, _, rfl, DefaultPattern.compile_character, rfl, rfl, rfl, .inl ⟨rfl, rfl⟩⟩
  rcases List.mem_cons.mp member with rfl | member
  · exact ⟨_, _, rfl, DefaultPattern.compile_boolean, rfl, rfl, rfl, .inr ⟨by decide, rfl, rfl⟩⟩
  rcases List.mem_cons.mp member with rfl | member
  · exact ⟨_, _, rfl, DefaultPattern.compile_word, rfl, rfl, rfl, .inr ⟨by decide, rfl, rfl⟩⟩
  rcases List.mem_cons.mp member with rfl | member
  · exact ⟨_, _, rfl, DefaultPattern.compile_ipv4, rfl, rfl, rfl, .inr ⟨by decide, rfl, rfl⟩⟩
  rcases List.mem_cons.mp member with rfl | member
  · exact ⟨_, _, rfl, DefaultPattern.compile_real, rfl, rfl, by decide +kernel,
      .inr ⟨by decide, by decide +kernel, by decide +kernel⟩⟩
  rcases List.mem_cons.mp member with rfl | member
  · exact ⟨_, _, rfl, DefaultPattern.compile_ipv6, rfl, rfl, rfl, .inr ⟨by decide, rfl, rfl⟩⟩
  rcases List.mem_cons.mp member with rfl | member
  · exact ⟨_, _, rfl, DefaultPattern.compile_address, rfl, rfl, rfl, .inr ⟨by decide, rfl, rfl⟩⟩
  have other : type ≠ character := by
    rintro rfl
    have unlisted : character.name ∉ integers.map (·.name) := by decide
    exact unlisted (List.mem_map_of_mem member)
  obtain ⟨name, signed, bits, nonzero, rfl⟩ := exists_of_mem_integers member
  cases signed with
  | true => exact ⟨_, _, rfl, DefaultPattern.compile_signed, rfl, rfl, rfl, .inr ⟨other, rfl, rfl⟩⟩
  | false => exact ⟨_, _, rfl, DefaultPattern.compile_unsigned, rfl, rfl, rfl, .inr ⟨other, rfl, rfl⟩⟩

end ScanType

end Unformat
