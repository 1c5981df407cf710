import Unformat.Proofs.Pattern.Greedy

/-!
# Matches that stop short

A match stops short when it ends before the end of the text.  A plain pattern does so exactly where
the text begins with a described one and is not matched as a whole.  Which texts are matched as a
whole follows from what stands first: an alternative wins where it describes any beginning of the
text, and a part that can end in one place only leaves the rest to what follows it.
-/

namespace Unformat.Pattern

/-- The pattern matches something, but not all of the text. -/
def StopsShort (pattern : Pattern) (text : List Char) : Prop :=
  ∃ length < text.length, pattern.run text = .matched length

/-- The text begins with one that the pattern describes. -/
def Begins (pattern : Pattern) (text : List Char) : Prop :=
  ∃ word, Describes pattern word ∧ word <+: text

def MatchesAll (pattern : Pattern) (text : List Char) : Prop :=
  pattern.run text = .matched text.length

section Stopping

variable {pattern first second : Pattern} {text : List Char}

theorem begins_of_matched (plain : pattern.plain) {length : Nat}
    (matched : pattern.run text = .matched length) : Begins pattern text :=
  ⟨_, (describes_of_run_eq_matched plain matched).1, List.take_prefix _ _⟩

theorem exists_matched_of_begins (plain : pattern.plain) (begins : Begins pattern text) :
    ∃ length ≤ text.length, pattern.run text = .matched length := by
  obtain ⟨word, described, behind, rfl⟩ := begins
  obtain ⟨length, matched⟩ := exists_matched_of_describes plain described behind
  exact ⟨length, (describes_of_run_eq_matched plain matched).2, matched⟩

theorem MatchesAll.describes (plain : pattern.plain) (all : MatchesAll pattern text) :
    Describes pattern text := by
  have described := (describes_of_run_eq_matched plain all).1
  rwa [List.take_length] at described

theorem stopsShort_iff (plain : pattern.plain) :
    StopsShort pattern text ↔ Begins pattern text ∧ ¬ MatchesAll pattern text := by
  constructor
  · intro stopsShort
    obtain ⟨length, short, matched⟩ := stopsShort
    refine ⟨begins_of_matched plain matched, ?_⟩
    intro all
    obtain rfl := Verdict.matched.inj (matched.symm.trans all)
    exact Nat.lt_irrefl _ short
  · intro given
    obtain ⟨begins, part⟩ := given
    obtain ⟨length, within, matched⟩ := exists_matched_of_begins plain begins
    refine ⟨length, Nat.lt_of_le_of_ne within ?_, matched⟩
    intro same
    subst same
    exact part matched

theorem matchesAll_of_takes (takes : Takes pattern (.front text) text) :
    MatchesAll pattern text := by
  refine run_eq_matched_iff.mpr ⟨_, takes .success _ rfl, ?_⟩
  simp [Cursor.front]

/-! ## Alternatives -/

/-- The first alternative wins where it describes any beginning of the text. -/
theorem matchesAll_either_iff (firstPlain : first.plain) :
    MatchesAll (.either first second) text ↔
      MatchesAll first text ∨ ¬ Begins first text ∧ MatchesAll second text := by
  have found : (attempt (.either first second) (.front text) .success).found =
      (attempt first (.front text) .success).found.or
        (attempt second (.front text) .success).found := by
    rw [attempt, Outcome.found_orElse]
  simp only [MatchesAll, run_eq_matched_iff, found]
  cases firstFound : (attempt first (.front text) .success).found with
  | some reached =>
      have begins : Begins first text :=
        begins_of_matched firstPlain (run_eq_matched_iff.mpr ⟨reached, firstFound, rfl⟩)
      simp [begins]
  | none =>
      have other : ¬ Begins first text := by
        intro begins
        obtain ⟨length, _, matched⟩ := exists_matched_of_begins firstPlain begins
        obtain ⟨reached, firstReached, _⟩ := run_eq_matched_iff.mp matched
        simp [firstFound] at firstReached
      simp [other]

/-! ## Sequences -/

/-- Where the first part can only end in one place, the second part goes on from there. -/
theorem matchesAll_both_of_unique (firstPlain : first.plain) (secondPlain : second.plain)
    {front behind : List Char} (described : Describes first front)
    (unique : ∀ word, Describes first word → word <+: front ++ behind → word = front)
    (takes : Takes second (.past (.front (front ++ behind)) front) behind)
    (behindDescribed : Describes second behind) :
    MatchesAll (.both first second) (front ++ behind) := by
  have counted := Cursor.counted_front (front ++ behind)
  have goesOn : ∀ reached, (attempt (.both first second) (.front (front ++ behind))
      .success).found = some reached → reached.left = 0 := by
    intro reached found
    obtain ⟨word, wordDescribed, here, onward⟩ := sound_of_plain firstPlain _ _ _ counted found
    obtain rfl := unique word wordDescribed here
    rw [takes .success _ rfl] at onward
    obtain rfl := Option.some.inj onward
    simp [Cursor.front]
  have bothPlain : (both first second).plain := by simp [plain, firstPlain, secondPlain]
  have begins : Begins (.both first second) (front ++ behind) :=
    ⟨_, ⟨front, behind, rfl, described, behindDescribed⟩, List.prefix_rfl⟩
  obtain ⟨length, _, matched⟩ := exists_matched_of_begins bothPlain begins
  obtain ⟨reached, found, _⟩ := run_eq_matched_iff.mp matched
  exact run_eq_matched_iff.mpr ⟨reached, found, by rw [goesOn reached found, Nat.sub_zero]⟩

/-- How sequences are put together makes no difference. -/
theorem matchesAll_both_assoc {third : Pattern} :
    MatchesAll (.both first (.both second third)) text ↔
      MatchesAll (.both (.both first second) third) text := Iff.rfl

theorem matchesAll_both_tests {test : CharTest} {limits : Repetition}
    (longest : limits.preference = .longest) (firstPlain : first.plain) {front last : List Char}
    (described : Describes first front)
    (lastDescribed : Describes (.repetition (.one test) limits) last)
    (unique : ∀ word, Describes first word → word <+: front ++ last → word = front) :
    MatchesAll (.both first (.repetition (.one test) limits)) (front ++ last) := by
  obtain ⟨passes, sufficient, bounded⟩ := describes_tests_iff.mp lastDescribed
  have counted : (Cursor.past (.front (front ++ last)) front).Counted :=
    (Cursor.counted_front _).past front
  have standing : (Cursor.past (.front (front ++ last)) front).rest = last := by
    simp [Cursor.front]
  have takes :
      Takes (.repetition (.one test) limits) (.past (.front (front ++ last)) front) last := by
    refine takes_tests longest counted ⟨[], by rw [standing, List.append_nil]⟩ passes ?_ sufficient
      (.inr ?_)
    · intro earlier less
      rw [Repetition.allowsMore, Option.all_eq_true]
      intro most limit
      exact decide_eq_true (Nat.lt_of_lt_of_le less (bounded most limit))
    · rw [Cursor.rest_past, standing, List.drop_length]
      simp
  exact matchesAll_both_of_unique firstPlain rfl described unique takes lastDescribed

end Stopping

/-! ## Beginnings of joined texts -/

/-- A beginning of two texts ends in the first or in the second. -/
theorem prefix_append_cases {word front behind : List Char} (part : word <+: front ++ behind) :
    word <+: front ∨ ∃ more, more <+: behind ∧ word = front ++ more := by
  rcases List.prefix_or_prefix_of_prefix part (List.prefix_append front behind) with
    inside | ⟨more, rfl⟩
  · exact .inl inside
  · exact .inr ⟨more, (List.prefix_append_right_inj front).mp part, rfl⟩

end Unformat.Pattern
