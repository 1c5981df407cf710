import Unformat.Proofs.Pattern.Language

/-!
# The way that is taken first

A pattern takes a text at a place when it tries going past that text before any other way that
could succeed.  Greedy repetitions take as much as they can.
-/

namespace Unformat.Pattern

/-- Going past `word` is the first way that can succeed: where what follows succeeds behind the
word, the attempt finds what it finds there. -/
def Takes (pattern : Pattern) (cursor : Cursor) (word : List Char) : Prop :=
  ∀ (next : Continuation) (reached : Cursor), (next (cursor.past word)).found = some reached →
    (attempt pattern cursor next).found = some reached

/-- Nothing that the pattern describes stands here. -/
def Fails (pattern : Pattern) (cursor : Cursor) : Prop :=
  ∀ next : Continuation, (attempt pattern cursor next).found = none

section Sequences

variable {test : CharTest} {first second : Pattern} {cursor : Cursor} {front behind : List Char}

theorem takes_one {c : Char} {rest : List Char} (standing : cursor.rest = c :: rest)
    (holds : test.holds c) : Takes (.one test) cursor [c] := by
  intro next reached found
  rwa [attempt_one_of_cons standing, if_pos holds]

theorem fails_one (stops : ∀ c ∈ cursor.rest.head?, test.holds c = false) :
    Fails (.one test) cursor := by
  intro next
  cases standing : cursor.rest with
  | nil => rw [attempt_one_of_nil standing, Outcome.found_starvation]
  | cons c rest =>
      have refused := stops c (by simp [standing])
      simp [attempt_one_of_cons standing, refused]

theorem Takes.both (firstTakes : Takes first cursor front)
    (secondTakes : Takes second (cursor.past front) behind) :
    Takes (.both first second) cursor (front ++ behind) := by
  intro next reached found
  refine firstTakes _ _ (secondTakes _ _ ?_)
  rwa [Cursor.past_past]

theorem Takes.left (firstTakes : Takes first cursor front) :
    Takes (.either first second) cursor front := by
  intro next reached found
  rw [attempt, Outcome.found_orElse, firstTakes next reached found]
  rfl

theorem Takes.right (firstFails : Fails first cursor) (secondTakes : Takes second cursor front) :
    Takes (.either first second) cursor front := by
  intro next reached found
  rw [attempt, Outcome.found_orElse, firstFails next]
  exact secondTakes next reached found

theorem Fails.both (firstFails : Fails first cursor) : Fails (.both first second) cursor :=
  fun next => firstFails fun reached => attempt second reached next

theorem fails_of_plain (plain : first.plain) (counted : cursor.Counted)
    (absent : ∀ word, Describes first word → ¬ word <+: cursor.rest) : Fails first cursor := by
  intro next
  cases found : (attempt first cursor next).found with
  | none => rfl
  | some reached =>
      obtain ⟨word, described, here, _⟩ := sound_of_plain plain _ _ _ counted found
      exact (absent word described here).elim

end Sequences

/-! ## Repetitions -/

/-- A pattern takes some texts one after the other. -/
def TakesAll (body : Pattern) : Cursor → List (List Char) → Prop
  | _, [] => True
  | cursor, part :: parts =>
      part ≠ [] ∧ part <+: cursor.rest ∧ Takes body cursor part ∧
        TakesAll body (cursor.past part) parts

/-- No further repetition is allowed, or none is possible. -/
def Exhausted (body : Pattern) (limits : Repetition) (count : Nat) (cursor : Cursor) : Prop :=
  limits.allowsMore count = false ∨ Fails body cursor

theorem found_iterate_of_takesAll {body : Pattern} {limits : Repetition}
    (longest : limits.preference = .longest) {next : Continuation} {cursor reached : Cursor}
    {count : Nat} {parts : List (List Char)} (counted : cursor.Counted)
    (takes : TakesAll body cursor parts)
    (allowed : ∀ earlier < parts.length, limits.allowsMore (count + earlier))
    (sufficient : limits.least ≤ count + parts.length)
    (exhausted : Exhausted body limits (count + parts.length) (cursor.past parts.flatten))
    (found : (next (cursor.past parts.flatten)).found = some reached) :
    (iterate (attempt body) limits next count cursor).found = some reached := by
  rw [iterate_eq, longest]
  simp only [Outcome.found_orElse]
  induction parts generalizing cursor count with
  | nil =>
      rw [List.flatten_nil, Cursor.past_nil] at found exhausted
      rw [List.length_nil, Nat.add_zero] at sufficient exhausted
      have noFurther : (further (attempt body) limits next count cursor).found = none := by
        rcases exhausted with refused | fails
        · simp [further, refused]
        · unfold further
          split
          case isTrue => exact fails _
          case isFalse => rfl
      rw [noFurther, enough, if_pos sufficient]
      exact found
  | cons part parts ih =>
      obtain ⟨solid, here, takesPart, takesOthers⟩ := takes
      have first : limits.allowsMore count := allowed 0 (by simp)
      have shift : count + (part :: parts).length = count + 1 + parts.length := by
        rw [List.length_cons]
        omega
      have behind : cursor.past (part :: parts).flatten =
          (cursor.past part).past parts.flatten := by simp
      rw [shift] at sufficient exhausted
      rw [behind] at found exhausted
      have others : ∀ earlier < parts.length, limits.allowsMore (count + 1 + earlier) := by
        intro earlier bound
        have here := allowed (earlier + 1) (by simpa using bound)
        rwa [← Nat.add_assoc, Nat.add_right_comm] at here
      have onward := ih (counted.past part) takesOthers others sufficient exhausted found
      rw [further, if_pos first, takesPart _ reached]
      · rfl
      · rw [onward_of_lt (Cursor.left_past_lt counted here solid), iterate_eq, longest]
        simpa only [Outcome.found_orElse] using onward

/-- A greedy repetition takes what its body takes one after the other, until it is exhausted. -/
theorem takes_repetition {body : Pattern} {limits : Repetition}
    (longest : limits.preference = .longest) {cursor : Cursor} {parts : List (List Char)}
    (counted : cursor.Counted) (takes : TakesAll body cursor parts)
    (allowed : ∀ earlier < parts.length, limits.allowsMore earlier)
    (sufficient : limits.least ≤ parts.length)
    (exhausted : Exhausted body limits parts.length (cursor.past parts.flatten)) :
    Takes (.repetition body limits) cursor parts.flatten := by
  intro next reached found
  rw [attempt]
  apply found_iterate_of_takesAll longest counted takes
  · simpa using allowed
  · simpa using sufficient
  · simpa using exhausted
  · exact found

theorem takes_nothing {body : Pattern} {most : Option Nat} {cursor : Cursor}
    (counted : cursor.Counted) (fails : Fails body cursor) :
    Takes (.repetition body ⟨0, most, .longest⟩) cursor [] := by
  have takes : Takes (.repetition body ⟨0, most, .longest⟩) cursor ([] : List (List Char)).flatten :=
    takes_repetition rfl counted trivial (by simp) (Nat.zero_le _) (.inr (by simpa using fails))
  exact takes

theorem takes_once {body : Pattern} {cursor : Cursor} {word : List Char} (counted : cursor.Counted)
    (solid : word ≠ []) (here : word <+: cursor.rest) (takes : Takes body cursor word) :
    Takes (.repetition body ⟨0, some 1, .longest⟩) cursor word := by
  have single : Takes (.repetition body ⟨0, some 1, .longest⟩) cursor [word].flatten := by
    refine takes_repetition rfl counted ⟨solid, here, takes, trivial⟩ ?_ (Nat.zero_le _) (.inl rfl)
    intro earlier bound
    obtain rfl : earlier = 0 := by simpa using bound
    rfl
  rwa [List.flatten_singleton] at single

theorem takesAll_singletons {test : CharTest} {cursor : Cursor} {word : List Char}
    (passes : ∀ c ∈ word, test.holds c) (here : word <+: cursor.rest) :
    TakesAll (.one test) cursor (word.map fun c => [c]) := by
  induction word generalizing cursor with
  | nil => trivial
  | cons c word ih =>
      obtain ⟨behind, standing⟩ := here
      have standing : cursor.rest = c :: (word ++ behind) := standing.symm
      refine ⟨by simp, by simp [standing], takes_one standing (passes c List.mem_cons_self), ?_⟩
      apply ih
      · exact fun other member => passes other (List.mem_cons_of_mem _ member)
      · simp [standing]

/-- A greedy repetition of a test takes all characters that pass it, as far as it may. -/
theorem takes_tests {test : CharTest} {limits : Repetition}
    (longest : limits.preference = .longest) {cursor : Cursor} {word : List Char}
    (counted : cursor.Counted) (here : word <+: cursor.rest)
    (passes : ∀ c ∈ word, test.holds c)
    (allowed : ∀ earlier < word.length, limits.allowsMore earlier)
    (sufficient : limits.least ≤ word.length)
    (stops : limits.allowsMore word.length = false ∨
      ∀ c ∈ (cursor.past word).rest.head?, test.holds c = false) :
    Takes (.repetition (.one test) limits) cursor word := by
  have joined : (word.map fun c => [c]).flatten = word := by
    rw [← List.flatMap_def, List.flatMap_singleton']
  have exhausted : Exhausted (.one test) limits word.length (cursor.past word) :=
    stops.imp id fails_one
  have takes : Takes (.repetition (.one test) limits) cursor (word.map fun c => [c]).flatten :=
    takes_repetition longest counted (takesAll_singletons passes here) (by simpa using allowed)
      (by simpa using sufficient) (by simpa [joined] using exhausted)
  rwa [joined] at takes

/-- A pattern that takes a text at the front matches it. -/
theorem run_of_takes {pattern : Pattern} {word behind : List Char}
    (takes : Takes pattern (.front (word ++ behind)) word) :
    pattern.run (word ++ behind) = .matched word.length := by
  refine run_eq_matched_iff.mpr ⟨_, takes .success _ rfl, ?_⟩
  simp only [Cursor.left_past, Cursor.front, List.length_append]
  omega

end Unformat.Pattern
