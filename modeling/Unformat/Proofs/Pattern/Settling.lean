import Unformat.Proofs.Pattern.Extension

/-!
# Patterns that settle

A match that ends before the end of the text may still have come after a way that starved: with
more text that way might have won.  A pattern settles when this never happens.  Repetitions of one
test settle when what follows them cannot begin with a character that passes the test, or cannot
fail at all.
-/

namespace Unformat.Pattern

/-- A way found before the end was found without want of text. -/
def Outcome.Final (outcome : Outcome) : Prop :=
  ∀ reached, outcome.found = some reached → 0 < reached.left → outcome.starved = false

/-- An outcome at a place is final and leads no way back. -/
structure Outcome.Settled (cursor : Cursor) (outcome : Outcome) : Prop where
  final : outcome.Final
  forward : ∀ reached, outcome.found = some reached → reached.left ≤ cursor.left

/-- What follows settles everywhere. -/
def Settling (next : Continuation) : Prop :=
  ∀ cursor : Cursor, cursor.Counted → (next cursor).Settled cursor

/-- A pattern settles before anything that does. -/
def Settles (pattern : Pattern) : Prop :=
  ∀ next, Settling next → ∀ cursor : Cursor, cursor.Counted →
    (attempt pattern cursor next).Settled cursor

/-- A pattern settles when nothing follows it. -/
def SettlesAlone (pattern : Pattern) : Prop :=
  Settling fun cursor => attempt pattern cursor .success

namespace Outcome

theorem settled_of_none {cursor : Cursor} {outcome : Outcome} (none : outcome.found = none) :
    outcome.Settled cursor := by
  constructor <;> simp [Final, none]

theorem Settled.of_past {cursor : Cursor} {word : List Char} {outcome : Outcome}
    (settled : outcome.Settled (cursor.past word)) : outcome.Settled cursor := by
  refine ⟨settled.final, ?_⟩
  intro reached found
  have bound := settled.forward reached found
  rw [Cursor.left_past] at bound
  omega

/-- A choice is settled when its second side is taken only after a first side that did not starve,
or leads to the end. -/
theorem Settled.orElse {cursor : Cursor} {first : Outcome} {second : Unit → Outcome}
    (firstSettled : first.Settled cursor) (secondSettled : (second ()).Settled cursor)
    (calm : ∀ reached, first.found = none → (second ()).found = some reached →
      0 < reached.left → first.starved = false) :
    (first.orElse second).Settled cursor := by
  cases found : first.found with
  | some reached => rwa [orElse_of_isSome (by simp [found])]
  | none =>
      rw [orElse_of_none found]
      refine ⟨?_, secondSettled.forward⟩
      intro reached secondFound before
      rw [found_after] at secondFound
      rw [starved_after, calm reached found secondFound before,
        secondSettled.final reached secondFound before]
      rfl

end Outcome

theorem settling_success : Settling Outcome.success := by
  intro cursor _
  constructor <;> simp [Outcome.Final, Outcome.success]

theorem settles_one (test : CharTest) : Settles (.one test) := by
  intro next settling cursor counted
  cases standing : cursor.rest with
  | nil =>
      rw [attempt_one_of_nil standing]
      exact Outcome.settled_of_none rfl
  | cons c rest =>
      rw [attempt_one_of_cons standing]
      split
      case isTrue => exact (settling _ (counted.past [c])).of_past
      case isFalse => exact Outcome.settled_of_none rfl

theorem Settles.both {first second : Pattern} (firstSettles : Settles first)
    (secondSettles : Settles second) : Settles (.both first second) := by
  intro next settling
  exact firstSettles _ (secondSettles next settling)

theorem Settles.alone {pattern : Pattern} (settles : Settles pattern) : SettlesAlone pattern :=
  settles _ settling_success

/-- Two patterns can be told apart by the first character. -/
def Apart (first second : Pattern) : Prop :=
  ∀ (cursor : Cursor) (next : Continuation), cursor.rest ≠ [] →
    attempt first cursor next = .failure ∨ attempt second cursor next = .failure

theorem Settles.either {first second : Pattern} (firstSettles : Settles first)
    (secondSettles : Settles second) (apart : Apart first second) :
    Settles (.either first second) := by
  intro next settling cursor counted
  have firstSettled := firstSettles next settling cursor counted
  have secondSettled := secondSettles next settling cursor counted
  apply firstSettled.orElse secondSettled
  intro reached _ secondFound before
  have remaining : cursor.rest ≠ [] := by
    intro standing
    have bound := secondSettled.forward reached secondFound
    rw [counted, standing, List.length_nil] at bound
    omega
  rcases apart cursor next remaining with failed | failed
  · rw [failed]
    rfl
  · simp [failed] at secondFound

/-- A character that the repeated test lets pass decides what follows: it cannot stand in front of
what follows, or behind it what follows succeeds. -/
def Decides (test : CharTest) (next : Continuation) : Prop :=
  ∀ (cursor : Cursor) (c : Char) (rest : List Char), cursor.Counted → cursor.rest = c :: rest →
    test.holds c → next cursor = .failure ∨ (next (cursor.past [c])).found.isSome

theorem settled_enough {limits : Repetition} {next : Continuation} (settling : Settling next)
    {count : Nat} {cursor : Cursor} (counted : cursor.Counted) :
    (enough limits next count cursor).Settled cursor := by
  unfold enough
  split
  case isTrue => exact settling cursor counted
  case isFalse => exact Outcome.settled_of_none rfl

theorem further_of_not_allowed {step : Cursor → Continuation → Outcome} {limits : Repetition}
    {count : Nat} (full : ¬ limits.allowsMore count) (next : Continuation) (cursor : Cursor) :
    further step limits next count cursor = .failure := by
  rw [further, if_neg full]

section Tests

variable {test : CharTest} {limits : Repetition} {count : Nat} {cursor : Cursor} {c : Char}
  {rest : List Char}

theorem further_one_of_nil (allowed : limits.allowsMore count) (standing : cursor.rest = [])
    (next : Continuation) :
    further (attempt (.one test)) limits next count cursor = .starvation := by
  rw [further, if_pos allowed, attempt_one_of_nil standing]

theorem further_one_of_refused (allowed : limits.allowsMore count)
    (standing : cursor.rest = c :: rest) (refused : ¬ test.holds c) (next : Continuation) :
    further (attempt (.one test)) limits next count cursor = .failure := by
  rw [further, if_pos allowed, attempt_one_of_cons standing, if_neg refused]

theorem further_one_of_holds (allowed : limits.allowsMore count)
    (standing : cursor.rest = c :: rest) (holds : test.holds c)
    (nearer : (cursor.past [c]).left < cursor.left) (next : Continuation) :
    further (attempt (.one test)) limits next count cursor =
      iterate (attempt (.one test)) limits next (count + 1) (cursor.past [c]) := by
  rw [further, if_pos allowed, attempt_one_of_cons standing, if_pos holds, onward_of_lt nearer]

end Tests

theorem settling_iterate_one {test : CharTest} {limits : Repetition}
    (longest : limits.preference = .longest) {next : Continuation} (settling : Settling next)
    (decides : Decides test next) (count : Nat) :
    Settling (iterate (attempt (.one test)) limits next count) := by
  intro cursor counted
  induction left : cursor.left using Nat.strongRecOn generalizing cursor count with
  | _ left ih =>
      have enoughSettled : (enough limits next count cursor).Settled cursor :=
        settled_enough settling counted
      rw [iterate_eq, longest]
      by_cases allowed : limits.allowsMore count
      · cases standing : cursor.rest with
        | nil =>
            rw [further_one_of_nil allowed standing]
            refine (Outcome.settled_of_none rfl).orElse enoughSettled ?_
            intro reached _ found before
            have bound := enoughSettled.forward reached found
            rw [counted, standing, List.length_nil] at bound
            omega
        | cons c rest =>
            by_cases holds : test.holds c
            · have here : [c] <+: cursor.rest := by simp [standing]
              have nearer := Cursor.left_past_lt counted here (by simp)
              rw [further_one_of_holds allowed standing holds nearer]
              have settled := ih _ (left ▸ nearer) (count + 1) (cursor.past [c])
                (counted.past [c]) rfl
              apply settled.of_past.orElse enoughSettled
              intro reached none found _
              -- What follows succeeded here, so it would have behind the character, too.
              have notEnough := ((found_iterate_eq_none_iff _ _ _ _ _).mp none).2
              unfold enough at notEnough found
              by_cases sufficient : limits.least ≤ count
              · rw [if_pos sufficient] at found
                rw [if_pos (by omega)] at notEnough
                rcases decides cursor c rest counted standing holds with failed | isSome
                · simp [failed] at found
                · simp [notEnough] at isSome
              · simp [sufficient] at found
            · rw [further_one_of_refused allowed standing holds]
              exact (Outcome.settled_of_none rfl).orElse enoughSettled (fun _ _ _ _ => rfl)
      · rw [further_of_not_allowed allowed]
        exact (Outcome.settled_of_none rfl).orElse enoughSettled (fun _ _ _ _ => rfl)

theorem decides_success (test : CharTest) : Decides test .success :=
  fun _ _ _ _ _ _ => .inr rfl

/-- A character that does not pass cannot stand in front of a repetition of a test. -/
theorem attempt_tests_of_refused {test : CharTest} {limits : Repetition}
    (positive : 0 < limits.least) {cursor : Cursor} {c : Char} {rest : List Char}
    (standing : cursor.rest = c :: rest) (refused : test.holds c = false) (next : Continuation) :
    attempt (.repetition (.one test) limits) cursor next = .failure := by
  have noFurther : further (attempt (.one test)) limits next 0 cursor = .failure := by
    simp [further, attempt_one_of_cons standing, refused]
  have notEnough : enough limits next 0 cursor = .failure := by
    rw [enough, if_neg (by omega)]
  rw [attempt, iterate_eq, noFurther, notEnough]
  cases limits.preference <;> rfl

theorem settling_iterate_exactly {body : Pattern} (bodySettles : Settles body) (total : Nat)
    {next : Continuation} (settling : Settling next) (count : Nat) :
    Settling (iterate (attempt body) ⟨total, some total, .longest⟩ next count) := by
  intro cursor counted
  induction left : cursor.left using Nat.strongRecOn generalizing cursor count with
  | _ left ih =>
      have enoughSettled : (enough ⟨total, some total, .longest⟩ next count cursor).Settled cursor :=
        settled_enough settling counted
      have onward : Settling (onward (attempt body) ⟨total, some total, .longest⟩ next count
          cursor) := by
        intro reached reachedCounted
        by_cases nearer : reached.left < cursor.left
        · rw [onward_of_lt nearer]
          exact ih _ (left ▸ nearer) (count + 1) reached reachedCounted rfl
        · rw [onward_of_not_lt nearer]
          exact settling reached reachedCounted
      rw [iterate_eq]
      by_cases allowed : count < total
      · have further : further (attempt body) ⟨total, some total, .longest⟩ next count cursor =
            attempt body cursor
              (Pattern.onward (attempt body) ⟨total, some total, .longest⟩ next count cursor) := by
          simp [further, Repetition.allowsMore, allowed]
        rw [further]
        refine (bodySettles _ onward cursor counted).orElse enoughSettled ?_
        intro reached _ found _
        simp [enough, Nat.not_le.mpr allowed] at found
      · have further : further (attempt body) ⟨total, some total, .longest⟩ next count cursor =
            .failure := by
          simp [further, Repetition.allowsMore, allowed]
        rw [further]
        exact (Outcome.settled_of_none rfl).orElse enoughSettled (fun _ _ _ _ => rfl)

/-- A match that ends before the end of the text is final for a pattern that settles. -/
theorem run_append_of_matched {pattern : Pattern} (plain : pattern.plain)
    (settles : SettlesAlone pattern) {text : List Char} {length : Nat}
    (matched : pattern.run text = .matched length) (before : length < text.length)
    (more : List Char) : pattern.run (text ++ more) = .matched length := by
  obtain ⟨reached, found, rfl⟩ := run_eq_matched_iff.mp matched
  have settled := settles _ (Cursor.counted_front text)
  rw [run_append plain (settled.final reached found (by omega)), matched]

end Unformat.Pattern
