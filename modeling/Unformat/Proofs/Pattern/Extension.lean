import Unformat.Proofs.Pattern.Language

/-!
# More text behind a text

An attempt that never wanted a character past the end goes the same way when more text stands
behind the text tried.  So the verdict of a pattern without conditions on places is final unless it
says otherwise, but a match is only known to be the first one when no way before it starved.
-/

namespace Unformat.Pattern

variable (more : List Char)

/-- The same place with more text behind. -/
def Cursor.extend (cursor : Cursor) : Cursor :=
  ⟨cursor.before, cursor.rest ++ more, cursor.left + more.length⟩

/-- The same outcome with more text behind. -/
def Outcome.extend (outcome : Outcome) : Outcome :=
  ⟨outcome.found.map (·.extend more), outcome.starved⟩

/-- With more text behind, what follows goes the same way where it did not starve. -/
def Follows (next extended : Continuation) : Prop :=
  ∀ cursor : Cursor, cursor.Counted → (next cursor).starved = false →
    extended (cursor.extend more) = (next cursor).extend more

namespace Outcome

@[simp] theorem extend_failure : failure.extend more = failure := rfl

@[simp] theorem extend_after (starved : Bool) (outcome : Outcome) :
    (outcome.after starved).extend more = (outcome.extend more).after starved := rfl

theorem starved_orElse (first : Outcome) (second : Unit → Outcome) :
    (first.orElse second).starved =
      (first.starved || first.found.isNone && (second ()).starved) := by
  unfold orElse
  cases found : first.found <;> simp

theorem orElse_extend {first firstExtended : Outcome} {second secondExtended : Unit → Outcome}
    (firstSame : first.starved = false → firstExtended = first.extend more)
    (secondSame : (second ()).starved = false → secondExtended () = (second ()).extend more)
    (fed : (first.orElse second).starved = false) :
    firstExtended.orElse secondExtended = (first.orElse second).extend more := by
  rw [starved_orElse, Bool.or_eq_false_iff] at fed
  rw [firstSame fed.1]
  cases found : first.found with
  | none =>
      have stillNone : (first.extend more).found = none := by simp [extend, found]
      rw [orElse_of_none found, orElse_of_none stillNone, secondSame (by simpa [found] using fed.2)]
      rfl
  | some reached =>
      have isSome : first.found.isSome := by simp [found]
      rw [orElse_of_isSome isSome, orElse_of_isSome (by simpa [extend] using isSome)]

end Outcome

theorem follows_success : Follows more Outcome.success Outcome.success := fun _ _ _ => rfl

variable {more}

theorem Cursor.past_extend {cursor : Cursor} (counted : cursor.Counted) {word : List Char}
    (here : word <+: cursor.rest) :
    (cursor.extend more).past word = (cursor.past word).extend more := by
  have bound := here.length_le
  simp only [past, extend, mk.injEq, true_and]
  constructor
  · exact List.drop_append_of_le_length bound
  · rw [counted]
    omega

theorem iterate_extend {step : Cursor → Continuation → Outcome} (limits : Repetition)
    (stepExtend : ∀ (cursor : Cursor) (next extended : Continuation), cursor.Counted →
      Follows more next extended → (step cursor next).starved = false →
        step (cursor.extend more) extended = (step cursor next).extend more)
    {next extended : Continuation} (follows : Follows more next extended) {cursor : Cursor}
    {count : Nat} (counted : cursor.Counted)
    (fed : (iterate step limits next count cursor).starved = false) :
    iterate step limits extended count (cursor.extend more) =
      (iterate step limits next count cursor).extend more := by
  induction left : cursor.left using Nat.strongRecOn generalizing cursor count with
  | _ left ih =>
      have onward : Follows more (onward step limits next count cursor)
          (onward step limits extended count (cursor.extend more)) := by
        intro reached reachedCounted fed
        by_cases nearer : reached.left < cursor.left
        · have stillNearer : (reached.extend more).left < (cursor.extend more).left :=
            Nat.add_lt_add_right nearer _
          rw [onward_of_lt nearer] at fed
          rw [onward_of_lt nearer, onward_of_lt stillNearer]
          exact ih _ (left ▸ nearer) reachedCounted fed rfl
        · have stillStuck : ¬ (reached.extend more).left < (cursor.extend more).left := by
            simpa [Cursor.extend] using nearer
          rw [onward_of_not_lt nearer] at fed
          rw [onward_of_not_lt nearer, onward_of_not_lt stillStuck]
          exact follows reached reachedCounted fed
      have furtherSame : (further step limits next count cursor).starved = false →
          further step limits extended count (cursor.extend more) =
            (further step limits next count cursor).extend more := by
        intro fed
        unfold further at fed ⊢
        split
        case isTrue allowed =>
          rw [if_pos allowed] at fed
          exact stepExtend _ _ _ counted onward fed
        case isFalse => rfl
      have enoughSame : (enough limits next count cursor).starved = false →
          enough limits extended count (cursor.extend more) =
            (enough limits next count cursor).extend more := by
        intro fed
        unfold enough at fed ⊢
        split
        case isTrue sufficient =>
          rw [if_pos sufficient] at fed
          exact follows cursor counted fed
        case isFalse => rfl
      rw [iterate_eq] at fed ⊢
      rw [iterate_eq]
      cases preference : limits.preference with
      | longest =>
          simp only [preference] at fed ⊢
          exact Outcome.orElse_extend more furtherSame enoughSame fed
      | shortest =>
          simp only [preference] at fed ⊢
          exact Outcome.orElse_extend more enoughSame furtherSame fed

/-- An attempt that never starved goes the same way with more text behind. -/
theorem attempt_extend {pattern : Pattern} (plain : pattern.plain) {cursor : Cursor}
    {next extended : Continuation} (counted : cursor.Counted)
    (follows : Follows more next extended)
    (fed : (attempt pattern cursor next).starved = false) :
    attempt pattern (cursor.extend more) extended =
      (attempt pattern cursor next).extend more := by
  induction pattern generalizing cursor next extended with
  | nothing => exact follows cursor counted fed
  | one test =>
      cases standing : cursor.rest with
      | nil => simp [attempt_one_of_nil standing, Outcome.starvation] at fed
      | cons c rest =>
          have stillStanding : (cursor.extend more).rest = c :: (rest ++ more) := by
            simp [Cursor.extend, standing]
          rw [attempt_one_of_cons standing] at fed ⊢
          rw [attempt_one_of_cons stillStanding]
          by_cases holds : test.holds c
          · rw [if_pos holds] at fed
            rw [if_pos holds, if_pos holds, Cursor.past_extend counted (by simp [standing])]
            exact follows _ (counted.past [c]) fed
          · simp [holds]
  | both first second firstSame secondSame =>
      obtain ⟨firstPlain, secondPlain⟩ := (Bool.and_eq_true _ _).mp plain
      refine firstSame firstPlain counted ?_ fed
      intro reached reachedCounted fed
      exact secondSame secondPlain reachedCounted follows fed
  | either first second firstSame secondSame =>
      obtain ⟨firstPlain, secondPlain⟩ := (Bool.and_eq_true _ _).mp plain
      exact Outcome.orElse_extend more (firstSame firstPlain counted follows)
        (secondSame secondPlain counted follows) fed
  | repetition body limits bodySame =>
      exact iterate_extend limits
        (fun _ _ _ counted follows fed => bodySame plain counted follows fed) follows counted fed
  | place condition => simp [Pattern.plain] at plain
  | ahead negated body => simp [Pattern.plain] at plain
  | atomic body => simp [Pattern.plain] at plain

/-- A verdict for which no way starved is final. -/
theorem run_append {pattern : Pattern} (plain : pattern.plain) {text : List Char}
    (fed : (attempt pattern (.front text) .success).starved = false) (more : List Char) :
    pattern.run (text ++ more) = pattern.run text := by
  have front : Cursor.front (text ++ more) = (Cursor.front text).extend more := by
    simp [Cursor.front, Cursor.extend]
  have same := attempt_extend plain (Cursor.counted_front text) (follows_success more) fed
  simp only [run, front, same, Outcome.extend, fed]
  cases found : (attempt pattern (.front text) .success).found with
  | none => rfl
  | some reached => simp [Cursor.extend, Nat.add_sub_add_right]

theorem run_append_of_failed {pattern : Pattern} (plain : pattern.plain) {text : List Char}
    (failed : pattern.run text = .failed) (more : List Char) :
    pattern.run (text ++ more) = .failed := by
  have fed : (attempt pattern (.front text) .success).starved = false := by
    simp only [run] at failed
    split at failed
    · simp at failed
    · split at failed
      · simp at failed
      · simp_all
  rw [run_append plain fed, failed]

end Unformat.Pattern
