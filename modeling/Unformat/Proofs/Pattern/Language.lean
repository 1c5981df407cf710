import Unformat.Pattern.Basic

/-!
# The texts that a pattern describes

`Describes` says which texts a pattern describes, without a word about the order in which ways are
tried.  An attempt finds a way exactly when the text begins with a described text behind which the
rest of the attempt succeeds; the order only decides which of these ways it is.
-/

namespace Unformat

/-- So many repetitions are what a pattern asks for, from the `count`-th on: each was allowed, and
there are enough of them, unless a last one may take no text. -/
def Repetition.Admits (repetition : Repetition) (blank : Prop) (count more : Nat) : Prop :=
  (∀ earlier < more, repetition.allowsMore (count + earlier)) ∧
    (repetition.least ≤ count + more ∨ repetition.allowsMore (count + more) ∧ blank)

namespace Pattern

/-! ## Places -/

namespace Cursor

/-- The place behind a text that stands here. -/
def past (cursor : Cursor) (word : List Char) : Cursor :=
  ⟨word.getLast?.or cursor.before, cursor.rest.drop word.length, cursor.left - word.length⟩

/-- The length kept with a place is that of the text after it. -/
def Counted (cursor : Cursor) : Prop := cursor.left = cursor.rest.length

@[simp] theorem past_nil (cursor : Cursor) : cursor.past [] = cursor := by
  simp [past]

@[simp] theorem past_past (cursor : Cursor) (first second : List Char) :
    (cursor.past first).past second = cursor.past (first ++ second) := by
  simp [past, List.getLast?_append, List.drop_drop, Nat.sub_sub, Option.or_assoc]

@[simp] theorem rest_past (cursor : Cursor) (word : List Char) :
    (cursor.past word).rest = cursor.rest.drop word.length := rfl

@[simp] theorem left_past (cursor : Cursor) (word : List Char) :
    (cursor.past word).left = cursor.left - word.length := rfl

theorem Counted.past {cursor : Cursor} (counted : cursor.Counted) (word : List Char) :
    (cursor.past word).Counted := by
  simp only [Counted, rest_past, left_past, List.length_drop]
  rw [counted]

theorem counted_front (text : List Char) : (Cursor.front text).Counted := rfl

theorem past_singleton {cursor : Cursor} {c : Char} {rest : List Char}
    (standing : cursor.rest = c :: rest) : cursor.past [c] = ⟨some c, rest, cursor.left - 1⟩ := by
  simp [past, standing]

theorem prefix_append_of_past {cursor : Cursor} {first second : List Char}
    (here : first <+: cursor.rest) (there : second <+: (cursor.past first).rest) :
    first ++ second <+: cursor.rest := by
  obtain ⟨behind, standing⟩ := here
  rw [rest_past, ← standing, List.drop_left] at there
  rw [← standing]
  exact (List.prefix_append_right_inj first).mpr there

theorem prefix_past_of_append {cursor : Cursor} {first second : List Char}
    (here : first ++ second <+: cursor.rest) :
    first <+: cursor.rest ∧ second <+: (cursor.past first).rest := by
  obtain ⟨behind, standing⟩ := here
  rw [rest_past, ← standing, List.append_assoc, List.drop_left]
  exact ⟨List.prefix_append _ _, List.prefix_append _ _⟩

theorem left_past_lt {cursor : Cursor} {word : List Char} (counted : cursor.Counted)
    (here : word <+: cursor.rest) (solid : word ≠ []) :
    (cursor.past word).left < cursor.left := by
  have positive := List.length_pos_iff.mpr solid
  have bound := here.length_le
  rw [left_past, counted]
  omega

end Cursor

/-! ## Outcomes -/

namespace Outcome

@[simp] theorem found_after (starved : Bool) (outcome : Outcome) :
    (outcome.after starved).found = outcome.found := rfl

@[simp] theorem starved_after (starved : Bool) (outcome : Outcome) :
    (outcome.after starved).starved = (starved || outcome.starved) := rfl

@[simp] theorem found_success (cursor : Cursor) : (success cursor).found = some cursor := rfl

@[simp] theorem found_failure : failure.found = none := rfl

@[simp] theorem found_starvation : starvation.found = none := rfl

theorem found_orElse (first : Outcome) (second : Unit → Outcome) :
    (first.orElse second).found = first.found.or (second ()).found := by
  unfold orElse
  cases found : first.found <;> simp [found]

theorem orElse_of_isSome {first : Outcome} (found : first.found.isSome)
    (second : Unit → Outcome) : first.orElse second = first := by
  obtain ⟨reached, found⟩ := Option.isSome_iff_exists.mp found
  simp [orElse, found]

theorem orElse_of_none {first : Outcome} (found : first.found = none)
    (second : Unit → Outcome) : first.orElse second = (second ()).after first.starved := by
  simp [orElse, found]

end Outcome

/-! ## Repetitions -/

section Iterate

variable (step : Cursor → Continuation → Outcome) (repetition : Repetition) (next : Continuation)

/-- What follows one more repetition. -/
def onward (count : Nat) (cursor : Cursor) : Continuation := fun reached =>
  if reached.left < cursor.left then iterate step repetition next (count + 1) reached
  else next reached

def further (count : Nat) (cursor : Cursor) : Outcome :=
  if repetition.allowsMore count then step cursor (onward step repetition next count cursor)
  else .failure

/-- What follows the repetitions, if they are enough. -/
def enough (count : Nat) (cursor : Cursor) : Outcome :=
  if repetition.least ≤ count then next cursor else .failure

variable {step repetition next} in
theorem onward_of_lt {count : Nat} {cursor reached : Cursor}
    (nearer : reached.left < cursor.left) :
    onward step repetition next count cursor reached =
      iterate step repetition next (count + 1) reached :=
  if_pos nearer

variable {step repetition next} in
theorem onward_of_not_lt {count : Nat} {cursor reached : Cursor}
    (stuck : ¬ reached.left < cursor.left) :
    onward step repetition next count cursor reached = next reached :=
  if_neg stuck

theorem iterate_eq (count : Nat) (cursor : Cursor) :
    iterate step repetition next count cursor =
      match repetition.preference with
      | .longest =>
          (further step repetition next count cursor).orElse fun _ =>
            enough repetition next count cursor
      | .shortest =>
          (enough repetition next count cursor).orElse fun _ =>
            further step repetition next count cursor := by
  rw [iterate]
  cases repetition.preference <;> rfl

theorem found_iterate_eq_none_iff (count : Nat) (cursor : Cursor) :
    (iterate step repetition next count cursor).found = none ↔
      (further step repetition next count cursor).found = none ∧
        (enough repetition next count cursor).found = none := by
  rw [iterate_eq]
  cases repetition.preference <;> simp [Outcome.found_orElse, and_comm]

theorem found_of_iterate {count : Nat} {cursor reached : Cursor}
    (found : (iterate step repetition next count cursor).found = some reached) :
    (further step repetition next count cursor).found = some reached ∨
      (enough repetition next count cursor).found = some reached := by
  rw [iterate_eq] at found
  cases preference : repetition.preference <;>
    simp only [preference, Outcome.found_orElse, Option.or_eq_some_iff] at found <;> grind

end Iterate

theorem attempt_one_of_nil {test : CharTest} {cursor : Cursor} (standing : cursor.rest = [])
    (next : Continuation) : attempt (.one test) cursor next = .starvation := by
  simp [attempt, standing]

theorem attempt_one_of_cons {test : CharTest} {cursor : Cursor} {c : Char} {rest : List Char}
    (standing : cursor.rest = c :: rest) (next : Continuation) :
    attempt (.one test) cursor next =
      if test.holds c then next (cursor.past [c]) else .failure := by
  simp [attempt, standing, Cursor.past_singleton standing]

/-! ## Described texts -/

/-- The texts that a pattern describes.  What it says about the place where a text stands, and of
what it wants to follow, is not the concern here. -/
def Describes : Pattern → List Char → Prop
  | .nothing, word => word = []
  | .one test, word => ∃ c, test.holds c ∧ word = [c]
  | .both first second, word =>
      ∃ front behind, word = front ++ behind ∧ Describes first front ∧ Describes second behind
  | .either first second, word => Describes first word ∨ Describes second word
  | .repetition body limits, word =>
      ∃ parts : List (List Char), word = parts.flatten ∧
        (∀ part ∈ parts, part ≠ [] ∧ Describes body part) ∧
          limits.Admits (Describes body []) 0 parts.length
  | .place _, _ | .ahead _ _, _ | .atomic _, _ => False

/-- Whether a pattern consists of tests, sequences, alternatives and repetitions only. -/
def plain : Pattern → Bool
  | .nothing | .one _ => true
  | .both first second | .either first second => plain first && plain second
  | .repetition body _ => plain body
  | .place _ | .ahead _ _ | .atomic _ => false

/-- Every way that an attempt finds goes past a described text. -/
def Sound (pattern : Pattern) : Prop :=
  ∀ (cursor reached : Cursor) (next : Continuation), cursor.Counted →
    (attempt pattern cursor next).found = some reached →
      ∃ word, Describes pattern word ∧ word <+: cursor.rest ∧
        (next (cursor.past word)).found = some reached

/-- An attempt that finds no way leaves none out. -/
def Complete (pattern : Pattern) : Prop :=
  ∀ (cursor : Cursor) (next : Continuation), cursor.Counted →
    (attempt pattern cursor next).found = none →
      ∀ word, Describes pattern word → word <+: cursor.rest →
        (next (cursor.past word)).found = none

theorem Repetition.admits_zero {repetition : Repetition} {blank : Prop} {count : Nat}
    (sufficient : repetition.least ≤ count) : repetition.Admits blank count 0 := by
  refine ⟨by simp, ?_⟩
  exact .inl sufficient

/-- A body that describes some text each time is repeated as often as the limits say. -/
theorem Repetition.admits_iff {repetition : Repetition} {blank : Prop} (solid : ¬ blank)
    {count : Nat} :
    repetition.Admits blank 0 count ↔
      repetition.least ≤ count ∧ ∀ most ∈ repetition.most, count ≤ most := by
  simp only [Repetition.Admits, Repetition.allowsMore, Option.all_eq_true, decide_eq_true_eq,
    Nat.zero_add, solid, and_false, or_false]
  constructor
  · intro given
    obtain ⟨allowed, sufficient⟩ := given
    refine ⟨sufficient, ?_⟩
    intro most limit
    cases count with
    | zero => exact Nat.zero_le _
    | succ count => exact allowed count (Nat.lt_succ_self _) most limit
  · intro given
    obtain ⟨sufficient, bounded⟩ := given
    refine ⟨?_, sufficient⟩
    intro earlier less most limit
    exact Nat.lt_of_lt_of_le less (bounded most limit)

theorem describes_one_char_iff {c : Char} {word : List Char} :
    Describes (.one (.char c)) word ↔ word = [c] := by
  simp [Describes, CharTest.holds]

theorem not_describes_one_nil (test : CharTest) : ¬ Describes (.one test) [] := by
  simp [Describes]

theorem describes_repetition_iff {body : Pattern} {limits : Repetition}
    (solid : ¬ Describes body []) {word : List Char} :
    Describes (.repetition body limits) word ↔
      ∃ parts : List (List Char), word = parts.flatten ∧ (∀ part ∈ parts, Describes body part) ∧
        limits.least ≤ parts.length ∧ ∀ most ∈ limits.most, parts.length ≤ most := by
  simp only [Describes, Repetition.admits_iff solid]
  constructor
  · intro spelled
    obtain ⟨parts, joined, described, admitted⟩ := spelled
    exact ⟨parts, joined, fun part member => (described part member).2, admitted⟩
  · intro spelled
    obtain ⟨parts, joined, described, admitted⟩ := spelled
    refine ⟨parts, joined, ?_, admitted⟩
    intro part member
    refine ⟨?_, described part member⟩
    intro same
    subst same
    exact solid (described [] member)

theorem describes_at_most_once_iff {body : Pattern} {preference : Preference}
    (solid : ¬ Describes body []) {word : List Char} :
    Describes (.repetition body ⟨0, some 1, preference⟩) word ↔
      word = [] ∨ Describes body word := by
  rw [describes_repetition_iff solid]
  constructor
  · intro spelled
    obtain ⟨parts, rfl, described, _, bounded⟩ := spelled
    match parts with
    | [] => exact .inl rfl
    | [part] =>
        right
        simpa using described
    | _ :: _ :: _ => simp at bounded
  · intro spelled
    rcases spelled with rfl | described
    · exact ⟨[], by simp⟩
    · exact ⟨[word], by simp [described]⟩

theorem describes_tests_iff {test : CharTest} {limits : Repetition} {word : List Char} :
    Describes (.repetition (.one test) limits) word ↔
      (∀ c ∈ word, test.holds c) ∧ limits.least ≤ word.length ∧
        ∀ most ∈ limits.most, word.length ≤ most := by
  rw [describes_repetition_iff (not_describes_one_nil test)]
  constructor
  · intro spelled
    obtain ⟨parts, rfl, described, bounds⟩ := spelled
    have singles : ∀ part ∈ parts, part.length = 1 := by
      intro part member
      obtain ⟨c, _, rfl⟩ := described part member
      rfl
    have sum : parts.flatten.length = parts.length := by
      rw [List.length_flatten, List.map_congr_left singles, List.map_const', List.sum_replicate_nat,
        Nat.mul_one]
    refine ⟨?_, by rwa [sum]⟩
    intro c member
    obtain ⟨part, partMember, inside⟩ := List.mem_flatten.mp member
    obtain ⟨d, holds, rfl⟩ := described part partMember
    rwa [List.mem_singleton.mp inside]
  · intro given
    obtain ⟨passes, bounds⟩ := given
    refine ⟨word.map fun c => [c], ?_, ?_, by rwa [List.length_map]⟩
    · rw [← List.flatMap_def, List.flatMap_singleton']
    · intro part member
      obtain ⟨c, inside, rfl⟩ := List.mem_map.mp member
      exact ⟨c, passes c inside, rfl⟩

/-- The repetitions that an iteration finds, of a sound body. -/
theorem exists_of_found_iterate {body : Pattern} (sound : Sound body) (repetition : Repetition)
    (next : Continuation) {cursor reached : Cursor} {count : Nat} (counted : cursor.Counted)
    (found : (iterate (attempt body) repetition next count cursor).found = some reached) :
    ∃ parts : List (List Char), (∀ part ∈ parts, part ≠ [] ∧ Describes body part) ∧
      repetition.Admits (Describes body []) count parts.length ∧
        parts.flatten <+: cursor.rest ∧
          (next (cursor.past parts.flatten)).found = some reached := by
  induction left : cursor.left using Nat.strongRecOn generalizing cursor count with
  | _ left ih =>
      rcases found_of_iterate _ _ _ found with further | enough
      · unfold Pattern.further at further
        split at further
        case isFalse => simp at further
        case isTrue allowed =>
          obtain ⟨word, described, here, onward⟩ := sound _ _ _ counted further
          by_cases solid : word = []
          · subst solid
            rw [Cursor.past_nil, onward_of_not_lt (Nat.lt_irrefl _)] at onward
            refine ⟨[], by simp, ⟨by simp, .inr ⟨allowed, described⟩⟩, by simp, by simpa⟩
          · have nearer := Cursor.left_past_lt counted here solid
            rw [onward_of_lt nearer] at onward
            obtain ⟨parts, solids, ⟨earlier, sufficient⟩, there, behind⟩ :=
              ih _ (left ▸ nearer) (counted.past word) onward rfl
            refine ⟨word :: parts, ?_, ⟨?_, ?_⟩, ?_, ?_⟩
            · simpa [solid, described] using solids
            · rintro (_ | index) bound
              · exact allowed
              · have before := earlier index (by simpa using bound)
                rwa [Nat.add_right_comm, Nat.add_assoc] at before
            · rw [List.length_cons, Nat.add_comm parts.length, ← Nat.add_assoc]
              exact sufficient
            · exact Cursor.prefix_append_of_past here there
            · simpa using behind
      · unfold Pattern.enough at enough
        split at enough
        case isFalse => simp at enough
        case isTrue sufficient =>
          exact ⟨[], by simp, Repetition.admits_zero sufficient, by simp, by simpa⟩

theorem sound_of_plain {pattern : Pattern} (plain : pattern.plain) : Sound pattern := by
  induction pattern with
  | nothing =>
      intro cursor reached next _ found
      exact ⟨[], rfl, List.nil_prefix, by simpa [attempt] using found⟩
  | one test =>
      intro cursor reached next _ found
      cases standing : cursor.rest with
      | nil => simp [attempt_one_of_nil standing] at found
      | cons c rest =>
          rw [attempt_one_of_cons standing] at found
          by_cases holds : test.holds c
          · rw [if_pos holds] at found
            exact ⟨[c], ⟨c, holds, rfl⟩, by simp, found⟩
          · simp [holds] at found
  | both first second firstSound secondSound =>
      obtain ⟨firstPlain, secondPlain⟩ := (Bool.and_eq_true _ _).mp plain
      intro cursor reached next counted found
      obtain ⟨front, frontDescribed, here, onward⟩ :=
        firstSound firstPlain _ _ _ counted found
      obtain ⟨behind, behindDescribed, there, found⟩ :=
        secondSound secondPlain _ _ _ (counted.past front) onward
      refine ⟨front ++ behind, ⟨front, behind, rfl, frontDescribed, behindDescribed⟩, ?_, ?_⟩
      · exact Cursor.prefix_append_of_past here there
      · simpa using found
  | either first second firstSound secondSound =>
      obtain ⟨firstPlain, secondPlain⟩ := (Bool.and_eq_true _ _).mp plain
      intro cursor reached next counted found
      rw [attempt, Outcome.found_orElse, Option.or_eq_some_iff] at found
      rcases found with found | ⟨_, found⟩
      · obtain ⟨word, described, here, found⟩ := firstSound firstPlain _ _ _ counted found
        exact ⟨word, .inl described, here, found⟩
      · obtain ⟨word, described, here, found⟩ := secondSound secondPlain _ _ _ counted found
        exact ⟨word, .inr described, here, found⟩
  | repetition body limits bodySound =>
      intro cursor reached next counted found
      obtain ⟨parts, solids, admitted, here, found⟩ :=
        exists_of_found_iterate (bodySound plain) limits next counted found
      exact ⟨parts.flatten, ⟨parts, rfl, solids, admitted⟩, here, found⟩
  | place condition => simp [Pattern.plain] at plain
  | ahead negated body => simp [Pattern.plain] at plain
  | atomic body => simp [Pattern.plain] at plain

/-- An iteration of a complete body that finds no way leaves none out. -/
theorem found_iterate_eq_none {body : Pattern} (complete : Complete body) (limits : Repetition)
    (next : Continuation) {cursor : Cursor} {count : Nat} (counted : cursor.Counted)
    (none : (iterate (attempt body) limits next count cursor).found = none)
    {parts : List (List Char)} (solids : ∀ part ∈ parts, part ≠ [] ∧ Describes body part)
    (admitted : limits.Admits (Describes body []) count parts.length)
    (here : parts.flatten <+: cursor.rest) :
    (next (cursor.past parts.flatten)).found = .none := by
  induction parts generalizing cursor count with
  | nil =>
      obtain ⟨noFurther, notEnough⟩ := (found_iterate_eq_none_iff _ _ _ _ _).mp none
      rw [List.flatten_nil, Cursor.past_nil]
      rcases admitted.2 with sufficient | ⟨allowed, blank⟩
      · rwa [enough, if_pos (by simpa using sufficient)] at notEnough
      · rw [further, if_pos (by simpa using allowed)] at noFurther
        have onward := complete _ _ counted noFurther [] blank List.nil_prefix
        rwa [Cursor.past_nil, onward_of_not_lt (Nat.lt_irrefl _)] at onward
  | cons part parts ih =>
      obtain ⟨noFurther, _⟩ := (found_iterate_eq_none_iff _ _ _ _ _).mp none
      obtain ⟨earlier, sufficient⟩ := admitted
      obtain ⟨solid, described⟩ := solids part List.mem_cons_self
      rw [List.flatten_cons] at here ⊢
      obtain ⟨first, others⟩ := Cursor.prefix_past_of_append here
      have allowed : limits.allowsMore count := earlier 0 (by simp)
      rw [further, if_pos allowed] at noFurther
      have onward := complete _ _ counted noFurther part described first
      rw [onward_of_lt (Cursor.left_past_lt counted first solid)] at onward
      have behind := ih (counted.past part) onward
        (fun other member => solids other (List.mem_cons_of_mem _ member)) ⟨?_, ?_⟩ others
      · simpa using behind
      · intro index bound
        have allowed := earlier (index + 1) (by simpa using bound)
        rwa [← Nat.add_assoc, Nat.add_right_comm] at allowed
      · rwa [List.length_cons, Nat.add_comm parts.length, ← Nat.add_assoc] at sufficient

theorem complete_of_plain {pattern : Pattern} (plain : pattern.plain) : Complete pattern := by
  induction pattern with
  | nothing =>
      rintro cursor next _ none word rfl _
      simpa [attempt] using none
  | one test =>
      rintro cursor next _ none word ⟨c, holds, rfl⟩ ⟨behind, standing⟩
      have standing : cursor.rest = c :: behind := standing.symm
      rwa [attempt_one_of_cons standing, if_pos holds] at none
  | both first second firstComplete secondComplete =>
      obtain ⟨firstPlain, secondPlain⟩ := (Bool.and_eq_true _ _).mp plain
      rintro cursor next counted none word ⟨front, behind, rfl, frontDescribed, behindDescribed⟩ here
      obtain ⟨here, there⟩ := Cursor.prefix_past_of_append here
      have onward := firstComplete firstPlain _ _ counted none front frontDescribed here
      have found := secondComplete secondPlain _ _ (counted.past front) onward behind
        behindDescribed there
      simpa using found
  | either first second firstComplete secondComplete =>
      obtain ⟨firstPlain, secondPlain⟩ := (Bool.and_eq_true _ _).mp plain
      intro cursor next counted none word described here
      rw [attempt, Outcome.found_orElse, Option.or_eq_none_iff] at none
      rcases described with described | described
      · exact firstComplete firstPlain _ _ counted none.1 word described here
      · exact secondComplete secondPlain _ _ counted none.2 word described here
  | repetition body limits bodyComplete =>
      rintro cursor next counted none word ⟨parts, rfl, solids, admitted⟩ here
      exact found_iterate_eq_none (bodyComplete plain) limits next counted none solids admitted here
  | place condition => simp [Pattern.plain] at plain
  | ahead negated body => simp [Pattern.plain] at plain
  | atomic body => simp [Pattern.plain] at plain

/-! ## Verdicts -/

theorem run_eq_matched_iff {pattern : Pattern} {text : List Char} {length : Nat} :
    pattern.run text = .matched length ↔
      ∃ reached, (attempt pattern (.front text) .success).found = some reached ∧
        text.length - reached.left = length := by
  simp only [run]
  cases found : (attempt pattern (.front text) .success).found with
  | none =>
      by_cases starved : (attempt pattern (.front text) .success).starved <;> simp [starved]
  | some reached => simp

/-- What a plain pattern matches at the front of a text is a text that it describes. -/
theorem describes_of_run_eq_matched {pattern : Pattern} (plain : pattern.plain)
    {text : List Char} {length : Nat} (matched : pattern.run text = .matched length) :
    Describes pattern (text.take length) ∧ length ≤ text.length := by
  obtain ⟨reached, found, rfl⟩ := run_eq_matched_iff.mp matched
  obtain ⟨word, described, here, same⟩ :=
    sound_of_plain plain _ _ _ (Cursor.counted_front text) found
  have bound := here.length_le
  have start : (Cursor.front text).rest = text := rfl
  have full : (Cursor.front text).left = text.length := rfl
  rw [start] at here bound
  simp only [Outcome.found_success, Option.some.injEq] at same
  rw [← same, Cursor.left_past, full, Nat.sub_sub_self bound]
  refine ⟨?_, bound⟩
  rwa [← List.prefix_iff_eq_take.mp here]

/-- A plain pattern matches something at the front of a text that begins with a described one. -/
theorem exists_matched_of_describes {pattern : Pattern} (plain : pattern.plain)
    {word : List Char} (described : Describes pattern word) (behind : List Char) :
    ∃ length, pattern.run (word ++ behind) = .matched length := by
  cases found : (attempt pattern (.front (word ++ behind)) .success).found with
  | none =>
      have none := complete_of_plain plain _ _ (Cursor.counted_front _) found word described
        (List.prefix_append _ _)
      simp at none
  | some reached => exact ⟨_, run_eq_matched_iff.mpr ⟨reached, found, rfl⟩⟩

end Pattern

end Unformat
