import Mathlib.Data.List.Infix
import Unformat.Proofs.Pattern.Address

/-!
# Beginnings of addresses

A beginning of an address that itself begins with a whole address, and is not one, has more than
eight groups or ends behind a gap: in a dotted tail that is not complete, or behind a single colon.
-/

namespace Unformat

open Pattern

namespace DefaultPattern

/-- Every group of a dotted tail has begun. -/
def Tailed (text : List Char) : Prop := text.count '.' = 3 ∧ ¬ ['.'] <:+ text

/-- Eight groups stand at the front, each with a colon behind it. -/
def Crowded (text : List Char) : Prop := Begins (groups ⟨8, some 8, .longest⟩) text

/-- Behind a gap a dotted tail or a further group has begun, or the colon before it. -/
def OpenGap (text : List Char) : Prop :=
  [':', ':'] <:+: text ∧ ('.' ∈ text ∨ [':'] <:+ text ∧ ¬ [':', ':'] <:+ text)

/-- The text begins with an address and is not one, though one may begin with it. -/
def OpenAddress (text : List Char) : Prop := ¬ Tailed text ∧ (Crowded text ∨ OpenGap text)

/-! ## Beginnings of groups -/

/-- A beginning of groups with colons ends inside a group or behind them all. -/
theorem prefix_links_cases {words : List (List Char)} {part rest : List Char}
    (areGroups : Groups words) (here : part <+: links words ++ rest) :
    (∃ done word, Groups done ∧ done.length < words.length ∧ (word = [] ∨ Describes group word) ∧
      part = links done ++ word) ∨
    ∃ more, more <+: rest ∧ part = links words ++ more := by
  induction words generalizing part with
  | nil => exact .inr ⟨part, here, rfl⟩
  | cons word words ih =>
      have isGroup := areGroups.head
      have others := areGroups.tail
      rw [links_cons, List.append_assoc, List.cons_append] at here
      rcases prefix_append_cases here with inside | ⟨more, moreHere, rfl⟩
      · exact .inl ⟨[], part, by simp [Groups], by simp, group_of_beginning isGroup inside, rfl⟩
      rcases List.prefix_cons_iff.mp moreHere with rfl | ⟨behind, rfl, behindHere⟩
      · exact .inl ⟨[], word, by simp [Groups], by simp, .inr isGroup, by simp⟩
      rcases ih others behindHere with ⟨done, last, doneGroups, fewer, lastCase, rfl⟩ |
        ⟨rest, restHere, rfl⟩
      · refine .inl ⟨word :: done, last, groups_cons isGroup doneGroups, ?_, lastCase, by simp⟩
        simpa using fewer
      · exact .inr ⟨rest, restHere, by simp⟩

theorem crowded_of_links {words : List (List Char)} (areGroups : Groups words)
    (many : 8 ≤ words.length) {text : List Char} (here : links words <+: text) : Crowded text := by
  refine ⟨links (words.take 8), describes_exactly_iff.mpr ⟨words.take 8, ?_, ?_, rfl⟩, ?_⟩
  · exact areGroups.of_prefix (List.take_prefix _ _)
  · rw [List.length_take]
    omega
  · exact ((List.take_prefix 8 words).flatMap _).trans here

/-! ## Dotted tails -/

theorem suffix_singleton_iff {c : Char} {text : List Char} :
    [c] <:+ text ↔ text.getLast? = some c := by
  rw [List.getLast?_eq_some_iff]
  exact ⟨fun ⟨before, same⟩ => ⟨before, same.symm⟩, fun ⟨before, same⟩ => ⟨before, same.symm⟩⟩

theorem DottedBase.dot_not_mem {bare : Bool} {base : List Char} (isBase : DottedBase bare base) :
    '.' ∉ base := by
  cases isBase with
  | six areGroups => exact dot_not_mem_links areGroups
  | gap joined areGroups => simp [joined.dot_not_mem, dot_not_mem_links areGroups]
  | nothing => exact List.not_mem_nil

theorem IsDotted.tailed {bare : Bool} {text : List Char} (isDotted : IsDotted bare text) :
    Tailed text := by
  obtain ⟨isBase, isStem, isLast⟩ := isDotted
  rename_i base stem last
  constructor
  · rw [List.count_append, List.count_append, count_dot_octets isStem,
      List.count_eq_zero.mpr isBase.dot_not_mem,
      List.count_eq_zero.mpr (dot_not_mem_octet isLast)]
  · rw [suffix_singleton_iff, ← List.append_assoc]
    intro ending
    have solid := (describes_octet_iff.mp isLast).2.1
    rw [List.getLast?_append, List.getLast?_eq_some_getLast solid] at ending
    obtain same : last.getLast solid = '.' := by simpa using ending
    exact dot_not_mem_octet isLast (same ▸ List.getLast_mem solid)

/-- A beginning in which every group of the tail has begun is an address with a dotted tail. -/
theorem IsDotted.of_prefix {bare : Bool} {text part : List Char} (isDotted : IsDotted bare text)
    (here : part <+: text) (tailed : Tailed part) : IsDotted bare part := by
  obtain ⟨isBase, isStem, isLast⟩ := isDotted
  rename_i base stem last
  obtain ⟨three, noDot⟩ := tailed
  have ending : (base ++ stem).getLast? = some '.' := by
    rw [List.getLast?_append, getLast?_octets isStem]
    rfl
  have dots : (base ++ stem).count '.' = 3 := by
    rw [List.count_append, count_dot_octets isStem, List.count_eq_zero.mpr isBase.dot_not_mem]
  rw [← List.append_assoc] at here
  rcases prefix_append_cases here with inside | ⟨more, moreHere, rfl⟩
  · by_cases whole : part = base ++ stem
    · rw [whole, suffix_singleton_iff, ending] at noDot
      exact (noDot rfl).elim
    · have fewer := count_lt_of_prefix inside ending whole
      omega
  · by_cases empty : more = []
    · rw [empty, List.append_nil, suffix_singleton_iff, ending] at noDot
      exact (noDot rfl).elim
    · rw [List.append_assoc]
      exact .mk isBase isStem (octet_of_beginning isLast moreHere empty)

/-- Once every group of the tail has begun, this stays so until there are more dots. -/
theorem Tailed.of_prefix {part text : List Char} (tailed : Tailed part) (here : part <+: text)
    (few : text.count '.' ≤ 3) : Tailed text := by
  obtain ⟨three, noDot⟩ := tailed
  have atLeast := here.count_le '.'
  refine ⟨by omega, ?_⟩
  rw [suffix_singleton_iff] at noDot ⊢
  intro ending
  have other : part ≠ text := by
    intro same
    subst same
    exact noDot ending
  have fewer := count_lt_of_prefix here ending other
  omega

theorem isDotted_of_dot_mem {bare : Bool} {text : List Char}
    (described : Describes (addressForms bare) text) (dot : '.' ∈ text) : IsDotted bare text := by
  rcases describes_addressForms_iff.mp described with isDotted | eight | gapped
  · exact isDotted
  · exact (dot_not_mem_eightGroups eight dot).elim
  · exact (dot_not_mem_gapGroups gapped dot).elim

/-! ## Groups before a gap -/

/-- What stands behind the first groups of an address. -/
theorem exists_links_of_describes {bare : Bool} {text : List Char}
    (described : Describes (addressForms bare) text) :
    ∃ words rest, Groups words ∧ text = links words ++ rest ∧
      (words.length ≤ 6 ∧ ':' ∉ rest ∨ words.length = 7 ∧ Describes group rest ∨
        ∃ more, rest = ':' :: more) := by
  have ofGap {before : List Char} (joined : Joined before) (rest : List Char) :
      ∃ words more, Groups words ∧ before ++ ':' :: ':' :: rest = links words ++ ':' :: more := by
    rcases joined with rfl | ⟨words, word, areGroups, isGroup, rfl⟩
    · exact ⟨[], ':' :: rest, by simp [Groups], rfl⟩
    · exact ⟨words ++ [word], rest, groups_concat areGroups isGroup, by simp [links_concat]⟩
  rcases describes_addressForms_iff.mp described with isDotted | eight | gapped
  · cases isDotted with
    | @mk base stem last isBase isStem isLast =>
        have noColon : ':' ∉ stem ++ last := by
          simp [colon_not_mem_octets isStem, colon_not_mem_group (group_of_octet isLast)]
        cases isBase with
        | six areGroups six => exact ⟨_, _, areGroups, rfl, .inl ⟨by omega, noColon⟩⟩
        | @gap before words joined areGroups =>
            obtain ⟨others, more, othersGroups, same⟩ := ofGap joined (links words ++ (stem ++ last))
            refine ⟨others, _, othersGroups, ?_, .inr (.inr ⟨more, rfl⟩)⟩
            rw [← same]
            simp
        | nothing => exact ⟨[], _, by simp [Groups], rfl, .inl ⟨by simp, noColon⟩⟩
  · obtain ⟨words, word, areGroups, seven, isGroup, rfl⟩ := describes_eightGroups_iff.mp eight
    exact ⟨words, word, areGroups, rfl, .inr (.inl ⟨seven, isGroup⟩)⟩
  · obtain ⟨before, behind, joined, _, rfl⟩ := describes_gapGroups_iff.mp gapped
    obtain ⟨words, more, areGroups, same⟩ := ofGap joined behind
    exact ⟨words, _, areGroups, same, .inr (.inr ⟨more, rfl⟩)⟩

section EightGroups

variable {word shown : List Char} (eight : Describes eightGroups word) (here : word <+: shown)

include eight

theorem count_colon_eightGroups : word.count ':' = 7 := by
  obtain ⟨words, last, areGroups, seven, isGroup, rfl⟩ := describes_eightGroups_iff.mp eight
  rw [List.count_append, count_colon_links areGroups,
    List.count_eq_zero.mpr (colon_not_mem_group isGroup), seven]

theorem getLast?_eightGroups : word.getLast? ≠ some ':' := by
  obtain ⟨words, last, _, _, isGroup, rfl⟩ := describes_eightGroups_iff.mp eight
  have solid := (describes_group_iff.mp isGroup).2.1
  rw [List.getLast?_append, List.getLast?_eq_some_getLast solid]
  intro ending
  obtain same : last.getLast solid = ':' := by simpa using ending
  exact colon_not_mem_group isGroup (same ▸ List.getLast_mem solid)

theorem gapless_eightGroups : Gapless word := by
  obtain ⟨words, last, areGroups, _, isGroup, rfl⟩ := describes_eightGroups_iff.mp eight
  exact gapless_links_append areGroups (colon_not_mem_group isGroup)

include here

/-- A text that ends with a colon has more colons than eight groups that it begins with. -/
theorem seven_lt_count_colon (ending : shown.getLast? = some ':') : 7 < shown.count ':' := by
  rw [← count_colon_eightGroups eight]
  apply count_lt_of_prefix here ending
  intro same
  subst same
  exact getLast?_eightGroups eight ending

/-- Links of groups that begin with eight groups are eight groups themselves, or more. -/
theorem eightGroups_of_links (roomy : ¬ Crowded shown) {words : List (List Char)} {last : List Char}
    (areGroups : Groups words) (lastCase : last = [] ∨ Describes group last)
    (standing : shown = links words ++ last) : Describes eightGroups shown := by
  have noColon : ':' ∉ last := by
    rcases lastCase with rfl | isGroup
    · exact List.not_mem_nil
    · exact colon_not_mem_group isGroup
  have colons : shown.count ':' = words.length := by
    rw [standing, List.count_append, count_colon_links areGroups, List.count_eq_zero.mpr noColon,
      Nat.add_zero]
  have few : words.length < 8 := by
    by_contra many
    exact roomy (crowded_of_links areGroups (Nat.not_lt.mp many) ⟨last, standing.symm⟩)
  have atLeast := here.count_le ':'
  rw [count_colon_eightGroups eight, colons] at atLeast
  rcases lastCase with rfl | isGroup
  · have solid : words ≠ [] := List.ne_nil_of_length_pos (by omega)
    have lastColon : shown.getLast? = some ':' := by
      rw [standing, List.append_nil, getLast?_links solid]
    have more := seven_lt_count_colon eight here lastColon
    omega
  · exact describes_eightGroups_iff.mpr ⟨words, last, areGroups, by omega, isGroup, standing⟩

/-- Eight groups with a colon behind links of groups reach beyond eight of them. -/
theorem crowded_of_colon {words : List (List Char)} (areGroups : Groups words)
    (colonStands : links words ++ [':'] <+: shown) : Crowded shown := by
  have linksHere : links words <+: shown := (List.prefix_append _ _).trans colonStands
  rcases List.prefix_or_prefix_of_prefix here colonStands with inside | beyond
  · rw [List.prefix_concat_iff] at inside
    rcases inside with rfl | inside
    · exact (getLast?_eightGroups eight List.getLast?_concat).elim
    · have solid : words ≠ [] := by
        intro same
        subst same
        obtain rfl := List.prefix_nil.mp inside
        have seven := count_colon_eightGroups eight
        simp at seven
      have many := seven_lt_count_colon eight inside (getLast?_links solid)
      rw [count_colon_links areGroups] at many
      exact crowded_of_links areGroups many linksHere
  · exfalso
    by_cases empty : words = []
    · subst empty
      obtain ⟨others, last, othersGroups, seven, isGroup, rfl⟩ := describes_eightGroups_iff.mp eight
      obtain ⟨first, others, rfl⟩ := List.exists_cons_of_length_pos (by omega : 0 < others.length)
      obtain ⟨c, rest, rfl, holds⟩ := exists_of_group othersGroups.head
      have same : ':' = c := by simpa using beyond
      exact ne_colon_of_hexDigit holds same.symm
    · have doubled : [':', ':'] <:+: links words ++ [':'] := by
        rw [← List.dropLast_append_getLast empty, links_concat]
        exact ⟨links words.dropLast ++ words.getLast empty, [], by simp⟩
      exact gapless_eightGroups eight (doubled.trans beyond.isInfix)

/-- A beginning of an address that begins with eight groups, and not with more, is eight groups. -/
theorem eightGroups_of_beginning {bare : Bool} {text : List Char}
    (described : Describes (addressForms bare) text) (part : shown <+: text)
    (roomy : ¬ Crowded shown) : Describes eightGroups shown := by
  obtain ⟨words, rest, areGroups, rfl, restCase⟩ := exists_links_of_describes described
  rcases prefix_links_cases areGroups part with ⟨done, last, doneGroups, _, lastCase, standing⟩ |
    ⟨more, moreHere, standing⟩
  · exact eightGroups_of_links eight here roomy doneGroups lastCase standing
  rcases restCase with ⟨few, noColon⟩ | ⟨_, isGroup⟩ | ⟨behind, rfl⟩
  · have atLeast := here.count_le ':'
    rw [count_colon_eightGroups eight, standing, List.count_append, count_colon_links areGroups,
      List.count_eq_zero.mpr fun member => noColon (moreHere.subset member)] at atLeast
    omega
  · have lastGroup := group_of_beginning isGroup moreHere
    exact eightGroups_of_links eight here roomy areGroups lastGroup standing
  · rcases List.prefix_cons_iff.mp moreHere with rfl | ⟨further, rfl, _⟩
    · exact eightGroups_of_links eight here roomy areGroups (.inl rfl) standing
    · have colonStands : links words ++ [':'] <+: shown := ⟨further, by simp [standing]⟩
      exact (roomy (crowded_of_colon eight here areGroups colonStands)).elim

end EightGroups

/-! ## Groups behind a gap -/

/-- An address with a gap has groups before it, and behind it groups or a dotted tail. -/
theorem exists_gap_of_describes {bare : Bool} {text : List Char}
    (described : Describes (addressForms bare) text) (doubled : [':', ':'] <:+: text) :
    ∃ before words last, Joined before ∧ Groups words ∧
      text = before ++ ':' :: ':' :: (links words ++ last) ∧
        (last = [] ∨ Describes group last ∨ Describes dotted last) := by
  rcases describes_addressForms_iff.mp described with isDotted | eight | gapped
  · cases isDotted with
    | @mk base stem last isBase isStem isLast =>
        have noColon : ':' ∉ stem ++ last := by
          simp [colon_not_mem_octets isStem, colon_not_mem_group (group_of_octet isLast)]
        cases isBase with
        | six areGroups => exact (gapless_links_append areGroups noColon doubled).elim
        | @gap before words joined areGroups =>
            refine ⟨before, words, stem ++ last, joined, areGroups, by simp, .inr (.inr ?_)⟩
            exact describes_dotted_iff.mpr ⟨stem, last, rfl, isStem, isLast⟩
        | nothing => exact (noColon (doubled.subset (by simp))).elim
  · exact (gapless_eightGroups eight doubled).elim
  · obtain ⟨before, behind, joined, behindJoined, rfl⟩ := describes_gapGroups_iff.mp gapped
    rcases behindJoined with rfl | ⟨words, word, areGroups, isGroup, rfl⟩
    · exact ⟨before, [], [], joined, by simp [Groups], by simp, .inl rfl⟩
    · exact ⟨before, words, word, joined, areGroups, rfl, .inr (.inl isGroup)⟩

theorem exists_behind_of_prefix {before rest shown : List Char} (joined : Joined before)
    (part : shown <+: before ++ ':' :: ':' :: rest) (doubled : [':', ':'] <:+: shown) :
    ∃ behind, behind <+: rest ∧ shown = before ++ ':' :: ':' :: behind := by
  have split : before ++ ':' :: ':' :: rest = (before ++ [':']) ++ ':' :: rest := by simp
  rw [split] at part
  rcases prefix_append_cases part with inside | ⟨more, moreHere, rfl⟩
  · exact (joined.gapless (doubled.trans inside.isInfix)).elim
  rcases List.prefix_cons_iff.mp moreHere with rfl | ⟨behind, rfl, behindHere⟩
  · rw [List.append_nil] at doubled
    exact (joined.gapless doubled).elim
  · exact ⟨behind, behindHere, by simp⟩

/-- A beginning of an address is groups with a gap when it has a gap and nothing is open behind
it. -/
theorem gapGroups_of_beginning {bare : Bool} {text shown : List Char}
    (described : Describes (addressForms bare) text) (part : shown <+: text)
    (doubled : [':', ':'] <:+: shown) (closed : ¬ OpenGap shown) : Describes gapGroups shown := by
  obtain ⟨noDot, noSingle⟩ := not_or.mp fun isOpen => closed ⟨doubled, isOpen⟩
  obtain ⟨before, words, last, joined, areGroups, rfl, lastCase⟩ :=
    exists_gap_of_describes described (doubled.trans part.isInfix)
  obtain ⟨behind, behindHere, rfl⟩ := exists_behind_of_prefix joined part doubled
  have noDotBehind : '.' ∉ behind := fun member => noDot (by simp [member])
  obtain ⟨done, word, doneGroups, wordCase, rfl⟩ : ∃ done word, Groups done ∧
      (word = [] ∨ Describes group word) ∧ behind = links done ++ word := by
    rcases prefix_links_cases areGroups behindHere with
      ⟨done, word, doneGroups, _, wordCase, standing⟩ | ⟨more, moreHere, rfl⟩
    · exact ⟨done, word, doneGroups, wordCase, standing⟩
    refine ⟨words, more, areGroups, ?_, rfl⟩
    rcases lastCase with rfl | isGroup | isDotted
    · exact .inl (List.prefix_nil.mp moreHere)
    · exact group_of_beginning isGroup moreHere
    · obtain ⟨stem, last, rfl, isStem, _⟩ := describes_dotted_iff.mp isDotted
      exact group_of_beginning_octets isStem moreHere fun member => noDotBehind (by simp [member])
  refine describes_gapGroups_iff.mpr ⟨before, _, joined, ?_, rfl⟩
  rcases wordCase with rfl | isGroup
  · by_cases empty : done = []
    · exact .inl (by simp [empty])
    · exfalso
      have ending : links done <:+ before ++ ':' :: ':' :: (links done ++ []) :=
        ⟨before ++ [':', ':'], by simp⟩
      refine noSingle ⟨(suffix_singleton_iff.mpr (getLast?_links empty)).trans ending, ?_⟩
      intro doubled
      have long : 2 ≤ (links done).length := by
        obtain ⟨first, others, rfl⟩ := List.exists_cons_of_ne_nil empty
        obtain ⟨c, rest, rfl, _⟩ := exists_of_group doneGroups.head
        rw [links_cons, List.length_append, List.length_cons, List.length_cons]
        omega
      have inside := List.suffix_of_suffix_length_le doubled ending long
      exact gapless_links doneGroups inside.isInfix
  · exact .inr ⟨done, word, doneGroups, isGroup, rfl⟩

/-! ## Where a match stops short -/

theorem Crowded.begins_eightGroups {text : List Char} (crowded : Crowded text) :
    Begins eightGroups text := by
  obtain ⟨_, described, here⟩ := crowded
  obtain ⟨words, areGroups, eight, rfl⟩ := describes_exactly_iff.mp described
  have solid : words ≠ [] := List.ne_nil_of_length_pos (by omega)
  rw [← List.dropLast_append_getLast solid] at here areGroups eight
  rw [links_concat] at here
  refine ⟨links words.dropLast ++ words.getLast solid, ?_, (List.prefix_append _ _).trans here⟩
  refine describes_eightGroups_iff.mpr ⟨_, _, areGroups.of_prefix (List.prefix_append _ _), ?_,
    areGroups _ (by simp), rfl⟩
  simpa using eight

theorem Crowded.eight_le {text : List Char} (crowded : Crowded text) : 8 ≤ text.count ':' := by
  obtain ⟨_, described, here⟩ := crowded
  obtain ⟨words, areGroups, eight, rfl⟩ := describes_exactly_iff.mp described
  rw [← eight, ← count_colon_links areGroups]
  exact here.count_le ':'

theorem not_openGap_of_gapGroups {text : List Char} (described : Describes gapGroups text) :
    ¬ OpenGap text := by
  intro given
  obtain ⟨_, dot | ⟨single, noDouble⟩⟩ := given
  · exact dot_not_mem_gapGroups described dot
  · obtain ⟨before, behind, _, behindJoined, rfl⟩ := describes_gapGroups_iff.mp described
    rcases behindJoined with rfl | ⟨words, word, areGroups, isGroup, rfl⟩
    · exact noDouble (List.suffix_append _ _)
    · have solid := (describes_group_iff.mp isGroup).2.1
      have ending : word <:+ before ++ ':' :: ':' :: (links words ++ word) :=
        ⟨before ++ ':' :: ':' :: links words, by simp⟩
      have inside := List.suffix_of_suffix_length_le single ending (List.length_pos_iff.mpr solid)
      exact colon_not_mem_group isGroup (inside.subset (by simp))

theorem openAddress_of_stopsShort {bare : Bool} {text shown : List Char}
    (described : Describes (addressForms bare) text) (part : shown <+: text)
    (stopsShort : StopsShort (addressForms bare) shown) : OpenAddress shown := by
  rw [stopsShort_iff (plain_addressForms bare), matchesAll_addressForms_iff] at stopsShort
  obtain ⟨⟨word, wordDescribed, here⟩, notAll⟩ := stopsShort
  have notTailed : ¬ Tailed shown := by
    intro tailed
    have dot : '.' ∈ shown := List.count_pos_iff.mp (by rw [tailed.1]; decide)
    have isDotted := isDotted_of_dot_mem described (part.subset dot)
    exact notAll (.inl (isDotted.of_prefix part tailed))
  refine ⟨notTailed, ?_⟩
  by_contra closed
  obtain ⟨roomy, noGap⟩ := not_or.mp closed
  have noEight : ¬ Begins eightGroups shown := by
    intro begins
    obtain ⟨other, eight, otherHere⟩ := begins
    exact notAll (.inr (.inl (eightGroups_of_beginning eight otherHere described part roomy)))
  rcases describes_addressForms_iff.mp wordDescribed with isDotted | eight | gapped
  · have dot := part.subset (here.subset (dot_mem_of_isDotted isDotted))
    have few := part.count_le '.'
    rw [(isDotted_of_dot_mem described dot).tailed.1] at few
    exact notTailed (isDotted.tailed.of_prefix here few)
  · exact noEight ⟨word, eight, here⟩
  · obtain ⟨before, behind, _, _, rfl⟩ := describes_gapGroups_iff.mp gapped
    have doubled : [':', ':'] <:+: shown :=
      List.IsInfix.trans ⟨before, behind, by simp⟩ here.isInfix
    exact notAll (.inr (.inr ⟨gapGroups_of_beginning described part doubled noGap, noEight⟩))

theorem not_matchesAll_of_openAddress {bare : Bool} {shown : List Char}
    (isOpen : OpenAddress shown) : ¬ MatchesAll (addressForms bare) shown := by
  obtain ⟨notTailed, crowded | openGap⟩ := isOpen
  · intro all
    rcases matchesAll_addressForms_iff.mp all with isDotted | eight | ⟨_, noEight⟩
    · exact notTailed isDotted.tailed
    · have many := crowded.eight_le
      rw [count_colon_eightGroups eight] at many
      omega
    · exact noEight crowded.begins_eightGroups
  · intro all
    rcases matchesAll_addressForms_iff.mp all with isDotted | eight | ⟨gapped, _⟩
    · exact notTailed isDotted.tailed
    · exact gapless_eightGroups eight openGap.1
    · exact not_openGap_of_gapGroups gapped openGap

/-- Behind eight groups there is an address already, and so there is behind a gap. -/
theorem begins_of_openAddress {bare : Bool} {text shown : List Char}
    (described : Describes (addressForms bare) text) (part : shown <+: text)
    (isOpen : OpenAddress shown) : Begins (addressForms bare) shown := by
  obtain ⟨_, crowded | openGap⟩ := isOpen
  · obtain ⟨word, eight, here⟩ := crowded.begins_eightGroups
    exact ⟨word, describes_addressForms_iff.mpr (.inr (.inl eight)), here⟩
  · have doubled := openGap.1
    obtain ⟨before, words, last, joined, _, rfl, _⟩ :=
      exists_gap_of_describes described (doubled.trans part.isInfix)
    obtain ⟨behind, _, rfl⟩ := exists_behind_of_prefix joined part doubled
    have gapped : Describes gapGroups (before ++ [':', ':']) :=
      describes_gapGroups_iff.mpr ⟨before, [], joined, .inl rfl, rfl⟩
    refine ⟨before ++ [':', ':'], ?_, ⟨behind, by simp⟩⟩
    exact describes_addressForms_iff.mpr (.inr (.inr gapped))

/-- A match of a beginning of an address stops short when the beginning is open, and only then. -/
theorem stopsShort_addressForms_iff {bare : Bool} {text shown : List Char}
    (described : Describes (addressForms bare) text) (part : shown <+: text) :
    StopsShort (addressForms bare) shown ↔ OpenAddress shown := by
  constructor
  · exact openAddress_of_stopsShort described part
  · intro isOpen
    rw [stopsShort_iff (plain_addressForms bare)]
    exact ⟨begins_of_openAddress described part isOpen, not_matchesAll_of_openAddress isOpen⟩

end DefaultPattern

end Unformat
