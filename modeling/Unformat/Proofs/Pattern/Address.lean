import Mathlib.Data.List.Chain
import Unformat.Proofs.Pattern.Defaults
import Unformat.Proofs.Pattern.Stopping

/-!
# The default patterns of addresses

An IPv6 address is six groups and a dotted tail, groups with a gap and a dotted tail, eight groups,
or groups with a gap, tried in this order; an address of either family may also be a dotted one.
What one of the forms describes is matched as a whole, except that groups with a gap give way to
eight groups that stand before it.
-/

namespace Unformat

open Pattern

namespace DefaultPattern

/-! ## The patterns read -/

def hexDigit : CharTest := .either (.range '0' '9') (.either (.range 'a' 'f') (.range 'A' 'F'))

def group : Pattern := .repetition (.one hexDigit) ⟨1, some 4, .longest⟩

def colon : Pattern := .one (.char ':')

/-- Groups, each with a colon behind it. -/
def groups (limits : Repetition) : Pattern := .repetition (.both group colon) limits

def front : Pattern := .repetition (.both (groups ⟨0, none, .longest⟩) group) ⟨0, some 1, .longest⟩

def back : Pattern :=
  .repetition (.both group (.repetition (.both colon group) ⟨0, none, .longest⟩))
    ⟨0, some 1, .longest⟩

/-- A gap and what follows it. -/
def gap (rest : Pattern) : Pattern := .both front (.both colon (.both colon rest))

def sixDotted : Pattern := .both (groups ⟨6, some 6, .longest⟩) dotted

def gapDotted : Pattern := gap (.both (groups ⟨0, none, .longest⟩) dotted)

def eightGroups : Pattern := .both (groups ⟨7, some 7, .longest⟩) group

def gapGroups : Pattern := gap back

/-- Addresses, with or without those that are dotted as a whole. -/
def addressForms (bare : Bool) : Pattern :=
  .either sixDotted (.either gapDotted (.either eightGroups
    (if bare then .either gapGroups dotted else gapGroups)))

set_option maxRecDepth 20000 in
theorem compile_ipv6 : Pattern.compile ipv6 = .ok (addressForms false) := by
  apply compile_of_readWith
  case spelled =>
    unfold ipv6
    simp only [String.toList_append]
    rfl
  case reads => rfl

set_option maxRecDepth 20000 in
theorem compile_address : Pattern.compile address = .ok (addressForms true) := by
  apply compile_of_readWith
  case spelled =>
    unfold address ipv6
    simp only [String.toList_append]
    rfl
  case reads => rfl

theorem plain_addressForms (bare : Bool) : (addressForms bare).plain := by
  cases bare <;> rfl

/-! ## Groups -/

/-- Words, each with a colon behind it. -/
def links (words : List (List Char)) : List Char := words.flatMap fun word => word ++ [':']

def Groups (words : List (List Char)) : Prop := ∀ word ∈ words, Describes group word

@[simp] theorem links_nil : links [] = [] := rfl

@[simp] theorem links_cons (word : List Char) (words : List (List Char)) :
    links (word :: words) = word ++ ':' :: links words := by
  simp [links]

theorem links_concat (words : List (List Char)) (word : List Char) :
    links (words ++ [word]) = links words ++ word ++ [':'] := by
  simp [links]

theorem groups_cons {word : List Char} {words : List (List Char)} (first : Describes group word)
    (others : Groups words) : Groups (word :: words) := by
  intro other member
  rcases List.mem_cons.mp member with rfl | member
  · exact first
  · exact others other member

theorem Groups.head {word : List Char} {words : List (List Char)} (groups : Groups (word :: words)) :
    Describes group word :=
  groups word List.mem_cons_self

theorem Groups.tail {word : List Char} {words : List (List Char)} (groups : Groups (word :: words)) :
    Groups words :=
  fun other member => groups other (List.mem_cons_of_mem _ member)

theorem groups_concat {words : List (List Char)} {word : List Char} (others : Groups words)
    (last : Describes group word) : Groups (words ++ [word]) := by
  intro other member
  rcases List.mem_append.mp member with member | member
  · exact others other member
  · rwa [List.mem_singleton.mp member]

theorem Groups.of_prefix {words part : List (List Char)} (groups : Groups words)
    (here : part <+: words) : Groups part :=
  fun word member => groups word (here.subset member)

theorem describes_group_iff {word : List Char} :
    Describes group word ↔ (∀ c ∈ word, hexDigit.holds c) ∧ word ≠ [] ∧ word.length ≤ 4 := by
  rw [group, describes_tests_iff]
  simp [Nat.one_le_iff_ne_zero]

theorem not_describes_group_nil : ¬ Describes group [] := by
  simp [describes_group_iff]

theorem group_of_beginning {word part : List Char} (whole : Describes group word)
    (here : part <+: word) : part = [] ∨ Describes group part := by
  obtain ⟨passes, _, short⟩ := describes_group_iff.mp whole
  by_cases empty : part = []
  · exact .inl empty
  · exact .inr (describes_group_iff.mpr ⟨fun c member => passes c (here.subset member), empty,
      here.length_le.trans short⟩)

theorem describes_colon_iff {word : List Char} : Describes colon word ↔ word = [':'] :=
  describes_one_char_iff

theorem describes_groups_iff {limits : Repetition} {text : List Char} :
    Describes (groups limits) text ↔ ∃ words, Groups words ∧ text = links words ∧
      limits.least ≤ words.length ∧ ∀ most ∈ limits.most, words.length ≤ most := by
  have solid : ¬ Describes (.both group colon) [] := by
    intro spelled
    obtain ⟨word, behind, empty, described, _⟩ := spelled
    obtain ⟨rfl, rfl⟩ := List.append_eq_nil_iff.mp empty.symm
    exact not_describes_group_nil described
  rw [groups, describes_repetition_iff solid]
  constructor
  · intro spelled
    obtain ⟨parts, rfl, described, bounds⟩ := spelled
    have each : ∀ part ∈ parts, Describes group part.dropLast ∧ part.dropLast ++ [':'] = part := by
      intro part member
      obtain ⟨word, behind, rfl, wordDescribed, behindDescribed⟩ := described part member
      obtain rfl := describes_colon_iff.mp behindDescribed
      simpa using wordDescribed
    refine ⟨parts.map List.dropLast, ?_, ?_, by rwa [List.length_map]⟩
    · intro word member
      obtain ⟨part, partMember, rfl⟩ := List.mem_map.mp member
      exact (each part partMember).1
    · rw [links, List.flatMap_map, List.flatMap_congr fun part member => (each part member).2,
        List.flatMap_id']
  · intro spelled
    obtain ⟨words, areGroups, rfl, bounds⟩ := spelled
    refine ⟨words.map fun word => word ++ [':'], rfl, ?_, by rwa [List.length_map]⟩
    intro part member
    obtain ⟨word, wordMember, rfl⟩ := List.mem_map.mp member
    exact ⟨word, [':'], rfl, areGroups word wordMember, describes_colon_iff.mpr rfl⟩

/-- Groups with colons between them, or nothing. -/
def Joined (text : List Char) : Prop :=
  text = [] ∨ ∃ words word, Groups words ∧ Describes group word ∧ text = links words ++ word

theorem describes_front_iff {text : List Char} : Describes front text ↔ Joined text := by
  have solid : ¬ Describes (.both (groups ⟨0, none, .longest⟩) group) [] := by
    intro spelled
    obtain ⟨behind, word, empty, _, described⟩ := spelled
    obtain ⟨rfl, rfl⟩ := List.append_eq_nil_iff.mp empty.symm
    exact not_describes_group_nil described
  rw [front, describes_at_most_once_iff solid, Joined]
  apply or_congr_right
  constructor
  · intro spelled
    obtain ⟨behind, word, rfl, described, wordDescribed⟩ := spelled
    obtain ⟨words, areGroups, rfl, _⟩ := describes_groups_iff.mp described
    exact ⟨words, word, areGroups, wordDescribed, rfl⟩
  · intro spelled
    obtain ⟨words, word, areGroups, wordDescribed, rfl⟩ := spelled
    exact ⟨links words, word, rfl, describes_groups_iff.mpr ⟨words, areGroups, rfl, by simp⟩,
      wordDescribed⟩

/-- Words, each with a colon before it. -/
def tails (words : List (List Char)) : List Char := (words.map (List.cons ':')).flatten

@[simp] theorem tails_nil : tails [] = [] := rfl

@[simp] theorem tails_cons (word : List Char) (words : List (List Char)) :
    tails (word :: words) = ':' :: (word ++ tails words) := by
  simp [tails]

/-- Colons between groups may be kept with the groups before them or behind them. -/
theorem exists_tails_of_links {words : List (List Char)} {last : List Char}
    (areGroups : Groups words) (isGroup : Describes group last) :
    ∃ first rest, Describes group first ∧ Groups rest ∧
      links words ++ last = first ++ tails rest := by
  induction words with
  | nil => exact ⟨last, [], isGroup, by simp [Groups], by simp⟩
  | cons word words ih =>
      obtain ⟨first, rest, firstGroup, restGroups, same⟩ :=
        ih areGroups.tail
      refine ⟨word, first :: rest, areGroups.head,
        groups_cons firstGroup restGroups, ?_⟩
      simp [same]

theorem exists_links_of_tails {first : List Char} {rest : List (List Char)}
    (isGroup : Describes group first) (areGroups : Groups rest) :
    ∃ words last, Groups words ∧ Describes group last ∧
      links words ++ last = first ++ tails rest := by
  induction rest generalizing first with
  | nil => exact ⟨[], first, by simp [Groups], isGroup, by simp⟩
  | cons word rest ih =>
      obtain ⟨words, last, wordsGroups, lastGroup, same⟩ :=
        ih areGroups.head areGroups.tail
      refine ⟨first :: words, last, groups_cons isGroup wordsGroups, lastGroup, ?_⟩
      simp [same]

theorem describes_both_colon_group_iff {text : List Char} :
    Describes (.both colon group) text ↔ ∃ word, Describes group word ∧ text = ':' :: word := by
  constructor
  · intro spelled
    obtain ⟨behind, word, rfl, described, wordDescribed⟩ := spelled
    obtain rfl := describes_colon_iff.mp described
    exact ⟨word, wordDescribed, rfl⟩
  · intro spelled
    obtain ⟨word, wordDescribed, rfl⟩ := spelled
    exact ⟨[':'], word, rfl, describes_colon_iff.mpr rfl, wordDescribed⟩

theorem describes_tails_iff {text : List Char} :
    Describes (.repetition (.both colon group) ⟨0, none, .longest⟩) text ↔
      ∃ words, Groups words ∧ text = tails words := by
  have solid : ¬ Describes (.both colon group) [] := by
    simp [describes_both_colon_group_iff]
  rw [describes_repetition_iff solid]
  constructor
  · intro spelled
    obtain ⟨parts, rfl, described, _⟩ := spelled
    have each : ∀ part ∈ parts, Describes group part.tail ∧ ':' :: part.tail = part := by
      intro part member
      obtain ⟨word, wordDescribed, rfl⟩ := describes_both_colon_group_iff.mp (described part member)
      exact ⟨wordDescribed, rfl⟩
    refine ⟨parts.map List.tail, ?_, ?_⟩
    · intro word member
      obtain ⟨part, partMember, rfl⟩ := List.mem_map.mp member
      exact (each part partMember).1
    · have same : parts.map (List.cons ':' ∘ List.tail) = parts :=
        (List.map_congr_left fun part member => (each part member).2).trans (List.map_id' parts)
      rw [tails, List.map_map, same]
  · intro spelled
    obtain ⟨words, areGroups, rfl⟩ := spelled
    refine ⟨words.map (List.cons ':'), rfl, ?_, by simp⟩
    intro part member
    obtain ⟨word, wordMember, rfl⟩ := List.mem_map.mp member
    exact describes_both_colon_group_iff.mpr ⟨word, areGroups word wordMember, rfl⟩

theorem describes_back_iff {text : List Char} : Describes back text ↔ Joined text := by
  have solid : ¬ Describes (.both group (.repetition (.both colon group) ⟨0, none, .longest⟩))
      [] := by
    intro spelled
    obtain ⟨word, behind, empty, described, _⟩ := spelled
    obtain ⟨rfl, rfl⟩ := List.append_eq_nil_iff.mp empty.symm
    exact not_describes_group_nil described
  rw [back, describes_at_most_once_iff solid, Joined]
  apply or_congr_right
  constructor
  · intro spelled
    obtain ⟨first, behind, rfl, firstDescribed, described⟩ := spelled
    obtain ⟨rest, restGroups, rfl⟩ := describes_tails_iff.mp described
    obtain ⟨words, last, wordsGroups, lastGroup, same⟩ :=
      exists_links_of_tails firstDescribed restGroups
    exact ⟨words, last, wordsGroups, lastGroup, same.symm⟩
  · intro given
    obtain ⟨words, last, wordsGroups, lastGroup, rfl⟩ := given
    obtain ⟨first, rest, firstGroup, restGroups, same⟩ :=
      exists_tails_of_links wordsGroups lastGroup
    exact ⟨first, tails rest, same, firstGroup, describes_tails_iff.mpr ⟨rest, restGroups, rfl⟩⟩

/-! ## Characters -/

theorem hexDigit_of_digit {c : Char} (holds : digit.holds c) : hexDigit.holds c := by
  simp only [hexDigit, CharTest.holds, Bool.or_eq_true]
  exact .inl holds

theorem ne_colon_of_hexDigit {c : Char} (holds : hexDigit.holds c) : c ≠ ':' := by
  intro same
  subst same
  revert holds
  decide

theorem ne_dot_of_hexDigit {c : Char} (holds : hexDigit.holds c) : c ≠ '.' := by
  intro same
  subst same
  revert holds
  decide

theorem exists_of_group {word : List Char} (isGroup : Describes group word) :
    ∃ c rest, word = c :: rest ∧ hexDigit.holds c := by
  obtain ⟨passes, solid, _⟩ := describes_group_iff.mp isGroup
  obtain ⟨c, rest, rfl⟩ := List.exists_cons_of_ne_nil solid
  exact ⟨c, rest, rfl, passes c List.mem_cons_self⟩

theorem colon_not_mem_group {word : List Char} (isGroup : Describes group word) : ':' ∉ word :=
  fun member => ne_colon_of_hexDigit ((describes_group_iff.mp isGroup).1 _ member) rfl

theorem dot_not_mem_group {word : List Char} (isGroup : Describes group word) : '.' ∉ word :=
  fun member => ne_dot_of_hexDigit ((describes_group_iff.mp isGroup).1 _ member) rfl

theorem dot_not_mem_links {words : List (List Char)} (areGroups : Groups words) :
    '.' ∉ links words := by
  intro member
  obtain ⟨word, wordMember, inside⟩ := List.mem_flatMap.mp member
  rcases List.mem_append.mp inside with inside | inside
  · exact dot_not_mem_group (areGroups word wordMember) inside
  · simp at inside

theorem count_colon_links {words : List (List Char)} (areGroups : Groups words) :
    (links words).count ':' = words.length := by
  induction words with
  | nil => rfl
  | cons word words ih =>
      have none := List.count_eq_zero.mpr (colon_not_mem_group areGroups.head)
      have others := ih areGroups.tail
      rw [links_cons, List.count_append, List.count_cons_self, none, others, List.length_cons]
      omega

theorem getLast?_links {words : List (List Char)} (solid : words ≠ []) :
    (links words).getLast? = some ':' := by
  rw [← List.dropLast_append_getLast solid, links_concat, List.getLast?_concat]

/-- No two colons stand side by side. -/
def Gapless (text : List Char) : Prop := ¬ [':', ':'] <:+: text

theorem isChain_of_colon_not_mem {text : List Char} (bare : ':' ∉ text) :
    text.IsChain fun a b => a ≠ ':' ∨ b ≠ ':' := by
  induction text with
  | nil => exact .nil
  | cons c text ih =>
      have other := List.ne_of_not_mem_cons bare
      exact (ih (List.not_mem_of_not_mem_cons bare)).cons fun _ _ => .inl (Ne.symm other)

theorem head_ne_colon {words : List (List Char)} (areGroups : Groups words) {tail : List Char}
    (bare : ':' ∉ tail) : ∀ c ∈ (links words ++ tail).head?, c ≠ ':' := by
  cases words with
  | nil =>
      rintro c head rfl
      exact bare (List.mem_of_mem_head? head)
  | cons word words =>
      obtain ⟨d, rest, rfl, holds⟩ := exists_of_group areGroups.head
      simpa using ne_colon_of_hexDigit holds

/-- Groups with single colons behind them, and a text without colons, have no gap. -/
theorem gapless_links_append {words : List (List Char)} (areGroups : Groups words)
    {tail : List Char} (bare : ':' ∉ tail) : Gapless (links words ++ tail) := by
  have chain : (links words ++ tail).IsChain fun a b => a ≠ ':' ∨ b ≠ ':' := by
    induction words with
    | nil => exact isChain_of_colon_not_mem bare
    | cons word words ih =>
        have others := areGroups.tail
        have noColon := colon_not_mem_group areGroups.head
        rw [links_cons, List.append_assoc, List.cons_append]
        refine (isChain_of_colon_not_mem noColon).append ((ih others).cons ?_) ?_
        · exact fun c head => .inr (head_ne_colon others bare c head)
        · intro c last _ _
          left
          intro same
          subst same
          exact noColon (List.mem_of_getLast? last)
  intro doubled
  have broken := chain.infix doubled
  simp at broken

theorem gapless_links {words : List (List Char)} (areGroups : Groups words) :
    Gapless (links words) := by
  have gapless := gapless_links_append areGroups (List.not_mem_nil : ':' ∉ [])
  rwa [List.append_nil] at gapless

/-- Groups joined by colons have no gap, not even with a further colon behind them. -/
theorem Joined.gapless {text : List Char} (joined : Joined text) : Gapless (text ++ [':']) := by
  rcases joined with rfl | ⟨words, word, areGroups, isGroup, rfl⟩
  · unfold Gapless
    decide
  · rw [← links_concat]
    exact gapless_links (groups_concat areGroups isGroup)

theorem Joined.dot_not_mem {text : List Char} (joined : Joined text) : '.' ∉ text := by
  rcases joined with rfl | ⟨words, word, areGroups, isGroup, rfl⟩
  · exact List.not_mem_nil
  · simp [dot_not_mem_links areGroups, dot_not_mem_group isGroup]

/-! ## Dotted tails -/

/-- Groups of a dotted tail but the last, with their dots. -/
def octets : Pattern := .repetition (.both octet (.one (.char '.'))) ⟨3, some 3, .longest⟩

theorem describes_octet_iff {word : List Char} :
    Describes octet word ↔ (∀ c ∈ word, digit.holds c) ∧ word ≠ [] ∧ word.length ≤ 3 := by
  rw [octet, describes_tests_iff]
  simp [Nat.one_le_iff_ne_zero]

theorem group_of_octet {word : List Char} (isOctet : Describes octet word) :
    Describes group word := by
  obtain ⟨passes, solid, short⟩ := describes_octet_iff.mp isOctet
  exact describes_group_iff.mpr ⟨fun c member => hexDigit_of_digit (passes c member), solid,
    by omega⟩

theorem octet_of_beginning {word part : List Char} (whole : Describes octet word)
    (here : part <+: word) (solid : part ≠ []) : Describes octet part := by
  obtain ⟨passes, _, short⟩ := describes_octet_iff.mp whole
  exact describes_octet_iff.mpr ⟨fun c member => passes c (here.subset member), solid,
    here.length_le.trans short⟩

theorem describes_octets_iff {stem : List Char} :
    Describes octets stem ↔ ∃ first second third, Describes octet first ∧ Describes octet second ∧
      Describes octet third ∧ stem = first ++ '.' :: (second ++ '.' :: (third ++ ['.'])) := by
  have each : ∀ part, Describes (.both octet (.one (.char '.'))) part ↔
      ∃ word, Describes octet word ∧ part = word ++ ['.'] := by
    intro part
    constructor
    · intro spelled
      obtain ⟨word, dot, rfl, described, dotDescribed⟩ := spelled
      obtain rfl := describes_one_char_iff.mp dotDescribed
      exact ⟨word, described, rfl⟩
    · intro spelled
      obtain ⟨word, described, rfl⟩ := spelled
      exact ⟨word, ['.'], rfl, described, describes_one_char_iff.mpr rfl⟩
  have solid : ¬ Describes (.both octet (.one (.char '.'))) [] := by simp [each]
  rw [octets, describes_repetition_iff solid]
  constructor
  · intro spelled
    obtain ⟨parts, rfl, described, least, most⟩ := spelled
    have three : parts.length = 3 := Nat.le_antisymm (most 3 rfl) least
    obtain ⟨a, b, c, rfl⟩ := List.length_eq_three.mp three
    obtain ⟨first, firstOctet, rfl⟩ := (each a).mp (described a (by simp))
    obtain ⟨second, secondOctet, rfl⟩ := (each b).mp (described b (by simp))
    obtain ⟨third, thirdOctet, rfl⟩ := (each c).mp (described c (by simp))
    exact ⟨first, second, third, firstOctet, secondOctet, thirdOctet, by simp⟩
  · intro given
    obtain ⟨first, second, third, firstOctet, secondOctet, thirdOctet, rfl⟩ := given
    refine ⟨[first ++ ['.'], second ++ ['.'], third ++ ['.']], by simp, ?_, by simp⟩
    intro part member
    rw [each]
    rcases List.mem_cons.mp member with rfl | member
    · exact ⟨first, firstOctet, rfl⟩
    rcases List.mem_cons.mp member with rfl | member
    · exact ⟨second, secondOctet, rfl⟩
    · obtain rfl := List.mem_singleton.mp member
      exact ⟨third, thirdOctet, rfl⟩

theorem describes_dotted_iff {text : List Char} :
    Describes dotted text ↔
      ∃ stem last, text = stem ++ last ∧ Describes octets stem ∧ Describes octet last := Iff.rfl

theorem dot_not_mem_octet {word : List Char} (isOctet : Describes octet word) : '.' ∉ word :=
  dot_not_mem_group (group_of_octet isOctet)

section Stem

variable {stem : List Char} (isStem : Describes octets stem)

include isStem

theorem count_dot_octets : stem.count '.' = 3 := by
  obtain ⟨first, second, third, firstOctet, secondOctet, thirdOctet, rfl⟩ :=
    describes_octets_iff.mp isStem
  have none {word : List Char} (isOctet : Describes octet word) : word.count '.' = 0 :=
    List.count_eq_zero.mpr (dot_not_mem_octet isOctet)
  simp [none firstOctet, none secondOctet, none thirdOctet]

theorem getLast?_octets : stem.getLast? = some '.' := by
  obtain ⟨first, second, third, _, _, _, rfl⟩ := describes_octets_iff.mp isStem
  have ending : first ++ '.' :: (second ++ '.' :: (third ++ ['.'])) =
      (first ++ '.' :: (second ++ '.' :: third)) ++ ['.'] := by simp
  rw [ending, List.getLast?_concat]

theorem colon_not_mem_octets : ':' ∉ stem := by
  obtain ⟨first, second, third, firstOctet, secondOctet, thirdOctet, rfl⟩ :=
    describes_octets_iff.mp isStem
  have none {word : List Char} (isOctet : Describes octet word) : ':' ∉ word :=
    colon_not_mem_group (group_of_octet isOctet)
  simp [none firstOctet, none secondOctet, none thirdOctet]

/-- What stands before the first dot of a dotted tail. -/
theorem group_of_beginning_octets {part rest : List Char} (here : part <+: stem ++ rest)
    (noDot : '.' ∉ part) : part = [] ∨ Describes group part := by
  obtain ⟨first, second, third, firstOctet, _, _, rfl⟩ := describes_octets_iff.mp isStem
  rw [List.append_assoc] at here
  rcases prefix_append_cases here with inside | ⟨more, moreHere, rfl⟩
  · exact group_of_beginning (group_of_octet firstOctet) inside
  rcases List.prefix_cons_iff.mp moreHere with rfl | ⟨_, rfl, _⟩
  · rw [List.append_nil]
    exact .inr (group_of_octet firstOctet)
  · simp at noDot

end Stem

/-! ## The forms -/

theorem describes_gap_iff {rest : Pattern} {text : List Char} :
    Describes (gap rest) text ↔ ∃ before behind, Joined before ∧ Describes rest behind ∧
      text = before ++ ':' :: ':' :: behind := by
  constructor
  · intro spelled
    obtain ⟨before, _, rfl, described, _, _, rfl, colonDescribed, _, behind, rfl, nextDescribed,
      behindDescribed⟩ :=
      spelled
    obtain rfl := describes_colon_iff.mp colonDescribed
    obtain rfl := describes_colon_iff.mp nextDescribed
    exact ⟨before, behind, describes_front_iff.mp described, behindDescribed, rfl⟩
  · intro spelled
    obtain ⟨before, behind, joined, behindDescribed, rfl⟩ := spelled
    exact ⟨before, _, rfl, describes_front_iff.mpr joined, [':'], _, rfl,
      describes_colon_iff.mpr rfl, [':'], behind, rfl, describes_colon_iff.mpr rfl, behindDescribed⟩

theorem describes_several_iff {text : List Char} :
    Describes (groups ⟨0, none, .longest⟩) text ↔ ∃ words, Groups words ∧ text = links words := by
  simp [describes_groups_iff]

theorem describes_exactly_iff {count : Nat} {text : List Char} :
    Describes (groups ⟨count, some count, .longest⟩) text ↔
      ∃ words, Groups words ∧ words.length = count ∧ text = links words := by
  rw [describes_groups_iff]
  constructor
  · intro spelled
    obtain ⟨words, areGroups, rfl, least, most⟩ := spelled
    exact ⟨words, areGroups, Nat.le_antisymm (most count rfl) least, rfl⟩
  · intro spelled
    obtain ⟨words, areGroups, rfl, rfl⟩ := spelled
    exact ⟨words, areGroups, rfl, Nat.le_refl _, by simp⟩

/-- What stands before a dotted tail: six groups, groups with a gap, or nothing where dotted
addresses are allowed. -/
inductive DottedBase (bare : Bool) : List Char → Prop
  | six {words : List (List Char)} (areGroups : Groups words) (six : words.length = 6) :
      DottedBase bare (links words)
  | gap {before : List Char} {words : List (List Char)} (joined : Joined before)
      (areGroups : Groups words) : DottedBase bare (before ++ ':' :: ':' :: links words)
  | nothing (allowed : bare = true) : DottedBase bare []

inductive IsDotted (bare : Bool) : List Char → Prop
  | mk {base stem last : List Char} (isBase : DottedBase bare base)
      (isStem : Describes octets stem) (isLast : Describes octet last) :
      IsDotted bare (base ++ (stem ++ last))

theorem describes_sixDotted_iff {text : List Char} :
    Describes sixDotted text ↔ ∃ words stem last, Groups words ∧ words.length = 6 ∧
      Describes octets stem ∧ Describes octet last ∧ text = links words ++ (stem ++ last) := by
  constructor
  · intro spelled
    obtain ⟨_, _, rfl, described, stem, last, rfl, isStem, isLast⟩ := spelled
    obtain ⟨words, areGroups, six, rfl⟩ := describes_exactly_iff.mp described
    exact ⟨words, stem, last, areGroups, six, isStem, isLast, rfl⟩
  · intro spelled
    obtain ⟨words, stem, last, areGroups, six, isStem, isLast, rfl⟩ := spelled
    exact ⟨links words, _, rfl, describes_exactly_iff.mpr ⟨words, areGroups, six, rfl⟩, stem, last,
      rfl, isStem, isLast⟩

theorem describes_gapDotted_iff {text : List Char} :
    Describes gapDotted text ↔ ∃ before words stem last, Joined before ∧ Groups words ∧
      Describes octets stem ∧ Describes octet last ∧
        text = before ++ ':' :: ':' :: (links words ++ (stem ++ last)) := by
  rw [gapDotted, describes_gap_iff]
  constructor
  · intro spelled
    obtain ⟨before, _, joined, ⟨_, _, rfl, described, stem, last, rfl, isStem, isLast⟩, rfl⟩ :=
      spelled
    obtain ⟨words, areGroups, rfl⟩ := describes_several_iff.mp described
    exact ⟨before, words, stem, last, joined, areGroups, isStem, isLast, rfl⟩
  · intro spelled
    obtain ⟨before, words, stem, last, joined, areGroups, isStem, isLast, rfl⟩ := spelled
    refine ⟨before, _, joined, ?_, rfl⟩
    exact ⟨links words, _, rfl, describes_several_iff.mpr ⟨words, areGroups, rfl⟩, stem, last, rfl,
      isStem, isLast⟩

theorem describes_eightGroups_iff {text : List Char} :
    Describes eightGroups text ↔ ∃ words word, Groups words ∧ words.length = 7 ∧
      Describes group word ∧ text = links words ++ word := by
  constructor
  · intro spelled
    obtain ⟨_, word, rfl, described, isGroup⟩ := spelled
    obtain ⟨words, areGroups, seven, rfl⟩ := describes_exactly_iff.mp described
    exact ⟨words, word, areGroups, seven, isGroup, rfl⟩
  · intro spelled
    obtain ⟨words, word, areGroups, seven, isGroup, rfl⟩ := spelled
    exact ⟨links words, word, rfl, describes_exactly_iff.mpr ⟨words, areGroups, seven, rfl⟩,
      isGroup⟩

theorem describes_gapGroups_iff {text : List Char} :
    Describes gapGroups text ↔ ∃ before behind, Joined before ∧ Joined behind ∧
      text = before ++ ':' :: ':' :: behind := by
  simp only [gapGroups, describes_gap_iff, describes_back_iff]

theorem isDotted_iff {bare : Bool} {text : List Char} :
    IsDotted bare text ↔ Describes sixDotted text ∨ Describes gapDotted text ∨
      bare = true ∧ Describes dotted text := by
  constructor
  · intro isDotted
    cases isDotted with
    | @mk base stem last isBase isStem isLast =>
        cases isBase with
        | six areGroups six =>
            exact .inl (describes_sixDotted_iff.mpr ⟨_, _, _, areGroups, six, isStem, isLast, rfl⟩)
        | gap joined areGroups =>
            refine .inr (.inl (describes_gapDotted_iff.mpr
              ⟨_, _, _, _, joined, areGroups, isStem, isLast, ?_⟩))
            simp
        | nothing allowed =>
            have described : Describes dotted (stem ++ last) :=
              describes_dotted_iff.mpr ⟨stem, last, rfl, isStem, isLast⟩
            exact .inr (.inr ⟨allowed, described⟩)
  · intro spelled
    rcases spelled with described | described | ⟨allowed, described⟩
    · obtain ⟨words, stem, last, areGroups, six, isStem, isLast, rfl⟩ :=
        describes_sixDotted_iff.mp described
      exact .mk (.six areGroups six) isStem isLast
    · obtain ⟨before, words, stem, last, joined, areGroups, isStem, isLast, rfl⟩ :=
        describes_gapDotted_iff.mp described
      have isDotted : IsDotted bare ((before ++ ':' :: ':' :: links words) ++ (stem ++ last)) :=
        .mk (.gap joined areGroups) isStem isLast
      simpa using isDotted
    · obtain ⟨stem, last, rfl, isStem, isLast⟩ := describes_dotted_iff.mp described
      exact .mk (.nothing allowed) isStem isLast

/-- The texts that the patterns of addresses describe. -/
theorem describes_addressForms_iff {bare : Bool} {text : List Char} :
    Describes (addressForms bare) text ↔
      IsDotted bare text ∨ Describes eightGroups text ∨ Describes gapGroups text := by
  rw [isDotted_iff]
  cases bare with
  | false =>
      simp only [addressForms, Describes, Bool.false_eq_true, if_false, false_and, or_false,
        or_assoc]
  | true =>
      simp only [addressForms, Describes, if_true, true_and, or_assoc]
      tauto

/-! ## What is matched as a whole -/

/-- A text that ends with a character is no longer than a beginning with as many of them that ends
so, too. -/
theorem count_lt_of_prefix {c : Char} {part text : List Char} (here : part <+: text)
    (last : text.getLast? = some c) (other : part ≠ text) : part.count c < text.count c := by
  obtain ⟨rest, rfl⟩ := here
  have solid : rest ≠ [] := by
    intro same
    subst same
    simp at other
  have member : c ∈ rest := by
    rw [List.getLast?_append, List.getLast?_eq_some_getLast solid] at last
    obtain rfl : rest.getLast solid = c := by simpa using last
    exact List.getLast_mem solid
  have positive := List.count_pos_iff.mpr member
  rw [List.count_append]
  omega

theorem eq_of_prefixes {c : Char} {one other text : List Char} (here : one <+: text)
    (there : other <+: text) (last : one.getLast? = some c) (otherLast : other.getLast? = some c)
    (same : one.count c = other.count c) : one = other := by
  by_contra different
  rcases List.prefix_or_prefix_of_prefix here there with part | part
  · have fewer := count_lt_of_prefix part otherLast different
    omega
  · have fewer := count_lt_of_prefix part last (Ne.symm different)
    omega

/-- A dotted tail behind a front that has no dots is matched with the front. -/
theorem matchesAll_both_octet {first : Pattern} (firstPlain : first.plain)
    (shape : ∀ word, Describes first word →
      ∃ base stem, '.' ∉ base ∧ Describes octets stem ∧ word = base ++ stem)
    {front last : List Char} (described : Describes first front) (isLast : Describes octet last) :
    MatchesAll (.both first octet) (front ++ last) := by
  have dots {word : List Char} (wordDescribed : Describes first word) :
      word.getLast? = some '.' ∧ word.count '.' = 3 := by
    obtain ⟨base, stem, noDot, isStem, rfl⟩ := shape word wordDescribed
    rw [List.getLast?_append, getLast?_octets isStem, List.count_append,
      List.count_eq_zero.mpr noDot, count_dot_octets isStem]
    exact ⟨rfl, rfl⟩
  apply matchesAll_both_tests rfl firstPlain described isLast
  intro word wordDescribed here
  obtain ⟨last, three⟩ := dots wordDescribed
  obtain ⟨frontLast, frontThree⟩ := dots described
  exact eq_of_prefixes here (List.prefix_append _ _) last frontLast (three.trans frontThree.symm)

theorem matchesAll_sixDotted {text : List Char} (described : Describes sixDotted text) :
    MatchesAll sixDotted text := by
  obtain ⟨words, stem, last, areGroups, six, isStem, isLast, rfl⟩ :=
    describes_sixDotted_iff.mp described
  rw [sixDotted, dotted, matchesAll_both_assoc, ← List.append_assoc]
  refine matchesAll_both_octet rfl ?_ ?_ isLast
  · rintro _ ⟨_, stem, rfl, wordsDescribed, isStem⟩
    obtain ⟨words, areGroups, _, rfl⟩ := describes_exactly_iff.mp wordsDescribed
    exact ⟨links words, stem, dot_not_mem_links areGroups, isStem, rfl⟩
  · exact ⟨links words, stem, rfl, describes_exactly_iff.mpr ⟨words, areGroups, six, rfl⟩, isStem⟩

theorem matchesAll_gapDotted {text : List Char} (described : Describes gapDotted text) :
    MatchesAll gapDotted text := by
  obtain ⟨before, words, stem, last, joined, areGroups, isStem, isLast, rfl⟩ :=
    describes_gapDotted_iff.mp described
  have regrouped : MatchesAll (.both (gap (.both (groups ⟨0, none, .longest⟩) octets)) octet)
      ((before ++ ':' :: ':' :: (links words ++ stem)) ++ last) := by
    refine matchesAll_both_octet rfl ?_ ?_ isLast
    · intro word wordDescribed
      obtain ⟨before, _, joined, ⟨_, stem, rfl, wordsDescribed, isStem⟩, rfl⟩ :=
        describes_gap_iff.mp wordDescribed
      obtain ⟨words, areGroups, rfl⟩ := describes_several_iff.mp wordsDescribed
      refine ⟨before ++ ':' :: ':' :: links words, stem, ?_, isStem, by simp⟩
      simp [joined.dot_not_mem, dot_not_mem_links areGroups]
    · refine describes_gap_iff.mpr ⟨before, _, joined, ?_, rfl⟩
      exact ⟨links words, stem, rfl, describes_several_iff.mpr ⟨words, areGroups, rfl⟩, isStem⟩
  have whole : MatchesAll gapDotted ((before ++ ':' :: ':' :: (links words ++ stem)) ++ last) :=
    regrouped
  simpa using whole

theorem matchesAll_dotted {text : List Char} (described : Describes dotted text) :
    MatchesAll dotted text := by
  obtain ⟨stem, last, rfl, isStem, isLast⟩ := describes_dotted_iff.mp described
  refine matchesAll_both_octet rfl ?_ isStem isLast
  exact fun stem isStem => ⟨[], stem, List.not_mem_nil, isStem, rfl⟩

theorem matchesAll_eightGroups {text : List Char} (described : Describes eightGroups text) :
    MatchesAll eightGroups text := by
  obtain ⟨words, word, areGroups, seven, isGroup, rfl⟩ := describes_eightGroups_iff.mp described
  refine matchesAll_both_tests rfl rfl
    (describes_exactly_iff.mpr ⟨words, areGroups, seven, rfl⟩) isGroup ?_
  intro other otherDescribed here
  obtain ⟨others, otherGroups, otherSeven, rfl⟩ := describes_exactly_iff.mp otherDescribed
  have last {words : List (List Char)} (seven : words.length = 7) :
      (links words).getLast? = some ':' := by
    apply getLast?_links
    intro same
    subst same
    simp at seven
  refine eq_of_prefixes here (List.prefix_append _ _) (last otherSeven) (last seven) ?_
  rw [count_colon_links otherGroups, count_colon_links areGroups, otherSeven, seven]

theorem takes_group {cursor : Cursor} {word behind : List Char} (counted : cursor.Counted)
    (isGroup : Describes group word) (standing : cursor.rest = word ++ behind)
    (stops : ∀ c ∈ behind.head?, hexDigit.holds c = false) : Takes group cursor word := by
  obtain ⟨passes, solid, short⟩ := describes_group_iff.mp isGroup
  refine takes_tests rfl counted ⟨behind, standing.symm⟩ passes ?_ (List.length_pos_iff.mpr solid)
    (.inr ?_)
  · intro earlier less
    simp [Repetition.allowsMore]
    omega
  · simpa [standing] using stops

theorem head_tails (words : List (List Char)) :
    ∀ c ∈ (tails words).head?, hexDigit.holds c = false := by
  cases words with
  | nil => simp
  | cons word words =>
      rw [tails_cons]
      simp only [List.head?_cons, Option.mem_some_iff, forall_eq']
      decide

theorem takesAll_tails {cursor : Cursor} {words : List (List Char)} (counted : cursor.Counted)
    (areGroups : Groups words) (standing : cursor.rest = tails words) :
    TakesAll (.both colon group) cursor (words.map (List.cons ':')) := by
  induction words generalizing cursor with
  | nil => trivial
  | cons word words ih =>
      rw [tails_cons] at standing
      have behind : (cursor.past [':']).rest = word ++ tails words := by simp [standing]
      have colonTakes : Takes colon cursor [':'] := takes_one standing rfl
      have groupTakes := takes_group (counted.past [':']) areGroups.head behind
        (head_tails words)
      refine ⟨by simp, ⟨tails words, by simp [standing]⟩, colonTakes.both groupTakes, ?_⟩
      apply ih (counted.past _) areGroups.tail
      simp [standing]

theorem takes_tails {cursor : Cursor} {words : List (List Char)} (counted : cursor.Counted)
    (areGroups : Groups words) (standing : cursor.rest = tails words) :
    Takes (.repetition (.both colon group) ⟨0, none, .longest⟩) cursor (tails words) := by
  have ended : (cursor.past (words.map (List.cons ':')).flatten).rest = [] := by
    rw [Cursor.rest_past, standing, tails, List.drop_length]
  exact takes_repetition rfl counted (takesAll_tails counted areGroups standing)
    (fun _ _ => rfl) (Nat.zero_le _) (.inr (Fails.both (fails_one (by rw [ended]; simp))))

theorem takes_back {cursor : Cursor} {text : List Char} (counted : cursor.Counted)
    (joined : Joined text) (standing : cursor.rest = text) : Takes back cursor text := by
  rcases joined with rfl | ⟨words, last, wordsGroups, lastGroup, rfl⟩
  · refine takes_nothing counted (Fails.both (fails_of_plain rfl counted ?_))
    intro word isGroup here
    rw [standing, List.prefix_nil] at here
    exact not_describes_group_nil (here ▸ isGroup)
  · obtain ⟨first, rest, firstGroup, restGroups, same⟩ :=
      exists_tails_of_links wordsGroups lastGroup
    obtain ⟨c, more, firstStands, _⟩ := exists_of_group firstGroup
    rw [same] at standing ⊢
    have firstTakes := takes_group counted firstGroup standing (head_tails rest)
    have behind : (cursor.past first).rest = tails rest := by simp [standing]
    refine takes_once counted (by simp [firstStands]) ⟨[], by rw [standing, List.append_nil]⟩ ?_
    exact firstTakes.both (takes_tails (counted.past first) restGroups behind)

theorem eq_of_prefixes_gap {before other text : List Char} (joined : Joined before)
    (otherJoined : Joined other) (here : before ++ [':', ':'] <+: text)
    (there : other ++ [':', ':'] <+: text) : before = other := by
  have shorter {one two : List Char} (twoJoined : Joined two)
      (part : one ++ [':', ':'] <+: two ++ [':', ':']) : one = two := by
    have split : two ++ [':', ':'] = (two ++ [':']) ++ [':'] := by simp
    rw [split, List.prefix_concat_iff, ← split] at part
    rcases part with same | inside
    · exact List.append_cancel_right same
    · have doubled : [':', ':'] <:+: two ++ [':'] :=
        (List.suffix_append one _).isInfix.trans inside.isInfix
      exact (twoJoined.gapless doubled).elim
  rcases List.prefix_or_prefix_of_prefix here there with part | part
  · exact shorter otherJoined part
  · exact (shorter joined part).symm

theorem matchesAll_gapGroups {text : List Char} (described : Describes gapGroups text) :
    MatchesAll gapGroups text := by
  obtain ⟨before, behind, joined, behindJoined, rfl⟩ := describes_gapGroups_iff.mp described
  have colons {word : List Char} : Describes (.both colon colon) word ↔ word = [':', ':'] := by
    constructor
    · intro given
      obtain ⟨_, _, rfl, first, second⟩ := given
      rw [describes_colon_iff.mp first, describes_colon_iff.mp second]
      rfl
    · intro same
      subst same
      exact ⟨[':'], [':'], rfl, describes_colon_iff.mpr rfl, describes_colon_iff.mpr rfl⟩
  have regrouped : MatchesAll (.both (.both front (.both colon colon)) back)
      ((before ++ [':', ':']) ++ behind) := by
    refine matchesAll_both_of_unique rfl rfl ?_ ?_ ?_ (describes_back_iff.mpr behindJoined)
    · exact ⟨before, _, rfl, describes_front_iff.mpr joined, colons.mpr rfl⟩
    · rintro _ ⟨other, _, rfl, otherDescribed, colonsDescribed⟩ here
      obtain rfl := colons.mp colonsDescribed
      rw [eq_of_prefixes_gap (describes_front_iff.mp otherDescribed) joined here
        (List.prefix_append _ _)]
    · refine takes_back ((Cursor.counted_front _).past _) behindJoined ?_
      simp [Cursor.front]
  have whole : MatchesAll gapGroups ((before ++ [':', ':']) ++ behind) := regrouped
  simpa using whole

/-! ## Which form wins -/

theorem dot_mem_of_isDotted {bare : Bool} {text : List Char} (isDotted : IsDotted bare text) :
    '.' ∈ text := by
  obtain ⟨_, isStem, _⟩ := isDotted
  simp [List.mem_of_getLast? (getLast?_octets isStem)]

theorem not_begins_of_dot_not_mem {text : List Char} (noDot : '.' ∉ text) :
    ¬ Begins sixDotted text ∧ ¬ Begins gapDotted text := by
  have none (word : List Char) (isDotted : IsDotted true word) : ¬ word <+: text :=
    fun here => noDot (here.subset (dot_mem_of_isDotted isDotted))
  constructor
  · intro found
    obtain ⟨word, described, here⟩ := found
    exact none word (isDotted_iff.mpr (.inl described)) here
  · intro found
    obtain ⟨word, described, here⟩ := found
    exact none word (isDotted_iff.mpr (.inr (.inl described))) here

theorem dot_not_mem_eightGroups {text : List Char} (described : Describes eightGroups text) :
    '.' ∉ text := by
  obtain ⟨words, word, areGroups, _, isGroup, rfl⟩ := describes_eightGroups_iff.mp described
  simp [dot_not_mem_links areGroups, dot_not_mem_group isGroup]

theorem dot_not_mem_gapGroups {text : List Char} (described : Describes gapGroups text) :
    '.' ∉ text := by
  obtain ⟨before, behind, joined, behindJoined, rfl⟩ := describes_gapGroups_iff.mp described
  simp [joined.dot_not_mem, behindJoined.dot_not_mem]

/-- Six groups and a dotted tail have no gap, which stands before the first dot here. -/
theorem not_begins_sixDotted {before rest : List Char} (joined : Joined before) :
    ¬ Begins sixDotted (before ++ ':' :: ':' :: rest) := by
  intro found
  obtain ⟨_, described, here⟩ := found
  obtain ⟨words, stem, last, areGroups, _, isStem, isLast, rfl⟩ :=
    describes_sixDotted_iff.mp described
  have gapless : Gapless (links words ++ (stem ++ last)) := by
    apply gapless_links_append areGroups
    simp [colon_not_mem_octets isStem, colon_not_mem_group (group_of_octet isLast)]
  have split : before ++ ':' :: ':' :: rest = (before ++ [':', ':']) ++ rest := by simp
  rw [split] at here
  rcases List.prefix_or_prefix_of_prefix here (List.prefix_append _ _) with inside | beyond
  · have dot : '.' ∈ before ++ [':', ':'] :=
      inside.subset (by simp [List.mem_of_getLast? (getLast?_octets isStem)])
    simp [joined.dot_not_mem] at dot
  · exact gapless ((List.suffix_append before _).isInfix.trans beyond.isInfix)

theorem colon_mem_links {words : List (List Char)} (solid : words ≠ []) : ':' ∈ links words :=
  List.mem_of_getLast? (getLast?_links solid)

/-- Only dotted addresses have no colon. -/
theorem not_begins_of_colon_not_mem {text : List Char} (noColon : ':' ∉ text) :
    ¬ Begins sixDotted text ∧ ¬ Begins gapDotted text ∧ ¬ Begins eightGroups text ∧
      ¬ Begins gapGroups text := by
  refine ⟨?_, ?_, ?_, ?_⟩
  · intro found
    obtain ⟨word, described, here⟩ := found
    obtain ⟨words, _, _, _, six, _, _, rfl⟩ := describes_sixDotted_iff.mp described
    have solid : words ≠ [] := List.ne_nil_of_length_pos (by omega)
    exact noColon (here.subset (by simp [colon_mem_links solid]))
  · intro found
    obtain ⟨word, described, here⟩ := found
    obtain ⟨_, _, _, _, _, _, _, _, rfl⟩ := describes_gapDotted_iff.mp described
    exact noColon (here.subset (by simp))
  · intro found
    obtain ⟨word, described, here⟩ := found
    obtain ⟨words, _, _, seven, _, rfl⟩ := describes_eightGroups_iff.mp described
    have solid : words ≠ [] := List.ne_nil_of_length_pos (by omega)
    exact noColon (here.subset (by simp [colon_mem_links solid]))
  · intro found
    obtain ⟨word, described, here⟩ := found
    obtain ⟨_, _, _, _, rfl⟩ := describes_gapGroups_iff.mp described
    exact noColon (here.subset (by simp))

theorem colon_not_mem_dotted {text : List Char} (described : Describes dotted text) :
    ':' ∉ text := by
  obtain ⟨stem, last, rfl, isStem, isLast⟩ := describes_dotted_iff.mp described
  simp [colon_not_mem_octets isStem, colon_not_mem_group (group_of_octet isLast)]

theorem not_describes_addressForms_nil {bare : Bool} : ¬ Describes (addressForms bare) [] := by
  intro described
  rcases describes_addressForms_iff.mp described with isDotted | eight | gapped
  · simpa using dot_mem_of_isDotted isDotted
  · exact (not_begins_of_colon_not_mem List.not_mem_nil).2.2.1 ⟨[], eight, List.prefix_rfl⟩
  · exact (not_begins_of_colon_not_mem List.not_mem_nil).2.2.2 ⟨[], gapped, List.prefix_rfl⟩

/-- The described texts are matched as a whole, but for groups with a gap before which eight groups
stand. -/
theorem matchesAll_addressForms_iff {bare : Bool} {text : List Char} :
    MatchesAll (addressForms bare) text ↔ IsDotted bare text ∨ Describes eightGroups text ∨
      Describes gapGroups text ∧ ¬ Begins eightGroups text := by
  have lastForm : MatchesAll (if bare then .either gapGroups dotted else gapGroups) text ↔
      MatchesAll gapGroups text ∨
        bare = true ∧ ¬ Begins gapGroups text ∧ MatchesAll dotted text := by
    cases bare with
    | false => simp
    | true =>
        have either : MatchesAll (.either gapGroups dotted) text ↔ _ := matchesAll_either_iff rfl
        simpa using either
  rw [addressForms, matchesAll_either_iff rfl, matchesAll_either_iff rfl, matchesAll_either_iff rfl,
    lastForm]
  constructor
  · intro given
    rcases given with all | ⟨_, all | ⟨_, all | ⟨noEight, all | ⟨allowed, _, all⟩⟩⟩⟩
    · exact .inl (isDotted_iff.mpr (.inl (all.describes rfl)))
    · exact .inl (isDotted_iff.mpr (.inr (.inl (all.describes rfl))))
    · exact .inr (.inl (all.describes rfl))
    · exact .inr (.inr ⟨all.describes rfl, noEight⟩)
    · exact .inl (isDotted_iff.mpr (.inr (.inr ⟨allowed, all.describes rfl⟩)))
  · intro spelled
    rcases spelled with isDotted | described | ⟨described, noEight⟩
    · rcases isDotted_iff.mp isDotted with described | described | ⟨allowed, described⟩
      · exact .inl (matchesAll_sixDotted described)
      · refine .inr ⟨?_, .inl (matchesAll_gapDotted described)⟩
        obtain ⟨before, _, _, _, joined, _, _, _, rfl⟩ := describes_gapDotted_iff.mp described
        exact not_begins_sixDotted joined
      · obtain ⟨noSix, noGapDotted, noEight, noGapGroups⟩ :=
          not_begins_of_colon_not_mem (colon_not_mem_dotted described)
        exact .inr ⟨noSix, .inr ⟨noGapDotted, .inr ⟨noEight, .inr ⟨allowed, noGapGroups,
          matchesAll_dotted described⟩⟩⟩⟩
    · obtain ⟨noSix, noGapDotted⟩ :=
        not_begins_of_dot_not_mem (dot_not_mem_eightGroups described)
      exact .inr ⟨noSix, .inr ⟨noGapDotted, .inl (matchesAll_eightGroups described)⟩⟩
    · obtain ⟨noSix, noGapDotted⟩ := not_begins_of_dot_not_mem (dot_not_mem_gapGroups described)
      exact .inr ⟨noSix, .inr ⟨noGapDotted, .inr ⟨noEight, .inl (matchesAll_gapGroups described)⟩⟩⟩

end DefaultPattern

end Unformat
