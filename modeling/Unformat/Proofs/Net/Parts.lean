import Unformat.Net.Ipv6
import Mathlib.Data.List.Nodup
import Mathlib.Data.List.Range
import Mathlib.Data.List.TakeWhile
import Unformat.Template.Parse

/-!
# The parts of an IPv6 address

The parts between the colons are eight groups, or groups with one gap among them, which stands for
the zero groups that are missing.  An empty part at either end belongs to the gap.
-/

namespace Unformat.Ipv6

open Template (exists_of_bind_eq_ok)

variable {parts high low : List (List Char)}

/-! ## Gaps -/

theorem mem_gaps_iff {index : Nat} :
    index ∈ gaps parts ↔ 0 < index ∧ index + 1 < parts.length ∧ parts[index]? = some [] := by
  simp only [gaps, List.mem_filter, List.mem_range, Bool.and_eq_true, decide_eq_true_eq, beq_iff_eq]
  constructor
  · rintro ⟨_, ⟨positive, inner⟩, empty⟩
    exact ⟨positive, inner, empty⟩
  · rintro ⟨positive, inner, empty⟩
    exact ⟨by omega, ⟨positive, inner⟩, empty⟩

theorem gaps_eq_singleton_iff {gap : Nat} :
    gaps parts = [gap] ↔ ∀ index, index ∈ gaps parts ↔ index = gap := by
  constructor
  · intro same index
    rw [same, List.mem_singleton]
  · intro only
    have nodup : (gaps parts).Nodup := List.nodup_range.filter _
    apply List.perm_singleton.mp
    rw [List.perm_ext_iff_of_nodup nodup (List.nodup_singleton gap)]
    simpa using only

/-! ## Sides of a gap -/

/-- The parts of one side of a gap: where no group stands, the end of the text leaves an empty
part. -/
def padded (side : List (List Char)) : List (List Char) := if side = [] then [[]] else side

theorem padded_of_ne_nil {side : List (List Char)} (solid : side ≠ []) : padded side = side :=
  if_neg solid

theorem padded_ne_nil (side : List (List Char)) : padded side ≠ [] := by
  unfold padded
  split <;> simp_all

theorem length_padded (side : List (List Char)) : (padded side).length = max 1 side.length := by
  unfold padded
  split
  · next none => simp [none]
  · next solid => have positive := List.length_pos_iff.mpr solid; omega

theorem eq_nil_or_mem_of_mem_padded {side : List (List Char)} {part : List Char}
    (member : part ∈ padded side) : part = [] ∨ part ∈ side := by
  unfold padded at member
  split at member
  · exact .inl (List.mem_singleton.mp member)
  · exact .inr member

/-- How the parts of a text give the groups before and after a gap. -/
inductive Halves : List (List Char) → List (List Char) → List (List Char) → Prop
  | whole {parts : List (List Char)} (eight : parts.length = 8)
      (solid : ∀ part ∈ parts, part ≠ []) : Halves parts parts []
  | divided {high low : List (List Char)} (highSolid : ∀ part ∈ high, part ≠ [])
      (lowSolid : ∀ part ∈ low, part ≠ []) (room : high.length + low.length ≤ 7) :
      Halves (padded high ++ [] :: padded low) high low

theorem Halves.solid (halves : Halves parts high low) :
    (∀ part ∈ high, part ≠ []) ∧ ∀ part ∈ low, part ≠ [] := by
  cases halves with
  | whole eight solid => exact ⟨solid, by simp⟩
  | divided highSolid lowSolid room => exact ⟨highSolid, lowSolid⟩

theorem Halves.length_bounds (halves : Halves parts high low) :
    3 ≤ parts.length ∧ parts.length ≤ 9 := by
  cases halves with
  | whole eight solid => omega
  | divided highSolid lowSolid room =>
      rw [List.length_append, List.length_cons, length_padded, length_padded]
      omega

theorem Halves.mem_cases (halves : Halves parts high low) {part : List Char}
    (member : part ∈ parts) : part = [] ∨ part ∈ high ∨ part ∈ low := by
  cases halves with
  | whole eight solid => exact .inr (.inl member)
  | divided highSolid lowSolid room =>
      rcases List.mem_append.mp member with inside | inside
      · exact (eq_nil_or_mem_of_mem_padded inside).imp_right .inl
      · rcases List.mem_cons.mp inside with empty | inside
        · exact .inl empty
        · exact (eq_nil_or_mem_of_mem_padded inside).imp_right .inr

/-- The groups before a gap. -/
def frontGroups (before : List (List Char)) : List (List Char) :=
  if before.head? = some [] then before.drop 1 else before

/-- The groups behind a gap. -/
def backGroups (after : List (List Char)) : List (List Char) :=
  if after.getLast? = some [] then after.dropLast else after

/-- Where only the first part before a gap may be empty, and only when it is alone, the parts are
the groups. -/
theorem padded_frontGroups {before : List (List Char)} (nonempty : before ≠ [])
    (inner : ∀ index, 0 < index → before[index]? ≠ some [])
    (alone : ¬ (before.head? = some [] ∧ frontGroups before ≠ [])) :
    padded (frontGroups before) = before ∧ ∀ part ∈ frontGroups before, part ≠ [] := by
  by_cases empty : before.head? = some []
  · have none : frontGroups before = [] := not_not.mp fun more => alone ⟨empty, more⟩
    obtain ⟨first, rest, rfl⟩ := List.exists_cons_of_ne_nil nonempty
    obtain rfl : rest = [] := by rwa [frontGroups, if_pos empty] at none
    obtain rfl : first = [] := by simpa using empty
    rw [none]
    exact ⟨rfl, by simp⟩
  · have same : frontGroups before = before := if_neg empty
    rw [same]
    refine ⟨padded_of_ne_nil nonempty, ?_⟩
    rintro part member rfl
    obtain ⟨index, found⟩ := List.mem_iff_getElem?.mp member
    by_cases front : index = 0
    · subst front
      exact empty (List.head?_eq_getElem? ▸ found)
    · exact inner index (by omega) found

/-- The same at the end. -/
theorem padded_backGroups {after : List (List Char)} (nonempty : after ≠ [])
    (inner : ∀ index, index + 1 < after.length → after[index]? ≠ some [])
    (alone : ¬ (after.getLast? = some [] ∧ backGroups after ≠ [])) :
    padded (backGroups after) = after ∧ ∀ part ∈ backGroups after, part ≠ [] := by
  by_cases empty : after.getLast? = some []
  · have none : backGroups after = [] := not_not.mp fun more => alone ⟨empty, more⟩
    obtain ⟨rest, last, rfl⟩ := (List.eq_nil_or_concat' after).resolve_left nonempty
    obtain rfl : rest = [] := by rwa [backGroups, if_pos empty, List.dropLast_concat] at none
    obtain rfl : last = [] := by simpa using empty
    rw [none]
    exact ⟨rfl, by simp⟩
  · have same : backGroups after = after := if_neg empty
    rw [same]
    refine ⟨padded_of_ne_nil nonempty, ?_⟩
    rintro part member rfl
    obtain ⟨index, found⟩ := List.mem_iff_getElem?.mp member
    by_cases back : index + 1 < after.length
    · exact inner index back found
    · obtain ⟨bound, _⟩ := List.getElem?_eq_some_iff.mp found
      refine empty ?_
      rw [List.getLast?_eq_getElem?, ← found]
      congr 1
      omega

theorem frontGroups_padded (solid : ∀ part ∈ high, part ≠ []) :
    frontGroups (padded high) = high ∧ ¬ ((padded high).head? = some [] ∧ high ≠ []) := by
  by_cases none : high = []
  · simp [none, padded, frontGroups]
  · have opens : (padded high).head? ≠ some [] := by
      rw [padded_of_ne_nil none]
      exact fun first => solid [] (List.mem_of_mem_head? first) rfl
    exact ⟨(if_neg opens).trans (padded_of_ne_nil none), fun given => opens given.1⟩

theorem backGroups_padded (solid : ∀ part ∈ low, part ≠ []) :
    backGroups (padded low) = low ∧ ¬ ((padded low).getLast? = some [] ∧ low ≠ []) := by
  by_cases none : low = []
  · simp [none, padded, backGroups]
  · have closes : (padded low).getLast? ≠ some [] := by
      rw [padded_of_ne_nil none]
      exact fun last => solid [] (List.mem_of_mem_getLast? last) rfl
    exact ⟨(if_neg closes).trans (padded_of_ne_nil none), fun given => closes given.1⟩

/-! ## What the parts give -/

theorem halves_of_gap {gap : Nat} (only : gaps parts = [gap]) :
    halves parts =
      let before := parts.take gap
      let after := parts.drop (gap + 1)
      if before.head? = some [] ∧ frontGroups before ≠ [] then .error .leadingColon
      else if after.getLast? = some [] ∧ backGroups after ≠ [] then .error .trailingColon
      else if 8 < (frontGroups before).length + (backGroups after).length + 1 then
        .error .tooManyParts
      else .ok (frontGroups before, backGroups after) := by
  rw [halves, only]
  rfl

theorem halves_of_gap_eq_ok {gap : Nat} (only : gaps parts = [gap])
    (made : halves parts = .ok (high, low)) : Halves parts high low := by
  have unique := gaps_eq_singleton_iff.mp only
  obtain ⟨positive, inner, empty⟩ := mem_gaps_iff.mp ((unique gap).mpr rfl)
  have elsewhere (index : Nat) (behind : 0 < index) (within : index + 1 < parts.length)
      (other : index ≠ gap) : parts[index]? ≠ some [] :=
    fun found => other ((unique index).mp (mem_gaps_iff.mpr ⟨behind, within, found⟩))
  rw [halves_of_gap only] at made
  simp only at made
  split at made
  · cases made
  split at made
  · cases made
  split at made
  · cases made
  next leading trailing few =>
    obtain ⟨rfl, rfl⟩ := Prod.mk.inj (Except.ok.inj made)
    have front : parts.take gap ≠ [] :=
      List.ne_nil_of_length_pos (by rw [List.length_take]; omega)
    have back : parts.drop (gap + 1) ≠ [] :=
      List.ne_nil_of_length_pos (by rw [List.length_drop]; omega)
    have frontInner : ∀ index, 0 < index → (parts.take gap)[index]? ≠ some [] := by
      intro index behind found
      rw [List.getElem?_take] at found
      split at found
      · exact elsewhere index behind (by omega) (by omega) found
      · cases found
    have backInner : ∀ index, index + 1 < (parts.drop (gap + 1)).length →
        (parts.drop (gap + 1))[index]? ≠ some [] := by
      intro index within found
      rw [List.length_drop] at within
      rw [List.getElem?_drop] at found
      exact elsewhere _ (by omega) (by omega) (by omega) found
    obtain ⟨frontPadded, frontSolid⟩ := padded_frontGroups front frontInner leading
    obtain ⟨backPadded, backSolid⟩ := padded_backGroups back backInner trailing
    have divided := Halves.divided frontSolid backSolid (by omega)
    obtain ⟨bound, value⟩ := List.getElem?_eq_some_iff.mp empty
    rwa [frontPadded, backPadded, ← value, ← List.drop_eq_getElem_cons bound,
      List.take_append_drop] at divided

theorem halves_of_eq_ok (made : halves parts = .ok (high, low)) : Halves parts high low := by
  match positions : gaps parts with
  | _ :: _ :: _ =>
      rw [halves, positions] at made
      cases made
  | [gap] => exact halves_of_gap_eq_ok positions made
  | [] =>
      rw [halves, positions] at made
      simp only at made
      split at made
      · cases made
      split at made
      · cases made
      split at made
      · cases made
      next eight opens closes =>
        obtain ⟨rfl, rfl⟩ := Prod.mk.inj (Except.ok.inj made)
        refine .whole (not_not.mp eight) ?_
        rintro part member rfl
        obtain ⟨index, found⟩ := List.mem_iff_getElem?.mp member
        obtain ⟨bound, _⟩ := List.getElem?_eq_some_iff.mp found
        by_cases front : index = 0
        · subst front
          exact opens (List.head?_eq_getElem? ▸ found)
        by_cases back : index + 1 < parts.length
        · have gap := mem_gaps_iff.mpr ⟨by omega, back, found⟩
          rw [positions] at gap
          cases gap
        · refine closes ?_
          rw [List.getLast?_eq_getElem?, ← found]
          congr 1
          omega

theorem gaps_divided (highSolid : ∀ part ∈ high, part ≠ []) (lowSolid : ∀ part ∈ low, part ≠ []) :
    gaps (padded high ++ [] :: padded low) = [(padded high).length] := by
  rw [gaps_eq_singleton_iff]
  intro index
  rw [mem_gaps_iff]
  constructor
  · rintro ⟨positive, inner, empty⟩
    rcases Nat.lt_trichotomy index (padded high).length with before | same | behind
    · exfalso
      rw [List.getElem?_append_left before] at empty
      have solid : high ≠ [] := by
        rintro rfl
        simp [padded] at before
        omega
      rw [padded_of_ne_nil solid] at empty
      exact highSolid [] (List.mem_of_getElem? empty) rfl
    · exact same
    · exfalso
      obtain ⟨more, rfl⟩ : ∃ more, index = (padded high).length + (more + 1) :=
        ⟨index - (padded high).length - 1, by omega⟩
      rw [List.getElem?_append_right (Nat.le_add_right _ _), Nat.add_sub_cancel_left,
        List.getElem?_cons_succ] at empty
      simp only [List.length_append, List.length_cons] at inner
      have solid : low ≠ [] := by
        rintro rfl
        simp [padded] at inner
      rw [padded_of_ne_nil solid] at empty
      exact lowSolid [] (List.mem_of_getElem? empty) rfl
  · rintro rfl
    have front := List.length_pos_iff.mpr (padded_ne_nil high)
    have back := List.length_pos_iff.mpr (padded_ne_nil low)
    refine ⟨front, ?_, ?_⟩
    · simp only [List.length_append, List.length_cons]
      omega
    · rw [List.getElem?_append_right (Nat.le_refl _), Nat.sub_self]
      rfl

/-- The groups before and after the gap are made exactly of such parts. -/
theorem halves_eq_ok_iff : halves parts = .ok (high, low) ↔ Halves parts high low := by
  refine ⟨halves_of_eq_ok, ?_⟩
  intro given
  cases given with
  | whole eight solid =>
      have none : gaps parts = [] := by
        apply List.eq_nil_iff_forall_not_mem.mpr
        intro index member
        exact solid [] (List.mem_of_getElem? (mem_gaps_iff.mp member).2.2) rfl
      have opens : parts.head? ≠ some [] := fun first => solid [] (List.mem_of_mem_head? first) rfl
      have closes : parts.getLast? ≠ some [] :=
        fun last => solid [] (List.mem_of_mem_getLast? last) rfl
      simp [halves, none, eight, opens, closes]
  | divided highSolid lowSolid room =>
      obtain ⟨front, leading⟩ := frontGroups_padded highSolid
      obtain ⟨back, trailing⟩ := backGroups_padded lowSolid
      have behind : (padded high ++ [] :: padded low).drop ((padded high).length + 1) =
          padded low := by
        rw [← List.drop_drop, List.drop_left]
        rfl
      rw [halves_of_gap (gaps_divided highSolid lowSolid), List.take_left, behind]
      simp only [front, back]
      rw [if_neg leading, if_neg trailing, if_neg (by omega)]

/-! ## The text of the parts -/

/-- Parts with colons between them. -/
def joinParts (parts : List (List Char)) : List Char := [':'].intercalate parts

theorem joinParts_splitOn (text : List Char) : joinParts (text.splitOn ':') = text :=
  List.intercalate_splitOn ':'

theorem splitOn_joinParts (solid : parts ≠ []) (bare : ∀ part ∈ parts, ':' ∉ part) :
    (joinParts parts).splitOn ':' = parts :=
  List.splitOn_intercalate ':' bare solid

theorem joinParts_append {front behind : List (List Char)} (frontSolid : front ≠ [])
    (behindSolid : behind ≠ []) :
    joinParts (front ++ behind) = joinParts front ++ ':' :: joinParts behind := by
  unfold joinParts
  induction front with
  | nil => exact absurd rfl frontSolid
  | cons part rest ih =>
      by_cases last : rest = []
      · subst last
        rw [List.singleton_append, List.intercalate_cons_of_ne_nil behindSolid,
          List.intercalate_singleton, List.append_assoc, List.singleton_append]
      · rw [List.cons_append, List.intercalate_cons_of_ne_nil (by simp [last]), ih last,
          List.intercalate_cons_of_ne_nil last]
        simp

theorem joinParts_padded (side : List (List Char)) : joinParts (padded side) = joinParts side := by
  unfold padded
  split
  · next none =>
      subst none
      rfl
  · rfl

theorem joinParts_divided (high low : List (List Char)) :
    joinParts (padded high ++ [] :: padded low) =
      joinParts high ++ ':' :: ':' :: joinParts low := by
  have gap : joinParts ([] :: padded low) = ':' :: joinParts (padded low) := by
    rw [joinParts, List.intercalate_cons_of_ne_nil (padded_ne_nil low)]
    rfl
  rw [joinParts_append (padded_ne_nil high) (by simp), gap, joinParts_padded, joinParts_padded]

/-! ## What is read -/

theorem parseGroups_eq (text : List Char) (scope : Option String) :
    parseGroups text scope =
      if text = [] then .error .empty
      else if (text.splitOn ':').length < 3 then .error .tooFewParts
      else (expandTail (text.splitOn ':')).bind fun parts =>
        if 9 < parts.length then .error .tooManyColons
        else (halves parts).bind fun sides =>
          (sides.1.mapM group).bind fun high => (sides.2.mapM group).bind fun low =>
            if fits : high.length + low.length ≤ 8 then .ok (ofHalves high low scope fits)
            else .error .tooManyParts := by
  unfold parseGroups
  by_cases empty : text = []
  · rw [if_pos empty, if_pos empty]
    rfl
  rw [if_neg empty, if_neg empty]
  by_cases few : (text.splitOn ':').length < 3
  · rw [if_pos few, if_pos few]
    rfl
  rw [if_neg few, if_neg few]
  refine bind_congr (m := Except _) fun parts => ?_
  by_cases many : 9 < parts.length
  · rw [if_pos many, if_pos many]
    rfl
  · rw [if_neg many, if_neg many]
    rfl

/-- How a text gives the groups of an address: from its parts, with a dotted tail written as two
groups, come the groups before and after the gap. -/
structure Gives (text : List Char) (high low : List (List Char)) (highGroups lowGroups : List UInt16) :
    Prop where
  several : 3 ≤ (text.splitOn ':').length
  parted : ∃ parts, expandTail (text.splitOn ':') = .ok parts ∧ parts.length ≤ 9 ∧
    Halves parts high low
  high : high.mapM group = .ok highGroups
  low : low.mapM group = .ok lowGroups

theorem parseGroups_eq_ok_iff {text : List Char} {scope : Option String} {address : Ipv6} :
    parseGroups text scope = .ok address ↔
      ∃ high low highGroups lowGroups fits, Gives text high low highGroups lowGroups ∧
        address = ofHalves highGroups lowGroups scope fits := by
  rw [parseGroups_eq]
  constructor
  · intro parsed
    split at parsed
    · cases parsed
    split at parsed
    · cases parsed
    next several =>
      obtain ⟨parts, expanded, parsed⟩ := exists_of_bind_eq_ok parsed
      split at parsed
      · cases parsed
      next few =>
        obtain ⟨⟨high, low⟩, halved, parsed⟩ := exists_of_bind_eq_ok parsed
        obtain ⟨highGroups, highRead, parsed⟩ := exists_of_bind_eq_ok parsed
        obtain ⟨lowGroups, lowRead, parsed⟩ := exists_of_bind_eq_ok parsed
        split at parsed
        · next fits =>
            cases parsed
            refine ⟨high, low, highGroups, lowGroups, fits, ⟨by omega, ?_, highRead, lowRead⟩, rfl⟩
            exact ⟨parts, expanded, by omega, halves_eq_ok_iff.mp halved⟩
        · cases parsed
  · rintro ⟨high, low, highGroups, lowGroups, fits, ⟨several, parted, highRead, lowRead⟩, rfl⟩
    obtain ⟨parts, expanded, few, halved⟩ := parted
    have solid : text ≠ [] := by
      rintro rfl
      simp at several
    rw [if_neg solid, if_neg (by omega), expanded]
    simp only [Except.bind]
    rw [if_neg (by omega), halves_eq_ok_iff.mpr halved]
    simp only [highRead, lowRead, dif_pos fits]

/-! ## Scopes -/

theorem splitScope_of_not_mem {text : List Char} (bare : '%' ∉ text) :
    splitScope text = (text, none) := by
  have all : text.takeWhile (· != '%') = text := by
    have passes : ∀ c ∈ text, (c != '%') = true := by
      intro c member
      simpa using ne_of_mem_of_not_mem member bare
    exact List.takeWhile_eq_self_iff.mpr passes
  simp [splitScope, all]

theorem splitScope_append {text scope : List Char} (bare : '%' ∉ text) :
    splitScope (text ++ '%' :: scope) = (text, some scope) := by
  have front : (text ++ '%' :: scope).takeWhile (· != '%') = text := by
    rw [List.takeWhile_append_of_pos, List.takeWhile_cons_of_neg (by simp), List.append_nil]
    intro c member
    simpa using ne_of_mem_of_not_mem member bare
  simp [splitScope, front]

/-- A text is without a scope, or its first percent sign divides it. -/
theorem splitScope_cases (text : List Char) :
    '%' ∉ text ∨ ∃ address scope, '%' ∉ address ∧ text = address ++ '%' :: scope := by
  by_cases member : '%' ∈ text
  · obtain ⟨address, scope, rfl, bare⟩ := List.eq_append_cons_of_mem member
    exact .inr ⟨address, scope, bare, rfl⟩
  · exact .inl member

/-- What is written behind the groups for a scope. -/
def scopeText : Option String → List Char
  | none => []
  | some scope => '%' :: scope.toList

/-- A scope that can be written: it is not empty, and has neither a percent sign nor a slash. -/
def ScopeFits (scope : Option String) : Prop :=
  ∀ name ∈ scope, name.toList ≠ [] ∧ '%' ∉ name.toList ∧ '/' ∉ name.toList

theorem scope_of_parseGroups {text : List Char} {scope : Option String} {address : Ipv6}
    (parsed : parseGroups text scope = .ok address) : address.scope = scope := by
  obtain ⟨_, _, _, _, _, _, rfl⟩ := parseGroups_eq_ok_iff.mp parsed
  rfl

theorem exists_of_parse {text : List Char} {address : Ipv6} (parsed : parse text = .ok address) :
    ∃ front, text = front ++ scopeText address.scope ∧ '/' ∉ front ∧ '%' ∉ front ∧
      ScopeFits address.scope ∧ parseGroups front address.scope = .ok address := by
  unfold parse at parsed
  split at parsed
  · cases parsed
  next noSlash =>
    rw [List.contains_eq_mem, decide_eq_true_eq] at noSlash
    rcases splitScope_cases text with bare | ⟨front, scope, bare, rfl⟩
    · rw [splitScope_of_not_mem bare] at parsed
      have none := scope_of_parseGroups parsed
      refine ⟨text, ?_, noSlash, bare, ?_, none ▸ parsed⟩
      · rw [none, scopeText, List.append_nil]
      · simp [ScopeFits, none]
    · rw [splitScope_append bare] at parsed
      simp only at parsed
      split at parsed
      · cases parsed
      next fits =>
        have some := scope_of_parseGroups parsed
        rw [List.mem_append, List.mem_cons, not_or, not_or] at noSlash
        refine ⟨front, ?_, noSlash.1, bare, ?_, some ▸ parsed⟩
        · rw [some, scopeText, String.toList_ofList]
        · rw [some]
          rintro name ⟨⟩
          rw [String.toList_ofList]
          exact ⟨fun empty => fits (.inl empty), fun member => fits (.inr member), noSlash.2.2⟩

/-- A text spells an address exactly when its front gives the groups and the rest writes the
scope. -/
theorem parse_eq_ok_iff {text : List Char} {address : Ipv6} :
    parse text = .ok address ↔ ∃ front, text = front ++ scopeText address.scope ∧ '/' ∉ front ∧
      '%' ∉ front ∧ ScopeFits address.scope ∧ parseGroups front address.scope = .ok address := by
  refine ⟨exists_of_parse, ?_⟩
  rintro ⟨front, rfl, noSlash, bare, fits, parsed⟩
  unfold parse
  cases scope : address.scope with
  | none =>
      rw [scope] at parsed
      rw [scopeText, List.append_nil, splitScope_of_not_mem bare, if_neg (by simpa using noSlash)]
      exact parsed
  | some name =>
      obtain ⟨solid, noPercent, noScopeSlash⟩ := fits name scope
      rw [scope] at parsed
      rw [scopeText, splitScope_append bare, if_neg (by simp [noSlash, noScopeSlash])]
      simp only
      rw [if_neg (not_or.mpr ⟨solid, noPercent⟩), String.ofList_toList]
      exact parsed

theorem parseGroups_of_parse {text : List Char} {address : Ipv6} (parsed : parse text = .ok address)
    (noScope : address.scope = none) : parseGroups text none = .ok address := by
  obtain ⟨front, rfl, _, _, _, groups⟩ := parse_eq_ok_iff.mp parsed
  rw [noScope] at groups
  rwa [noScope, scopeText, List.append_nil]

end Unformat.Ipv6
