import Mathlib.Order.Bounds.Basic
import Unformat.Proofs.Plan.Reporting

/-!
# Slots and names that are taken twice

Binding sorts the slots that captures take, and the names of rules, by their keys and reports each
entry whose key an earlier one has, together with the first entry of the key. Sorting leaves
entries of one key in their order, so the first of them is the one that stands first in the
template, or in the rule list.
-/

namespace Unformat.Binding

/-! ## Entries by key -/

section Entries

variable {α : Type} [DecidableEq α] {entries : List (α × Nat)} {key : α} {value first : Nat}

theorem mem_repeated_iff :
    (key, value, first) ∈ repeated entries ↔
      (key, value) ∈ entries ∧ entries.lookup key = some first ∧ first ≠ value := by
  rw [repeated, List.mem_filterMap]
  constructor
  · rintro ⟨⟨otherKey, otherValue⟩, member, found⟩
    cases result : entries.lookup otherKey with
    | none => simp [result] at found
    | some earliest =>
        simp only [result, Option.ite_none_left_eq_some, Option.some.injEq,
          Prod.mk.injEq] at found
        obtain ⟨different, rfl, rfl, rfl⟩ := found
        exact ⟨member, result, different⟩
  · rintro ⟨member, result, different⟩
    exact ⟨(key, value), member, by simp [result, different]⟩

theorem nodup_repeated (distinct : (entries.map Prod.snd).Nodup) : (repeated entries).Nodup := by
  rw [List.Nodup, List.pairwise_map] at distinct
  rw [repeated, List.Nodup, List.pairwise_filterMap]
  apply distinct.imp
  rintro ⟨key, value⟩ ⟨otherKey, otherValue⟩ different entry found otherEntry otherFound same
  cases result : entries.lookup key with
  | none => simp [result] at found
  | some first =>
      cases otherResult : entries.lookup otherKey with
      | none => simp [otherResult] at otherFound
      | some otherFirst =>
          simp only [result, Option.ite_none_left_eq_some, Option.some.injEq] at found
          simp only [otherResult, Option.ite_none_left_eq_some, Option.some.injEq] at otherFound
          rw [← found.2, ← otherFound.2] at same
          exact different (congrArg (fun entry => entry.2.1) same)

/-- The value of a key is that of its first entry. -/
theorem lookup_eq_head? :
    entries.lookup key = (entries.filter fun entry => entry.1 = key).head?.map Prod.snd := by
  rw [List.head?_filter]
  induction entries with
  | nil => rfl
  | cons entry rest ih =>
      obtain ⟨candidate, value⟩ := entry
      by_cases same : candidate = key
      · simp [same]
      · have different : (key == candidate) = false :=
          beq_eq_false_iff_ne.mpr fun equality => same equality.symm
        simp [List.lookup_cons, same, different, ih]

/-- An order on entries by which they can be sorted, and which leaves those of one key in their
order. -/
structure SortsKeys (before : α × Nat → α × Nat → Bool) : Prop where
  transitive : ∀ a b c, before a b = true → before b c = true → before a c = true
  total : ∀ a b, (before a b || before b a) = true
  of_eq : ∀ a b, a.1 = b.1 → before a b = true

variable {before : α × Nat → α × Nat → Bool}

theorem SortsKeys.filter_mergeSort (sorts : SortsKeys before) :
    ((entries.mergeSort before).filter fun entry => entry.1 = key) =
      entries.filter fun entry => entry.1 = key := by
  have sameKey : ∀ entry ∈ entries.filter (fun entry => entry.1 = key), entry.1 = key := by
    intro entry member
    exact of_decide_eq_true (List.mem_filter.mp member).2
  have together : (entries.filter fun entry => entry.1 = key).Pairwise
      fun a b => before a b = true := by
    apply List.pairwise_of_forall_mem_list
    intro a aMember b bMember
    exact sorts.of_eq a b ((sameKey a aMember).trans (sameKey b bMember).symm)
  have standing : (entries.filter fun entry => entry.1 = key).Sublist
      ((entries.mergeSort before).filter fun entry => entry.1 = key) := by
    have inOrder := List.sublist_mergeSort sorts.transitive sorts.total together
      List.filter_sublist
    simpa only [List.filter_filter, Bool.and_self] using
      inOrder.filter fun entry => decide (entry.1 = key)
  have perm := (List.mergeSort_perm entries before).filter fun entry => decide (entry.1 = key)
  exact (standing.eq_of_length perm.length_eq.symm).symm

theorem SortsKeys.lookup_mergeSort (sorts : SortsKeys before) :
    (entries.mergeSort before).lookup key = entries.lookup key := by
  rw [lookup_eq_head?, sorts.filter_mergeSort, lookup_eq_head?]

/-- When values increase along the entries, the first entry of a key has its least value. -/
theorem lookup_eq_some_iff_isLeast (increasing : entries.Pairwise fun a b => a.2 < b.2) :
    entries.lookup key = some first ↔ IsLeast {other | (key, other) ∈ entries} first := by
  induction entries with
  | nil => simp [IsLeast]
  | cons entry rest ih =>
      obtain ⟨candidate, value⟩ := entry
      obtain ⟨smallest, laterIncreasing⟩ := List.pairwise_cons.mp increasing
      by_cases same : candidate = key
      · subst same
        have least : IsLeast {other | (candidate, other) ∈ (candidate, value) :: rest} value := by
          refine ⟨List.mem_cons_self, ?_⟩
          intro other member
          rcases List.mem_cons.mp member with here | later
          · exact (Prod.mk.inj here).2.ge
          · exact (smallest _ later).le
        constructor
        · intro found
          obtain rfl : value = first := by simpa using found
          exact least
        · intro isLeast
          simp [least.unique isLeast]
      · have different : (key == candidate) = false :=
          beq_eq_false_iff_ne.mpr fun equality => same equality.symm
        have others : {other | (key, other) ∈ (candidate, value) :: rest} =
            {other | (key, other) ∈ rest} := by
          ext other
          simp [Ne.symm same]
        rw [List.lookup_cons, different, others]
        exact ih laterIncreasing

/-- Of the sorted entries, those are repeated that are not the first of their key; the first is
the one with the least value. -/
theorem SortsKeys.mem_repeated_iff (sorts : SortsKeys before)
    (increasing : entries.Pairwise fun a b => a.2 < b.2) :
    (key, value, first) ∈ repeated (entries.mergeSort before) ↔
      (key, value) ∈ entries ∧ IsLeast {other | (key, other) ∈ entries} first ∧
        first ≠ value := by
  rw [Binding.mem_repeated_iff, List.mem_mergeSort, sorts.lookup_mergeSort,
    lookup_eq_some_iff_isLeast increasing]

theorem nodup_repeated_mergeSort (before : α × Nat → α × Nat → Bool)
    (increasing : entries.Pairwise fun a b => a.2 < b.2) :
    (repeated (entries.mergeSort before)).Nodup := by
  apply nodup_repeated
  apply ((List.mergeSort_perm entries before).map Prod.snd).nodup_iff.mpr
  rw [List.Nodup, List.pairwise_map]
  exact increasing.imp Nat.ne_of_lt

end Entries

variable {segments : List Segment} {rules : RuleList}

/-! ## Slots -/

/-- A capture that refers to no unknown name takes a slot; it stands at a place. -/
def TakesSlot (segments : List Segment) (rules : RuleList) (slot place : Nat) : Prop :=
  ∃ capture ∈ placed segments, capture.target.Known rules ∧ capture.slot = some slot ∧
    capture.place = place

theorem mem_entriesOf_kept_iff {slot place : Nat} :
    (slot, place) ∈ entriesOf (kept rules segments) ↔ TakesSlot segments rules slot place := by
  rw [entriesOf, List.mem_filterMap, exists_mem_kept_iff]
  simp [TakesSlot]

theorem sortsKeys_slots :
    SortsKeys fun first second : Nat × Nat => decide (first.1 ≤ second.1) where
  transitive a b c := by simpa using Nat.le_trans
  total a b := by simpa using Nat.le_total a.1 b.1
  of_eq a b same := decide_eq_true same.le

theorem duplicateSlot_mem_slotFaults_iff {captures : List BoundCapture}
    {slot place first : Nat} :
    .duplicateSlot slot place first ∈ slotFaults captures ↔
      (slot, place, first) ∈ repeated (takenSlots captures) := by
  rw [slotFaults, List.mem_append, List.mem_map]
  constructor
  · rintro (⟨entry, member, same⟩ | missing)
    · obtain ⟨rfl, rfl, rfl⟩ := BindingFault.duplicateSlot.inj same
      exact member
    · split at missing
      · cases missing
      · cases List.mem_singleton.mp missing
  · intro member
    exact Or.inl ⟨_, member, rfl⟩

theorem nodup_slotFaults {captures : List BoundCapture}
    (nodup : (repeated (takenSlots captures)).Nodup) : (slotFaults captures).Nodup := by
  apply List.nodup_append.mpr
  refine ⟨nodup.map ?_, ?_, ?_⟩
  · rintro ⟨slot, place, first⟩ ⟨otherSlot, otherPlace, otherFirst⟩ same
    obtain ⟨rfl, rfl, rfl⟩ := BindingFault.duplicateSlot.inj same
    rfl
  · split
    · exact List.nodup_nil
    · exact List.nodup_singleton _
  · intro fault twice other missing same
    obtain ⟨entry, _, rfl⟩ := List.mem_map.mp twice
    subst same
    split at missing
    · cases missing
    · cases List.mem_singleton.mp missing

theorem mem_repeated_takenSlots_iff {slot place first : Nat} :
    (slot, place, first) ∈ repeated (takenSlots ((kept rules segments).map (Placed.bound rules))) ↔
      TakesSlot segments rules slot place ∧
        IsLeast {other | TakesSlot segments rules slot other} first ∧ first ≠ place := by
  rw [takenSlots_map_bound, sortsKeys_slots.mem_repeated_iff
    (increasing_entriesOf (increasing_places_kept segments rules))]
  simp only [mem_entriesOf_kept_iff]

theorem onceWhen_duplicateSlot (segments : List Segment) (rules : RuleList) (template : String)
    (slot place first : Nat) :
    OnceWhen (reported (Plan.bind segments rules template)) (.duplicateSlot slot place first)
      (TakesSlot segments rules slot place ∧
        IsLeast {other | TakesSlot segments rules slot other} first ∧ first ≠ place) := by
  apply onceWhen_reported
  · apply nodup_slotFaults
    rw [takenSlots_map_bound]
    exact nodup_repeated_mergeSort _
      (increasing_entriesOf (increasing_places_kept segments rules))
  · exact duplicateSlot_mem_slotFaults_iff.trans mem_repeated_takenSlots_iff

/-! ## Names -/

/-- The rule `index` of all rules has a name. -/
def NamedAt (rules : RuleList) (name : String) (index : Nat) : Prop :=
  ∃ place, rules.names[place]? = some name ∧ rules.positional.length + place = index

theorem mem_zipIdx_names_iff {name : String} {index : Nat} :
    (name, index) ∈ rules.names.zipIdx rules.positional.length ↔ NamedAt rules name index := by
  rw [List.mk_mem_zipIdx_iff_le_and_getElem?_sub]
  constructor
  · rintro ⟨above, found⟩
    exact ⟨_, found, Nat.add_sub_cancel' above⟩
  · rintro ⟨place, found, rfl⟩
    exact ⟨Nat.le_add_right _ _, by rw [Nat.add_sub_cancel_left]; exact found⟩

theorem increasing_zipIdx_names (rules : RuleList) :
    (rules.names.zipIdx rules.positional.length).Pairwise
      fun first second => first.2 < second.2 := by
  rw [← List.pairwise_map, List.zipIdx_map_snd]
  exact List.pairwise_lt_range'

theorem sortsKeys_names :
    SortsKeys fun first second : String × Nat => decide (first.1 ≤ second.1) where
  transitive a b c := by simpa using String.le_trans
  total a b := by simpa using String.le_total a.1 b.1
  of_eq a b same := decide_eq_true (same ▸ String.le_refl _)

theorem duplicateName_injective :
    Function.Injective fun entry : String × Nat × Nat =>
      BindingFault.duplicateName entry.1 entry.2.1 entry.2.2 := by
  rintro ⟨name, index, first⟩ ⟨otherName, otherIndex, otherFirst⟩ same
  obtain ⟨rfl, rfl, rfl⟩ := BindingFault.duplicateName.inj same
  rfl

theorem duplicateName_mem_iff {name : String} {index first : Nat} :
    .duplicateName name index first ∈ duplicateNames rules ↔
      NamedAt rules name index ∧ IsLeast {other | NamedAt rules name other} first ∧
        first ≠ index := by
  have listed : .duplicateName name index first ∈ duplicateNames rules ↔ (name, index, first) ∈
      repeated ((rules.names.zipIdx rules.positional.length).mergeSort
        fun first second => decide (first.1 ≤ second.1)) := by
    constructor
    · intro member
      obtain ⟨entry, found, same⟩ := List.mem_map.mp member
      obtain ⟨rfl, rfl, rfl⟩ := BindingFault.duplicateName.inj same
      exact found
    · intro found
      exact List.mem_map.mpr ⟨_, found, rfl⟩
  rw [listed, sortsKeys_names.mem_repeated_iff (increasing_zipIdx_names rules)]
  simp only [mem_zipIdx_names_iff]

theorem onceWhen_duplicateName (segments : List Segment) (rules : RuleList) (template : String)
    (name : String) (index first : Nat) :
    OnceWhen (reported (Plan.bind segments rules template)) (.duplicateName name index first)
      (NamedAt rules name index ∧ IsLeast {other | NamedAt rules name other} first ∧
        first ≠ index) := by
  apply onceWhen_reported
  · exact (nodup_repeated_mergeSort _ (increasing_zipIdx_names rules)).map duplicateName_injective
  · exact duplicateName_mem_iff

/-- Each capture that takes a slot again is reported once, with the first capture of the slot, and
each rule that has a name again is reported once, with the first rule of the name; nothing else is
reported as a duplicate. -/
theorem duplicates_reported_once (segments : List Segment) (rules : RuleList)
    (template : String) :
    (∀ slot place first,
      OnceWhen (reported (Plan.bind segments rules template)) (.duplicateSlot slot place first)
        (TakesSlot segments rules slot place ∧
          IsLeast {other | TakesSlot segments rules slot other} first ∧ first ≠ place)) ∧
    (∀ name index first,
      OnceWhen (reported (Plan.bind segments rules template)) (.duplicateName name index first)
        (NamedAt rules name index ∧ IsLeast {other | NamedAt rules name other} first ∧
          first ≠ index)) :=
  ⟨onceWhen_duplicateSlot segments rules template, onceWhen_duplicateName segments rules template⟩

end Unformat.Binding
