import Mathlib
import Unformat.Proofs.Plan.Repeating

/-!
# Slots that are left out

Captures that refer to an unknown name are dropped before the slots are looked at, though they
have been counted by then. A slot that is reported as missing is therefore one that no other
capture takes. When all captures leave their slot to the order, none is taken twice, and one is
missing just when a capture is dropped that stands before one which is not.
-/

namespace Unformat.Binding

variable {segments : List Segment} {rules : RuleList}

/-! ## What the check finds -/

theorem missingSlots_mem_slotFaults_iff {captures : List BoundCapture} {missing : List Nat}
    {total : Nat} :
    .missingSlots missing total ∈ slotFaults captures ↔
      missing ≠ [] ∧ missing = missingSlots ((takenSlots captures).map Prod.fst) ∧
        total = ((takenSlots captures).map Prod.fst).eraseDups.length := by
  rw [slotFaults, List.mem_append]
  constructor
  · rintro (twice | found)
    · obtain ⟨entry, _, same⟩ := List.mem_map.mp twice
      cases same
    · split at found
      · cases found
      · rename_i nonempty
        obtain ⟨rfl, rfl⟩ := BindingFault.missingSlots.inj (List.mem_singleton.mp found)
        exact ⟨nonempty, rfl, rfl⟩
  · rintro ⟨nonempty, rfl, rfl⟩
    apply Or.inr
    split
    · rename_i empty
      exact (nonempty empty).elim
    · exact List.mem_singleton.mpr rfl

theorem mem_missingSlots_iff {slots : List Nat} {slot : Nat} :
    slot ∈ missingSlots slots ↔ slot < slots.eraseDups.length ∧ slot ∉ slots := by
  simp [missingSlots]

theorem mem_slots_kept_iff {slot : Nat} :
    slot ∈ (kept rules segments).filterMap Placed.slot ↔
      ∃ capture ∈ placed segments, capture.target.Known rules ∧ capture.slot = some slot :=
  List.mem_filterMap.trans exists_mem_kept_iff

theorem mem_takenSlots_kept_iff {slot : Nat} :
    slot ∈ (takenSlots ((kept rules segments).map (Placed.bound rules))).map Prod.fst ↔
      ∃ capture ∈ placed segments, capture.target.Known rules ∧ capture.slot = some slot :=
  (perm_takenSlots_map_bound (kept rules segments)).mem_iff.trans mem_slots_kept_iff

/-! ## Slots by order -/

/-- Every capture leaves its slot to the order, or has none. -/
def LeavesSlots (segments : List Segment) : Prop :=
  ∀ capture ∈ captures segments, capture.slot = .next ∨ capture.slot = .discard

theorem slotsByOrder_cons_literal (text : String) (rest : List Segment) :
    slotsByOrder (.literal text :: rest) = slotsByOrder rest := rfl

theorem slotsByOrder_cons_capture (capture : Capture) (offset : Nat) (rest : List Segment) :
    slotsByOrder (.capture capture offset :: rest) =
      (if capture.slot = .next then 1 else 0) + slotsByOrder rest := by
  simp [slotsByOrder, captures, Segment.capture?, List.countP_cons, Nat.add_comm]

theorem slots_behind (before : List Segment) {rest : List Segment} (leaves : LeavesSlots rest) :
    ((rest.zipIdx before.length).filterMap (placedAt (before ++ rest))).filterMap Placed.slot =
      List.range' (slotsByOrder before) (slotsByOrder rest) := by
  induction rest generalizing before with
  | nil => rfl
  | cons segment rest ih =>
      have later : LeavesSlots rest := by
        intro capture member
        apply leaves
        obtain ⟨other, listed, same⟩ := List.mem_filterMap.mp member
        exact List.mem_filterMap.mpr ⟨other, List.mem_cons_of_mem _ listed, same⟩
      have shifted := ih (before ++ [segment]) later
      simp only [List.append_assoc, List.singleton_append, List.length_append,
        List.length_singleton] at shifted
      rw [List.zipIdx_cons]
      cases segment with
      | literal text =>
          rw [slotsByOrder_append_literal] at shifted
          rw [List.filterMap_cons_none (by rfl), shifted, slotsByOrder_cons_literal]
      | capture capture offset =>
          have here : placedAt (before ++ .capture capture offset :: rest)
              (.capture capture offset, before.length) =
                some ⟨before.length, slotAfter before capture.slot,
                  targetAfter before capture.rule⟩ := by
            simp [placedAt]
          rw [slotsByOrder_append_capture] at shifted
          rw [List.filterMap_cons_some here, slotsByOrder_cons_capture]
          rcases leaves capture List.mem_cons_self with next | discard
          · rw [if_pos next] at shifted
            rw [List.filterMap_cons_some (by rw [next]; rfl), shifted, if_pos next,
              Nat.add_comm 1, List.range'_succ]
          · have none : capture.slot ≠ .next := by
              rw [discard]
              simp
            simp only [if_neg none, Nat.add_zero] at shifted
            rw [List.filterMap_cons_none (by rw [discard]; rfl), shifted, if_neg none,
              Nat.zero_add]

/-- Slots that are all left to the order are the first numbers, in order. -/
theorem slots_eq_range (leaves : LeavesSlots segments) :
    slots segments = List.range (slotsByOrder segments) := by
  rw [List.range_eq_range']
  exact slots_behind [] leaves

theorem increasing_slots (leaves : LeavesSlots segments) :
    (placed segments).Pairwise fun first second =>
      ∀ slot, first.slot = some slot → ∀ other, second.slot = some other → slot < other := by
  rw [← List.pairwise_filterMap]
  have increasing : (slots segments).Pairwise (· < ·) := by
    rw [slots_eq_range leaves]
    exact List.pairwise_lt_range
  exact increasing

/-- Slots by order increase with the places of their captures. -/
theorem slot_lt_iff (leaves : LeavesSlots segments) {first second : Placed} {slot other : Nat}
    (firstMember : first ∈ placed segments) (secondMember : second ∈ placed segments)
    (firstSlot : first.slot = some slot) (secondSlot : second.slot = some other) :
    slot < other ↔ first.place < second.place := by
  have bySlot := List.pairwise_iff_getElem.mp (increasing_slots leaves)
  have byPlace := List.pairwise_iff_getElem.mp (increasing_places segments)
  obtain ⟨firstIndex, firstBound, rfl⟩ := List.getElem_of_mem firstMember
  obtain ⟨secondIndex, secondBound, rfl⟩ := List.getElem_of_mem secondMember
  rcases Nat.lt_trichotomy firstIndex secondIndex with before | same | behind
  · exact iff_of_true (bySlot _ _ firstBound secondBound before slot firstSlot other secondSlot)
      (byPlace _ _ firstBound secondBound before)
  · subst same
    obtain rfl : slot = other := Option.some.inj (firstSlot.symm.trans secondSlot)
    simp
  · have greater := bySlot _ _ secondBound firstBound behind other secondSlot slot firstSlot
    have later := byPlace _ _ secondBound firstBound behind
    exact iff_of_false (Nat.not_lt_of_lt greater) (Nat.not_lt_of_lt later)

theorem nodup_slots (leaves : LeavesSlots segments) : (slots segments).Nodup := by
  rw [slots_eq_range leaves]
  exact List.nodup_range

theorem nodup_slots_kept (leaves : LeavesSlots segments) :
    ((kept rules segments).filterMap Placed.slot).Nodup :=
  (nodup_slots leaves).sublist (List.filter_sublist.filterMap _)

/-! ## Which slots are missing -/

/-- A number below the count of different numbers is left out just when a greater one is there. -/
theorem exists_left_out_iff {slots : List Nat} (nodup : slots.Nodup) :
    (∃ slot < slots.length, slot ∉ slots) ↔
      ∃ slot, slot ∉ slots ∧ ∃ later ∈ slots, slot < later := by
  constructor
  · rintro ⟨slot, below, absent⟩
    refine ⟨slot, absent, ?_⟩
    by_contra none
    have subset : slots ⊆ List.range slot := by
      intro other member
      have notGreater : ¬ slot < other := fun greater => none ⟨other, member, greater⟩
      have different : other ≠ slot := fun same => absent (same ▸ member)
      exact List.mem_range.mpr (by omega)
    have short := (nodup.subperm subset).length_le
    rw [List.length_range] at short
    omega
  · rintro ⟨slot, absent, later, member, greater⟩
    by_contra complete
    have initial : ∀ other, other ∈ slots ↔ other < slots.length := by
      apply mem_iff_lt_length
      intro other below
      by_contra leftOut
      exact complete ⟨other, below, leftOut⟩
    have below := (initial later).mp member
    exact absent ((initial slot).mpr (by omega))

/-- A capture with a slot refers to an unknown name, and one behind it has a slot too and does
not. -/
def Overtaken (segments : List Segment) (rules : RuleList) : Prop :=
  ∃ earlier ∈ placed segments, ∃ later ∈ placed segments, earlier.place < later.place ∧
    earlier.slot.isSome ∧ later.slot.isSome ∧
    ¬ earlier.target.Known rules ∧ later.target.Known rules

/-- Slots by order leave one out just when a dropped capture stands before one that is kept. -/
theorem exists_left_out_iff_overtaken (leaves : LeavesSlots segments) :
    (∃ slot, slot ∉ (kept rules segments).filterMap Placed.slot ∧
      ∃ later ∈ (kept rules segments).filterMap Placed.slot, slot < later) ↔
      Overtaken segments rules := by
  constructor
  · rintro ⟨slot, absent, other, member, greater⟩
    obtain ⟨later, laterMember, laterKnown, laterSlot⟩ := mem_slots_kept_iff.mp member
    have taken : slot ∈ slots segments := by
      have otherTaken : other ∈ slots segments :=
        List.mem_filterMap.mpr ⟨later, laterMember, laterSlot⟩
      rw [slots_eq_range leaves, List.mem_range] at otherTaken ⊢
      omega
    obtain ⟨earlier, earlierMember, earlierSlot⟩ := List.mem_filterMap.mp taken
    refine ⟨earlier, earlierMember, later, laterMember, ?_, by simp [earlierSlot],
      by simp [laterSlot], ?_, laterKnown⟩
    · exact (slot_lt_iff leaves earlierMember laterMember earlierSlot laterSlot).mp greater
    · intro known
      exact absent (mem_slots_kept_iff.mpr ⟨earlier, earlierMember, known, earlierSlot⟩)
  · rintro ⟨earlier, earlierMember, later, laterMember, before, earlierFilled, laterFilled,
      unknown, known⟩
    obtain ⟨slot, earlierSlot⟩ := Option.isSome_iff_exists.mp earlierFilled
    obtain ⟨other, laterSlot⟩ := Option.isSome_iff_exists.mp laterFilled
    refine ⟨slot, ?_, other, mem_slots_kept_iff.mpr ⟨later, laterMember, known, laterSlot⟩, ?_⟩
    · intro member
      obtain ⟨owner, ownerMember, ownerKnown, ownerSlot⟩ := mem_slots_kept_iff.mp member
      have same : owner = earlier :=
        eq_of_slot_eq (nodup_slots leaves) ownerMember earlierMember ownerSlot earlierSlot
      exact unknown (same ▸ ownerKnown)
    · exact (slot_lt_iff leaves earlierMember laterMember earlierSlot laterSlot).mpr before

theorem not_duplicated (leaves : LeavesSlots segments) (template : String)
    (slot place first : Nat) :
    .duplicateSlot slot place first ∉ reported (Plan.bind segments rules template) := by
  intro member
  have once := onceWhen_duplicateSlot segments rules template slot place first
  obtain ⟨⟨capture, listed, _, filled, rfl⟩, ⟨⟨other, otherListed, _, otherFilled, rfl⟩, _⟩,
    different⟩ := once.mem_iff.mp member
  have same : other = capture :=
    eq_of_slot_eq (nodup_slots leaves) otherListed listed otherFilled filled
  exact different (congrArg Placed.place same)

theorem exists_missing_iff (leaves : LeavesSlots segments) (template : String) :
    (∃ missing total,
      .missingSlots missing total ∈ reported (Plan.bind segments rules template)) ↔
      ∃ slot < ((kept rules segments).filterMap Placed.slot).length,
        slot ∉ (kept rules segments).filterMap Placed.slot := by
  have perm : ((takenSlots ((kept rules segments).map (Placed.bound rules))).map Prod.fst).Perm
      ((kept rules segments).filterMap Placed.slot) := perm_takenSlots_map_bound _
  have distinct := eraseDups_of_nodup (perm.nodup_iff.mpr (nodup_slots_kept leaves))
  constructor
  · rintro ⟨missing, total, member⟩
    obtain ⟨nonempty, rfl, rfl⟩ := missingSlots_mem_slotFaults_iff.mp (mem_reported_iff.mp member)
    obtain ⟨slot, listed⟩ := List.exists_mem_of_ne_nil _ nonempty
    obtain ⟨below, absent⟩ := mem_missingSlots_iff.mp listed
    rw [distinct, perm.length_eq] at below
    exact ⟨slot, below, fun taken => absent (perm.mem_iff.mpr taken)⟩
  · rintro ⟨slot, below, absent⟩
    refine ⟨_, _, mem_reported_iff.mpr (missingSlots_mem_slotFaults_iff.mpr ⟨?_, rfl, rfl⟩)⟩
    apply List.ne_nil_of_mem
    apply mem_missingSlots_iff.mpr
    rw [distinct, perm.length_eq]
    exact ⟨below, fun taken => absent (perm.mem_iff.mp taken)⟩

/-- A slot is reported as missing only if every capture that takes it refers to an unknown name.
When all captures leave their slots to the order, no slot is reported as taken twice, and slots are
reported as missing exactly when a capture that refers to an unknown name stands before one that
does not. -/
theorem missing_slots_untaken (segments : List Segment) (rules : RuleList) (template : String) :
    (∀ missing total,
      .missingSlots missing total ∈ reported (Plan.bind segments rules template) →
      ∀ slot, slot ∈ missing ↔ slot < total ∧
        ∀ capture ∈ placed segments, capture.slot = some slot → ¬ capture.target.Known rules) ∧
    (LeavesSlots segments →
      (∀ slot place first,
        .duplicateSlot slot place first ∉ reported (Plan.bind segments rules template)) ∧
      ((∃ missing total,
        .missingSlots missing total ∈ reported (Plan.bind segments rules template)) ↔
          Overtaken segments rules)) := by
  constructor
  · intro missing total member slot
    obtain ⟨_, rfl, rfl⟩ := missingSlots_mem_slotFaults_iff.mp (mem_reported_iff.mp member)
    rw [mem_missingSlots_iff, mem_takenSlots_kept_iff]
    refine and_congr_right fun _ => ?_
    constructor
    · intro untaken capture listed filled known
      exact untaken ⟨capture, listed, known, filled⟩
    · rintro unknown ⟨capture, listed, known, filled⟩
      exact unknown capture listed filled known
  · intro leaves
    refine ⟨not_duplicated leaves template, ?_⟩
    rw [exists_missing_iff leaves, exists_left_out_iff (nodup_slots_kept leaves),
      exists_left_out_iff_overtaken leaves]

/-- Of three captures that leave their slots to the order the second refers to an unknown name: the
slot 1 is missing, which no other capture takes. -/
theorem missing_slots_untaken_of_dropped_capture :
    let segments : List Segment :=
      [.capture ⟨.next, .next⟩ 0, .capture ⟨.next, .named "x"⟩ 2,
        .capture ⟨.discard, .number 0⟩ 6, .capture ⟨.next, .next⟩ 11]
    let rules : RuleList := { positional := [.custom "a" .string, .custom "b" .string] }
    LeavesSlots segments ∧ .missingSlots [1] 2 ∈ reported (Plan.bind segments rules) ∧
      Overtaken segments rules ∧
      ∀ capture ∈ placed segments, capture.slot = some 1 → ¬ capture.target.Known rules := by
  intro segments rules
  have leaves : LeavesSlots segments := by simp [LeavesSlots, captures, segments, Segment.capture?]
  have found : reported (Plan.bind segments rules) = [.unknownName "x", .missingSlots [1] 2] := by
    cbv
  have member : .missingSlots [1] 2 ∈ reported (Plan.bind segments rules) := by
    rw [found]
    exact List.mem_cons_of_mem _ List.mem_cons_self
  obtain ⟨untaken, byOrder⟩ := missing_slots_untaken segments rules ""
  have overtaken := (byOrder leaves).2.mp ⟨_, _, member⟩
  have unknown := ((untaken _ _ member 1).mp List.mem_cons_self).2
  exact ⟨leaves, member, overtaken, unknown⟩

/-- The first of two captures that leave their slots to the order refers to an unknown name: its
slot is reported as missing, although the template gives it to the capture. -/
theorem taken_slot_reported_missing :
    let segments : List Segment :=
      [.capture ⟨.next, .named "x"⟩ 0, .capture ⟨.next, .next⟩ 4]
    let rules : RuleList := { positional := [.default (.ofIntegers "u8" false (some 8) false)] }
    LeavesSlots segments ∧
      reported (Plan.bind segments rules) = [.unknownName "x", .missingSlots [0] 1] ∧
      ¬ ∀ missing total, .missingSlots missing total ∈ reported (Plan.bind segments rules) →
        ∀ slot ∈ missing, ∀ capture ∈ placed segments, capture.slot ≠ some slot := by
  intro segments rules
  have leaves : LeavesSlots segments := by simp [LeavesSlots, captures, segments, Segment.capture?]
  have found : reported (Plan.bind segments rules) = [.unknownName "x", .missingSlots [0] 1] := by
    decide +kernel
  refine ⟨leaves, found, fun untaken => ?_⟩
  have member : .missingSlots [0] 1 ∈ reported (Plan.bind segments rules) := by
    rw [found]
    exact List.mem_cons_of_mem _ List.mem_cons_self
  have taken : ⟨0, some 0, .named "x"⟩ ∈ placed segments := by decide
  exact untaken _ _ member 0 List.mem_cons_self _ taken rfl

end Unformat.Binding
