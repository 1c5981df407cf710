import Mathlib.Data.List.Nodup
import Mathlib.Data.List.Perm.Subperm
import Unformat.Proofs.Plan.Numbering

/-!
# Which templates and rule lists fit together

`Fits` says when a template and a rule list fit together without a word about faults; binding
succeeds exactly then, and the plan it returns is the one that the numbers given by order determine.
-/

namespace Unformat

namespace Binding

/-- A template and a rule list fit together. -/
structure Fits (segments : List Segment) (rules : RuleList) : Prop where
  references : ∀ capture ∈ placed segments, capture.target.Exists rules
  slots_nodup : (slots segments).Nodup
  slots_initial : ∀ slot, slot ∈ slots segments ↔ slot < (slots segments).length
  names_nodup : rules.names.Nodup
  used : ∀ index < rules.flattened.length,
    ∃ capture ∈ placed segments, capture.target.index rules = index
  typed : ∀ capture ∈ placed segments, capture.slot.isSome →
    ∀ pattern, rules.flattened[capture.target.index rules]? ≠ some (.null pattern)
  patterned : ∀ type, Rule.default type ∈ rules.flattened → type.hasDefault = true

/-- A plan is the one that a template and a rule list determine: its parts stand segment by segment
with the numbers given by order, its rules are the flattened list, every rule number is one of
them, and every slot has a type. -/
structure Realizes (segments : List Segment) (rules : RuleList) (plan : Plan) : Prop where
  segments_eq : plan.segments = segments.zipIdx.map (planned rules segments)
  rules_eq : plan.rules = rules.flattened
  arity_eq : plan.arity = (slots segments).length
  rule_lt : ∀ slot rule, .capture slot rule ∈ plan.segments → rule < plan.rules.length
  length_outputTypes : plan.outputTypes.length = plan.arity
  outputTypes_getElem? : ∀ slot rule, .capture (some slot) rule ∈ plan.segments →
    plan.outputTypes[slot]? = plan.rules[rule]?.map Rule.typeName

/-! ## Entries with equal keys -/

theorem lookup_eq_of_nodup {α β : Type} [DecidableEq α] {entries : List (α × β)}
    (keys : (entries.map Prod.fst).Nodup) {key : α} {value : β}
    (member : (key, value) ∈ entries) : entries.lookup key = some value := by
  induction entries with
  | nil => simp at member
  | cons entry rest ih =>
      simp only [List.map_cons, List.nodup_cons] at keys
      rcases List.mem_cons.mp member with first | later
      · subst first
        simp
      · have different : key ≠ entry.1 := by
          intro equality
          exact keys.1 (List.mem_map.mpr ⟨(key, value), later, equality⟩)
        rw [List.lookup_cons, beq_eq_false_iff_ne.mpr different]
        exact ih keys.2 later

theorem repeated_eq_nil_iff {α : Type} [DecidableEq α] {entries : List (α × Nat)}
    (distinct : (entries.map Prod.snd).Nodup) :
    repeated entries = [] ↔ (entries.map Prod.fst).Nodup := by
  constructor
  · intro none
    have first : ∀ entry ∈ entries, entries.lookup entry.1 = some entry.2 := by
      rintro ⟨key, value⟩ member
      have kept := List.filterMap_eq_nil_iff.mp none (key, value) member
      cases found : entries.lookup key with
      | none =>
          have absent := List.lookup_eq_none_iff.mp found (key, value) member
          simp at absent
      | some first =>
          simp only [found] at kept
          by_cases same : first = value
          · rw [same]
          · simp [same] at kept
    rw [List.Nodup, List.pairwise_map] at distinct ⊢
    apply distinct.imp_of_mem
    intro left right leftMember rightMember different equality
    have leftFirst := first left leftMember
    have rightFirst := first right rightMember
    rw [equality, rightFirst] at leftFirst
    exact different (Option.some.inj leftFirst).symm
  · intro keys
    apply List.filterMap_eq_nil_iff.mpr
    rintro ⟨key, value⟩ member
    simp [lookup_eq_of_nodup keys member]

theorem repeated_mergeSort_eq_nil_iff {α : Type} [DecidableEq α] {entries : List (α × Nat)}
    (before : α × Nat → α × Nat → Bool) (distinct : (entries.map Prod.snd).Nodup) :
    repeated (entries.mergeSort before) = [] ↔ (entries.map Prod.fst).Nodup := by
  have sorted : (entries.mergeSort before).Perm entries := List.mergeSort_perm _ _
  rw [repeated_eq_nil_iff ((sorted.map Prod.snd).nodup_iff.mpr distinct)]
  exact (sorted.map Prod.fst).nodup_iff

theorem eraseDups_of_nodup {slots : List Nat} (nodup : slots.Nodup) : slots.eraseDups = slots := by
  induction slots with
  | nil => rfl
  | cons slot rest ih =>
      obtain ⟨absent, restNodup⟩ := List.nodup_cons.mp nodup
      have unfiltered : rest.filter (fun other => !other == slot) = rest := by
        apply List.filter_eq_self.mpr
        intro other member
        have different : other ≠ slot := fun equality => absent (equality ▸ member)
        simp [different]
      rw [List.eraseDups_cons, unfiltered, ih restNodup]

/-- Numbers that leave none below their count out are the first ones. -/
theorem mem_iff_lt_length {slots : List Nat}
    (complete : ∀ slot < slots.length, slot ∈ slots) (slot : Nat) :
    slot ∈ slots ↔ slot < slots.length := by
  have subset : List.range slots.length ⊆ slots := by
    intro index member
    exact complete index (List.mem_range.mp member)
  have perm : (List.range slots.length).Perm slots :=
    (List.nodup_range.subperm subset).perm_of_length_le (by simp)
  rw [← perm.mem_iff, List.mem_range]

/-! ## The faults of each kind -/

variable {segments : List Segment} {rules : RuleList}

/-- Every name that captures refer to is declared. -/
def NamesDeclared (segments : List Segment) (rules : RuleList) : Prop :=
  ∀ capture ∈ placed segments, ∀ name, capture.target.name? = some name → name ∈ rules.names

/-- A target is no unknown name. -/
def Target.Known (rules : RuleList) (target : Target) : Prop :=
  ∀ name, target.name? = some name → name ∈ rules.names

instance (rules : RuleList) (target : Target) : Decidable (target.Known rules) :=
  match target with
  | .positional _ => .isTrue (by simp [Target.Known])
  | .named name => decidable_of_iff (name ∈ rules.names) (by simp [Target.Known])

/-- The captures that binding goes on with: those that refer to no unknown name. -/
def kept (rules : RuleList) (segments : List Segment) : List Placed :=
  (placed segments).filter fun capture => capture.target.Known rules

theorem mem_kept_iff {capture : Placed} :
    capture ∈ kept rules segments ↔ capture ∈ placed segments ∧ capture.target.Known rules := by
  rw [kept, List.mem_filter, decide_eq_true_iff]

theorem exists_mem_kept_iff {property : Placed → Prop} :
    (∃ capture ∈ kept rules segments, property capture) ↔
      ∃ capture ∈ placed segments, capture.target.Known rules ∧ property capture := by
  simp only [mem_kept_iff, and_assoc]

theorem increasing_places_kept (segments : List Segment) (rules : RuleList) :
    (kept rules segments).Pairwise fun first second => first.place < second.place :=
  (increasing_places segments).sublist List.filter_sublist

theorem kept_of_declared (declared : NamesDeclared segments rules) :
    kept rules segments = placed segments := by
  rw [kept, List.filter_eq_self]
  intro capture member
  exact decide_eq_true (declared capture member)

/-- The capture as binding keeps it. -/
def Placed.bound (rules : RuleList) (capture : Placed) : BoundCapture :=
  ⟨capture.place, capture.slot, capture.target.index rules⟩

theorem boundCaptures_eq (segments : List Segment) (rules : RuleList) :
    boundCaptures (resolve rules 0 {} segments) =
      (kept rules segments).map (Placed.bound rules) := by
  rw [resolve_eq, boundCaptures, List.filterMap_map, kept, placed, List.filter_filterMap,
    List.map_filterMap]
  apply List.filterMap_congr
  rintro ⟨segment, place⟩ _
  cases segment with
  | literal text => rfl
  | capture capture offset =>
      simp only [Function.comp_apply, resolutionAt, placedAt, Option.bind_some,
        Option.filter_some]
      cases named : (targetAfter (segments.take place) capture.rule).name? with
      | none => simp [Target.Known, named, planned, Placed.bound]
      | some name =>
          by_cases known : name ∈ rules.names <;>
            simp [Target.Known, named, known, planned, Placed.bound]

theorem nameFaults_eq_nil_iff :
    nameFaults (resolve rules 0 {} segments) = [] ↔ NamesDeclared segments rules := by
  rw [resolve_eq, nameFaults, List.filterMap_map, List.filterMap_eq_nil_iff]
  constructor
  · intro none capture member name named
    obtain ⟨entry, entryMember, result⟩ := List.mem_filterMap.mp member
    have kept := none entry entryMember
    by_contra unknown
    simp [resolutionAt, result, named, unknown] at kept
  · intro declared entry member
    cases result : placedAt segments entry with
    | none => simp [resolutionAt, result]
    | some capture =>
        have known := declared capture (List.mem_filterMap.mpr ⟨entry, member, result⟩)
        cases named : capture.target.name? with
        | none => simp [resolutionAt, result, named]
        | some name => simp [resolutionAt, result, named, known name named]

theorem resolutionAt_of_declared (declared : NamesDeclared segments rules)
    {entry : Segment × Nat} (member : entry ∈ segments.zipIdx) :
    resolutionAt rules segments entry = .resolved entry.2 (planned rules segments entry) := by
  cases result : placedAt segments entry with
  | none => simp [resolutionAt, result]
  | some capture =>
      have known := declared capture (List.mem_filterMap.mpr ⟨entry, member, result⟩)
      cases named : capture.target.name? with
      | none => simp [resolutionAt, result, named]
      | some name => simp [resolutionAt, result, named, known name named]

theorem resolve_of_declared (declared : NamesDeclared segments rules) :
    resolve rules 0 {} segments =
      segments.zipIdx.map fun entry => .resolved entry.2 (planned rules segments entry) := by
  rw [resolve_eq]
  exact List.map_congr_left fun _ member => resolutionAt_of_declared declared member

theorem planSegments_of_declared (declared : NamesDeclared segments rules) :
    planSegments (resolve rules 0 {} segments) =
      segments.zipIdx.map (planned rules segments) := by
  rw [resolve_of_declared declared, planSegments, List.filterMap_map]
  exact congrFun List.filterMap_eq_map _

theorem boundCaptures_of_declared (declared : NamesDeclared segments rules) :
    boundCaptures (resolve rules 0 {} segments) =
      (placed segments).map (Placed.bound rules) := by
  rw [boundCaptures_eq, kept_of_declared declared]

theorem positionFaults_eq_nil_iff :
    positionFaults rules segments = [] ↔
      ∀ capture ∈ placed segments, ∀ index, capture.target.position? = some index →
        index < rules.positional.length := by
  have empty : positionFaults rules segments = [] ↔
      (positionalReferences {} segments).filter (rules.positional.length ≤ ·) = [] := by
    unfold positionFaults
    cases (positionalReferences {} segments).filter (rules.positional.length ≤ ·) <;> simp
  rw [empty, positionalReferences_eq, List.filter_eq_nil_iff]
  simp only [List.mem_filterMap, decide_eq_true_eq, Nat.not_le]
  constructor
  · intro below capture member index position
    exact below index ⟨capture, member, position⟩
  · rintro below index ⟨capture, member, position⟩
    exact below capture member index position

/-- References all lead to a rule when names are declared and numbers are small enough. -/
theorem references_iff :
    (∀ capture ∈ placed segments, capture.target.Exists rules) ↔
      NamesDeclared segments rules ∧
        ∀ capture ∈ placed segments, ∀ index, capture.target.position? = some index →
          index < rules.positional.length := by
  constructor
  · intro existing
    constructor
    · intro capture member name named
      have found := existing capture member
      cases target : capture.target <;> simp_all [Target.Exists]
    · intro capture member index position
      have found := existing capture member
      cases target : capture.target <;> simp_all [Target.Exists]
  · rintro ⟨declared, below⟩ capture member
    cases target : capture.target with
    | positional index => exact below capture member index (by simp [target])
    | named name => exact declared capture member name (by simp [target])

/-- The slots that captures take, each with the place of its capture. -/
def entriesOf (captures : List Placed) : List (Nat × Nat) :=
  captures.filterMap fun capture => capture.slot.map fun slot => (slot, capture.place)

theorem takenSlots_map_bound (captures : List Placed) :
    takenSlots (captures.map (Placed.bound rules)) =
      (entriesOf captures).mergeSort fun first second => decide (first.1 ≤ second.1) := by
  rw [takenSlots, List.filterMap_map]
  rfl

theorem increasing_entriesOf {captures : List Placed}
    (increasing : captures.Pairwise fun first second => first.place < second.place) :
    (entriesOf captures).Pairwise fun first second => first.2 < second.2 := by
  rw [entriesOf, List.pairwise_filterMap]
  apply increasing.imp
  intro first second before entry found otherEntry otherFound
  obtain ⟨_, _, rfl⟩ := Option.map_eq_some_iff.mp found
  obtain ⟨_, _, rfl⟩ := Option.map_eq_some_iff.mp otherFound
  exact before

def slotEntries (segments : List Segment) : List (Nat × Nat) :=
  (placed segments).filterMap fun capture => capture.slot.map fun slot => (slot, capture.place)

theorem takenSlots_bound :
    takenSlots ((placed segments).map (Placed.bound rules)) =
      (slotEntries segments).mergeSort fun first second => decide (first.1 ≤ second.1) :=
  takenSlots_map_bound (placed segments)

theorem map_fst_entriesOf (captures : List Placed) :
    (entriesOf captures).map Prod.fst = captures.filterMap Placed.slot := by
  rw [entriesOf, List.map_filterMap]
  congr 1
  funext capture
  cases capture.slot <;> rfl

theorem map_fst_slotEntries : (slotEntries segments).map Prod.fst = slots segments :=
  map_fst_entriesOf (placed segments)

theorem nodup_map_snd_slotEntries : ((slotEntries segments).map Prod.snd).Nodup := by
  rw [List.Nodup, List.pairwise_map]
  exact (increasing_entriesOf (increasing_places segments)).imp Nat.ne_of_lt

theorem perm_takenSlots_map_bound (captures : List Placed) :
    ((takenSlots (captures.map (Placed.bound rules))).map Prod.fst).Perm
      (captures.filterMap Placed.slot) := by
  rw [takenSlots_map_bound, ← map_fst_entriesOf]
  exact (List.mergeSort_perm _ _).map Prod.fst

theorem perm_takenSlots :
    ((takenSlots ((placed segments).map (Placed.bound rules))).map Prod.fst).Perm
      (slots segments) :=
  perm_takenSlots_map_bound (placed segments)

theorem length_eraseDups_takenSlots (nodup : (slots segments).Nodup) :
    ((takenSlots ((placed segments).map (Placed.bound rules))).map Prod.fst).eraseDups.length =
      (slots segments).length := by
  rw [eraseDups_of_nodup (perm_takenSlots.nodup_iff.mpr nodup)]
  exact perm_takenSlots.length_eq

theorem missingSlots_eq_nil_iff {slots : List Nat} :
    missingSlots slots = [] ↔ ∀ slot < slots.eraseDups.length, slot ∈ slots := by
  simp [missingSlots, List.filter_eq_nil_iff]

theorem slotFaults_eq_nil_iff :
    slotFaults ((placed segments).map (Placed.bound rules)) = [] ↔
      (slots segments).Nodup ∧ ∀ slot, slot ∈ slots segments ↔ slot < (slots segments).length := by
  have repeatedIff :
      repeated (takenSlots ((placed segments).map (Placed.bound rules))) = [] ↔
        (slots segments).Nodup := by
    rw [takenSlots_bound, repeated_mergeSort_eq_nil_iff _ nodup_map_snd_slotEntries,
      map_fst_slotEntries]
  have split : slotFaults ((placed segments).map (Placed.bound rules)) = [] ↔
      repeated (takenSlots ((placed segments).map (Placed.bound rules))) = [] ∧
        missingSlots
          ((takenSlots ((placed segments).map (Placed.bound rules))).map Prod.fst) = [] := by
    unfold slotFaults
    simp only [List.append_eq_nil_iff, List.map_eq_nil_iff]
    cases missingSlots ((takenSlots ((placed segments).map (Placed.bound rules))).map Prod.fst) <;>
      simp
  rw [split, repeatedIff, missingSlots_eq_nil_iff]
  refine and_congr_right fun nodup => ?_
  rw [length_eraseDups_takenSlots nodup]
  constructor
  · intro complete
    exact mem_iff_lt_length fun slot below => perm_takenSlots.mem_iff.mp (complete slot below)
  · intro initial slot below
    exact perm_takenSlots.mem_iff.mpr ((initial slot).mpr below)

theorem duplicateNames_eq_nil_iff : duplicateNames rules = [] ↔ rules.names.Nodup := by
  have distinct : ((rules.names.zipIdx rules.positional.length).map Prod.snd).Nodup := by
    rw [List.zipIdx_map_snd]
    exact List.nodup_range'
  simp only [duplicateNames, List.map_eq_nil_iff]
  rw [repeated_mergeSort_eq_nil_iff _ distinct, List.zipIdx_map_fst]

theorem unusedRules_eq_nil_iff :
    unusedRules ((placed segments).map (Placed.bound rules)) rules.flattened = [] ↔
      ∀ index < rules.flattened.length,
        ∃ capture ∈ placed segments, capture.target.index rules = index := by
  simp only [unusedRules, List.map_eq_nil_iff, List.filter_eq_nil_iff, List.mem_range,
    Bool.not_eq_true', Bool.not_eq_false, List.any_map, List.any_eq_true]
  refine forall₂_congr fun index _ => exists_congr fun capture => and_congr_right fun _ => ?_
  exact decide_eq_true_iff

theorem untypedCaptures_eq_nil_iff :
    untypedCaptures ((placed segments).map (Placed.bound rules)) rules.flattened = [] ↔
      ∀ capture ∈ placed segments, capture.slot.isSome →
        ∀ pattern, rules.flattened[capture.target.index rules]? ≠ some (.null pattern) := by
  rw [untypedCaptures, List.filterMap_map, List.filterMap_eq_nil_iff]
  refine forall₂_congr fun capture _ => ?_
  cases found : rules.flattened[capture.target.index rules]? with
  | none => simp [Placed.bound, found]
  | some rule => cases rule <;> simp [Placed.bound, found, Rule.isNull]

theorem missingPatterns_eq_nil_iff :
    missingPatterns rules.flattened = [] ↔
      ∀ type, Rule.default type ∈ rules.flattened → type.hasDefault = true := by
  rw [missingPatterns, List.filterMap_eq_nil_iff]
  constructor
  · intro none type member
    obtain ⟨index, bound, found⟩ := List.mem_iff_getElem.mp member
    have kept := none (.default type, index)
      (List.mem_zipIdx_iff_getElem?.mpr (by simp [bound, found]))
    simpa using kept
  · rintro patterned ⟨rule, index⟩ member
    have inList : rule ∈ rules.flattened := by
      have found := List.mem_zipIdx_iff_getElem?.mp member
      exact List.mem_of_getElem? found
    cases rule with
    | default type => simp [patterned type inList]
    | custom pattern type => rfl
    | null pattern => rfl

/-- Nothing is reported exactly when the template and the rule list fit together. -/
theorem faults_eq_nil_iff : faults segments rules = [] ↔ Fits segments rules := by
  simp only [faults, List.append_eq_nil_iff, nameFaults_eq_nil_iff, positionFaults_eq_nil_iff,
    duplicateNames_eq_nil_iff, missingPatterns_eq_nil_iff]
  constructor
  · intro given
    obtain ⟨⟨⟨⟨⟨⟨declared, below⟩, slotsNone⟩, namesNodup⟩, unusedNone⟩, untypedNone⟩, patterned⟩ :=
      given
    rw [boundCaptures_of_declared declared] at slotsNone unusedNone untypedNone
    obtain ⟨slotsNodup, slotsInitial⟩ := slotFaults_eq_nil_iff.mp slotsNone
    exact ⟨references_iff.mpr ⟨declared, below⟩, slotsNodup, slotsInitial, namesNodup,
      unusedRules_eq_nil_iff.mp unusedNone, untypedCaptures_eq_nil_iff.mp untypedNone, patterned⟩
  · intro fits
    obtain ⟨declared, below⟩ := references_iff.mp fits.references
    rw [boundCaptures_of_declared declared]
    exact ⟨⟨⟨⟨⟨⟨declared, below⟩,
      slotFaults_eq_nil_iff.mpr ⟨fits.slots_nodup, fits.slots_initial⟩⟩, fits.names_nodup⟩,
      unusedRules_eq_nil_iff.mpr fits.used⟩, untypedCaptures_eq_nil_iff.mpr fits.typed⟩,
      fits.patterned⟩

/-! ## The plan -/

theorem length_flattened :
    rules.flattened.length = rules.positional.length + rules.names.length := by
  simp [RuleList.flattened, RuleList.names]

theorem index_lt_length_flattened {target : Target} (existing : target.Exists rules) :
    target.index rules < rules.flattened.length := by
  rw [length_flattened]
  cases target with
  | positional index =>
      have below : index < rules.positional.length := existing
      simp only [Target.index]
      omega
  | named name =>
      have found : rules.names.idxOf name < rules.names.length :=
        List.idxOf_lt_length_iff.mpr existing
      simp only [Target.index]
      omega

/-- The plan that the numbers given by order determine. -/
def determined (segments : List Segment) (rules : RuleList) (template : String) : Plan where
  segments := segments.zipIdx.map (planned rules segments)
  rules := rules.flattened
  arity := (slots segments).length
  template := template

theorem captures_determined (template : String) :
    (determined segments rules template).captures =
      (placed segments).map fun capture => (capture.slot, capture.target.index rules) := by
  rw [Plan.captures, determined, List.filterMap_map, placed, List.map_filterMap]
  apply List.filterMap_congr
  rintro ⟨segment, place⟩ _
  cases segment <;> rfl

theorem filterMap_fst_captures_determined (segments : List Segment) (rules : RuleList)
    (template : String) :
    (determined segments rules template).captures.filterMap Prod.fst = slots segments := by
  rw [captures_determined, List.filterMap_map]
  rfl

theorem capture_mem_determined_iff {template : String} {slot : Option Nat} {rule : Nat} :
    .capture slot rule ∈ (determined segments rules template).segments ↔
      ∃ capture ∈ placed segments, capture.slot = slot ∧ capture.target.index rules = rule := by
  have listed : .capture slot rule ∈ (determined segments rules template).segments ↔
      (slot, rule) ∈ (determined segments rules template).captures := by
    rw [Plan.captures, List.mem_filterMap]
    constructor
    · intro member
      exact ⟨_, member, rfl⟩
    · intro given
      obtain ⟨segment, member, result⟩ := given
      cases segment with
      | literal text => simp at result
      | capture otherSlot otherRule =>
          simp only [Option.some.injEq, Prod.mk.injEq] at result
          obtain ⟨rfl, rfl⟩ := result
          exact member
  rw [listed, captures_determined, List.mem_map]
  simp only [Prod.mk.injEq]

theorem eq_of_slot_eq (nodup : (slots segments).Nodup) {first second : Placed} {slot : Nat}
    (firstMember : first ∈ placed segments) (secondMember : second ∈ placed segments)
    (firstSlot : first.slot = some slot) (secondSlot : second.slot = some slot) :
    first = second := by
  rw [slots, List.Nodup, List.pairwise_filterMap, List.pairwise_iff_getElem] at nodup
  obtain ⟨firstIndex, firstBound, rfl⟩ := List.getElem_of_mem firstMember
  obtain ⟨secondIndex, secondBound, rfl⟩ := List.getElem_of_mem secondMember
  rcases Nat.lt_trichotomy firstIndex secondIndex with before | same | behind
  · exact (nodup _ _ firstBound secondBound before slot firstSlot slot secondSlot rfl).elim
  · simp [same]
  · exact (nodup _ _ secondBound firstBound behind slot secondSlot slot firstSlot rfl).elim

theorem slotType?_determined (fits : Fits segments rules) {template : String} {capture : Placed}
    {slot : Nat} (member : capture ∈ placed segments) (taken : capture.slot = some slot) :
    (determined segments rules template).slotType? slot =
      rules.flattened[capture.target.index rules]?.map Rule.typeName := by
  have found : (determined segments rules template).captures.reverse.find?
      (fun entry => entry.1 = some slot) = some (some slot, capture.target.index rules) := by
    rw [captures_determined, ← List.map_reverse]
    cases search : ((placed segments).reverse.map fun capture =>
        (capture.slot, capture.target.index rules)).find? fun entry => entry.1 = some slot with
    | none =>
        have absent := List.find?_eq_none.mp search (capture.slot, capture.target.index rules)
          (List.mem_map.mpr ⟨capture, List.mem_reverse.mpr member, rfl⟩)
        simp [taken] at absent
    | some entry =>
        have entrySlot : entry.1 = some slot := by simpa using List.find?_some search
        obtain ⟨other, otherMember, rfl⟩ := List.mem_map.mp (List.mem_of_find?_eq_some search)
        have same : other = capture :=
          eq_of_slot_eq fits.slots_nodup (List.mem_reverse.mp otherMember) member entrySlot taken
        rw [same, taken]
  rw [Plan.slotType?, found]
  simp only [Option.bind_eq_bind, Option.bind_some, determined]
  cases rules.flattened[capture.target.index rules]? <;> rfl

theorem outputTypes_determined (fits : Fits segments rules) (template : String) :
    ∃ typeNames : List String,
      (determined segments rules template).outputTypes = typeNames ∧
        typeNames.length = (slots segments).length ∧
        ∀ slot, slot < (slots segments).length →
          typeNames[slot]? = (determined segments rules template).slotType? slot := by
  have named : ∀ slot < (slots segments).length,
      ((determined segments rules template).slotType? slot).isSome := by
    intro slot below
    obtain ⟨capture, member, taken⟩ :=
      List.mem_filterMap.mp ((fits.slots_initial slot).mpr below)
    rw [slotType?_determined fits member taken]
    have bound := index_lt_length_flattened (fits.references capture member)
    simp [bound]
  have listed : (determined segments rules template).outputTypes =
      (List.range (slots segments).length).map
        fun slot => ((determined segments rules template).slotType? slot).getD "" := by
    rw [Plan.outputTypes, ← List.filterMap_eq_map]
    apply List.filterMap_congr
    intro slot member
    obtain ⟨name, result⟩ := Option.isSome_iff_exists.mp (named slot (List.mem_range.mp member))
    simp [result]
  refine ⟨_, listed, by simp, ?_⟩
  intro slot below
  obtain ⟨name, result⟩ := Option.isSome_iff_exists.mp (named slot below)
  simp [below, result]

theorem realizes_determined (fits : Fits segments rules) (template : String) :
    Realizes segments rules (determined segments rules template) := by
  obtain ⟨typeNames, listed, length, entries⟩ := outputTypes_determined fits template
  refine ⟨rfl, rfl, rfl, ?_, ?_, ?_⟩
  · intro slot rule member
    obtain ⟨capture, placedMember, _, rfl⟩ := capture_mem_determined_iff.mp member
    exact index_lt_length_flattened (fits.references capture placedMember)
  · rw [listed, length]
    rfl
  · intro slot rule member
    obtain ⟨capture, placedMember, taken, rfl⟩ := capture_mem_determined_iff.mp member
    have below : slot < (slots segments).length :=
      (fits.slots_initial slot).mp (List.mem_filterMap.mpr ⟨capture, placedMember, taken⟩)
    rw [listed, entries slot below]
    exact slotType?_determined fits placedMember taken

theorem bind_of_fits (fits : Fits segments rules) (template : String) :
    Plan.bind segments rules template = .ok (determined segments rules template) := by
  have declared := (references_iff.mp fits.references).1
  rw [Plan.bind, faults_eq_nil_iff.mpr fits]
  simp only [planSegments_of_declared declared, boundCaptures_of_declared declared,
    length_eraseDups_takenSlots fits.slots_nodup]
  rfl

theorem bind_of_not_fits (misfit : ¬ Fits segments rules) (template : String) :
    ∃ report, Plan.bind segments rules template = .error report ∧ report.problems ≠ [] := by
  cases found : faults segments rules with
  | nil => exact (misfit (faults_eq_nil_iff.mp found)).elim
  | cons fault rest =>
      refine ⟨_, by rw [Plan.bind, found], ?_⟩
      simp [BindingReport.addAll]

/-- Binding returns a plan exactly for the templates and rule lists that fit together; otherwise
it reports at least one fault. -/
theorem bind_accepts_exactly_fitting (segments : List Segment) (rules : RuleList)
    (template : String) :
    match Plan.bind segments rules template with
    | .ok plan => Fits segments rules ∧ Realizes segments rules plan
    | .error report => ¬ Fits segments rules ∧ report.problems ≠ [] := by
  by_cases fits : Fits segments rules
  · rw [bind_of_fits fits template]
    exact ⟨fits, realizes_determined fits template⟩
  · obtain ⟨report, result, problems⟩ := bind_of_not_fits fits template
    rw [result]
    exact ⟨fits, problems⟩

end Binding

/-- A bound plan is the one that a template and a rule list which fit together determine. -/
theorem Plan.fits_of_bind {segments : List Segment} {rules : RuleList} {template : String}
    {plan : Plan} (bound : Plan.bind segments rules template = .ok plan) :
    Binding.Fits segments rules ∧ plan = Binding.determined segments rules template := by
  by_cases fits : Binding.Fits segments rules
  · rw [Binding.bind_of_fits fits] at bound
    exact ⟨fits, (Except.ok.inj bound).symm⟩
  · obtain ⟨report, refused, _⟩ := Binding.bind_of_not_fits fits template
    rw [refused] at bound
    simp at bound

end Unformat
