import Unformat.Proofs.Plan.Fitting
import Unformat.Scan.Engine

/-!
# Values in their slots

A run yields the values of its captures in the order of the plan and sorts them by slot.  Since
the slots of a bound plan are those below its arity, each taken once, the value of a slot stands at
the place of its number.
-/

namespace Unformat

namespace Scan

/-- Sorting by slots that are the first numbers puts every value at the place of its slot. -/
theorem bySlot_getElem? {outputs : List (Nat × Value)}
    (nodup : (outputs.map Prod.fst).Nodup)
    (initial : ∀ slot, slot ∈ outputs.map Prod.fst ↔ slot < outputs.length) :
    (bySlot outputs).length = outputs.length ∧
      ∀ slot value, (slot, value) ∈ outputs → (bySlot outputs)[slot]? = some value := by
  let sorted := outputs.mergeSort fun a b => decide (a.1 ≤ b.1)
  have perm : sorted.Perm outputs := List.mergeSort_perm _ _
  have increasing : (sorted.map Prod.fst).Pairwise (· ≤ ·) := by
    rw [List.pairwise_map]
    refine (List.pairwise_mergeSort ?_ ?_ outputs).imp ?_
    · intro first second third
      simpa using Nat.le_trans
    · intro first second
      simpa using Nat.le_total first.1 second.1
    · intro first second
      simp
  have slots : sorted.map Prod.fst = List.range outputs.length := by
    refine List.Perm.eq_of_pairwise ?_ increasing (List.pairwise_lt_range.imp Nat.le_of_lt) ?_
    · intro first second _ _ below above
      exact Nat.le_antisymm below above
    · refine (perm.map Prod.fst).trans ?_
      rw [List.perm_ext_iff_of_nodup nodup List.nodup_range]
      intro slot
      rw [initial, List.mem_range]
  constructor
  · simp [bySlot]
  · intro slot value member
    obtain ⟨place, bound, standing⟩ := List.getElem_of_mem (perm.mem_iff.mpr member)
    have same : place = slot := by
      have number : (sorted.map Prod.fst)[place]? = some slot := by
        simp [List.getElem?_eq_getElem bound, standing]
      rw [slots] at number
      obtain ⟨_, equal⟩ := List.getElem?_eq_some_iff.mp number
      simpa using equal
    subst same
    have found : sorted[place]? = some (place, value) := by
      rw [List.getElem?_eq_getElem bound, standing]
    simp only [bySlot, List.getElem?_map]
    exact congrArg (Option.map Prod.snd) found

end Scan

namespace Plan

def slots (plan : Plan) : List Nat := plan.captures.filterMap Prod.fst

/-- The slots of a bound plan are those below its arity, each taken once, and every rule number is
that of a rule. -/
structure WellSlotted (plan : Plan) : Prop where
  nodup : plan.slots.Nodup
  initial : ∀ slot, slot ∈ plan.slots ↔ slot < plan.slots.length
  arity_eq : plan.arity = plan.slots.length
  rule_lt : ∀ slot rule, .capture slot rule ∈ plan.segments → rule < plan.rules.length

theorem wellSlotted_of_bind {segments : List Segment} {rules : RuleList} {template : String}
    {plan : Plan} (bound : Plan.bind segments rules template = .ok plan) : plan.WellSlotted := by
  obtain ⟨fits, rfl⟩ := fits_of_bind bound
  have taken : (Binding.determined segments rules template).slots = Binding.slots segments :=
    Binding.filterMap_fst_captures_determined segments rules template
  have realizes := Binding.realizes_determined fits template
  exact ⟨taken ▸ fits.slots_nodup, taken ▸ fits.slots_initial, taken ▸ realizes.arity_eq,
    realizes.rule_lt⟩

/-- A capture of a bound plan that fills a slot has a rule with a type. -/
theorem exists_type_of_bind {segments : List Segment} {rules : RuleList} {template : String}
    {plan : Plan} (bound : Plan.bind segments rules template = .ok plan) {slot index : Nat}
    (member : .capture (some slot) index ∈ plan.segments) :
    ∃ rule type, plan.rules[index]? = some rule ∧ rule.type? = some type := by
  obtain ⟨fits, rfl⟩ := fits_of_bind bound
  have below := (Binding.realizes_determined fits template).rule_lt (some slot) index member
  obtain ⟨capture, placed, filled, rfl⟩ := Binding.capture_mem_determined_iff.mp member
  have found := List.getElem?_eq_getElem below
  have typed := fits.typed capture placed (by simp [filled])
  generalize (Binding.determined segments rules template).rules[capture.target.index rules] = rule
    at found
  cases rule with
  | default type => exact ⟨_, type, found, rfl⟩
  | custom pattern type => exact ⟨_, type, found, rfl⟩
  | null pattern => exact (typed pattern found).elim

/-! ## The captures of a slot -/

end Plan

/-- The slot that a segment fills. -/
def PlanSegment.slot? : PlanSegment → Option Nat
  | .literal _ => none
  | .capture slot _ => slot

namespace Plan

theorem slots_eq (plan : Plan) : plan.slots = plan.segments.filterMap PlanSegment.slot? := by
  rw [slots, captures, List.filterMap_filterMap]
  apply List.filterMap_congr
  intro segment _
  cases segment <;> rfl

/-- No two segments of a bound plan fill the same slot. -/
theorem WellSlotted.place_eq {plan : Plan} (slotted : plan.WellSlotted) {slot : Nat}
    {place other : Nat} {segment otherSegment : PlanSegment}
    (here : plan.segments[place]? = some segment) (fills : segment.slot? = some slot)
    (there : plan.segments[other]? = some otherSegment)
    (otherFills : otherSegment.slot? = some slot) : other = place := by
  have nodup := slotted.nodup
  rw [slots_eq, List.Nodup, List.pairwise_filterMap, List.pairwise_iff_getElem] at nodup
  obtain ⟨bound, rfl⟩ := List.getElem?_eq_some_iff.mp here
  obtain ⟨otherBound, rfl⟩ := List.getElem?_eq_some_iff.mp there
  rcases Nat.lt_trichotomy other place with before | same | behind
  · exact (nodup _ _ otherBound bound before slot otherFills slot fills rfl).elim
  · exact same
  · exact (nodup _ _ bound otherBound behind slot fills slot otherFills rfl).elim

theorem WellSlotted.exists_capture {plan : Plan} (slotted : plan.WellSlotted) {slot : Nat}
    (below : slot < plan.arity) :
    ∃ place index : Nat, plan.segments[place]? = some (.capture (some slot) index) := by
  rw [slotted.arity_eq, ← slotted.initial, slots_eq] at below
  obtain ⟨segment, member, fills⟩ := List.mem_filterMap.mp below
  obtain ⟨place, standing⟩ := List.mem_iff_getElem?.mp member
  cases segment with
  | literal text => simp [PlanSegment.slot?] at fills
  | capture slot index =>
      obtain rfl : slot = some _ := fills
      exact ⟨place, index, standing⟩

end Plan

end Unformat
