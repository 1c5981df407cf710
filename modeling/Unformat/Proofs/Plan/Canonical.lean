import Mathlib
import Unformat.Proofs.Plan.Fitting
import Unformat.Proofs.Template.RoundTrip

/-!
# Canonical templates

The canonical template of a plan spells out every number that the template left to the order or to
a name. Read again and bound to the rules of the plan, all of them positional, it gives the same
plan. The argument compares the captures of both templates: they have the same slots and the same
rules, and nothing else decides whether a template and a rule list fit together.
-/

namespace Unformat

/-- The reference that gives the number of a slot. -/
def SlotRef.spelling : Option Nat → SlotRef
  | none => .discard
  | some slot => .number slot

/-- The segment that spells a part of a plan out. -/
def PlanSegment.spelled : PlanSegment → Segment
  | .literal text => .literal text
  | .capture slot rule => .capture ⟨.spelling slot, .number rule⟩ 0

/-- Segments that spell the parts of a plan out, wherever their captures stand. -/
def Spells (segments : List Segment) (parts : List PlanSegment) : Prop :=
  segments.map Segment.shape = parts.map PlanSegment.spelled

theorem PlanSegment.text_spelled (part : PlanSegment) : part.spelled.text = part.text := by
  match part with
  | .literal _ => rfl
  | .capture none _ => rfl
  | .capture (some _) _ => rfl

theorem Plan.canonicalTemplate_eq_format (plan : Plan) :
    plan.canonicalTemplate = Template.format (plan.segments.map PlanSegment.spelled) := by
  rw [canonicalTemplate, Template.format, List.map_map]
  exact congrArg String.join (List.map_congr_left fun part _ => part.text_spelled.symm)

theorem spells_cons {segments : List Segment} {part : PlanSegment} {parts : List PlanSegment}
    (spells : Spells segments (part :: parts)) :
    ∃ segment rest, segments = segment :: rest ∧ segment.shape = part.spelled ∧
      Spells rest parts := by
  obtain ⟨segment, rest, rfl, same, later⟩ := List.map_eq_cons_iff.mp spells
  exact ⟨segment, rest, rfl, same, later⟩

namespace Binding

variable {segments : List Segment} {rules : RuleList}

/-! ## Numbers that are spelled out -/

theorem planned_of_spelled {segment : Segment} {part : PlanSegment}
    (same : segment.shape = part.spelled) (place : Nat) :
    planned rules segments (segment, place) = part := by
  match segment, part with
  | .literal text, .literal _ =>
      cases same
      rfl
  | .literal text, .capture slot rule => cases same
  | .capture value offset, .literal text => cases same
  | .capture value offset, .capture none rule =>
      cases same
      rfl
  | .capture value offset, .capture (some slot) rule =>
      cases same
      rfl

theorem position_of_spelled {segment : Segment} {part : PlanSegment}
    (same : segment.shape = part.spelled) {place : Nat} {capture : Placed}
    (placed : placedAt segments (segment, place) = some capture) :
    ∃ index, capture.target = .positional index := by
  match segment, part with
  | .literal text, _ => cases placed
  | .capture value offset, .literal text => cases same
  | .capture value offset, .capture slot rule =>
      cases same
      cases placed
      exact ⟨rule, rfl⟩

/-- Numbers that are spelled out do not depend on what stands before them. -/
theorem map_planned_of_spells {whole : List Segment} {parts : List PlanSegment}
    (spells : Spells segments parts) (start : Nat) :
    (segments.zipIdx start).map (planned rules whole) = parts := by
  induction parts generalizing segments start with
  | nil =>
      obtain rfl := List.map_eq_nil_iff.mp spells
      rfl
  | cons part parts ih =>
      obtain ⟨segment, rest, rfl, same, later⟩ := spells_cons spells
      rw [List.zipIdx_cons, List.map_cons, planned_of_spelled same, ih later]

theorem position_of_spells {parts : List PlanSegment} (spells : Spells segments parts)
    {capture : Placed} (member : capture ∈ placed segments) :
    ∃ index, capture.target = .positional index := by
  obtain ⟨⟨segment, place⟩, standing, placed⟩ := List.mem_filterMap.mp member
  have listed : segment.shape ∈ parts.map PlanSegment.spelled :=
    spells ▸ List.mem_map_of_mem (List.fst_mem_of_mem_zipIdx standing)
  obtain ⟨part, _, same⟩ := List.mem_map.mp listed
  exact position_of_spelled same.symm placed

/-! ## What decides that a template and a rule list fit together -/

theorem slots_eq_of_same_plan {others : List Segment} {otherRules : RuleList}
    {template label : String}
    (same : (determined others otherRules label).segments =
      (determined segments rules template).segments) : slots others = slots segments := by
  rw [← filterMap_fst_captures_determined others otherRules label,
    ← filterMap_fst_captures_determined segments rules template, Plan.captures, Plan.captures,
    same]

/-- Slots and rules of captures decide the fit, as long as references lead to a rule and names are
unique. -/
theorem fits_of_same_plan {others : List Segment} {otherRules : RuleList}
    (fits : Fits segments rules) {template label : String}
    (same : (determined others otherRules label).segments =
      (determined segments rules template).segments)
    (flat : otherRules.flattened = rules.flattened)
    (references : ∀ capture ∈ placed others, capture.target.Exists otherRules)
    (names : otherRules.names.Nodup) : Fits others otherRules := by
  have slotsEq := slots_eq_of_same_plan same
  have captureIff : ∀ slot rule,
      (∃ capture ∈ placed others, capture.slot = slot ∧ capture.target.index otherRules = rule) ↔
        ∃ capture ∈ placed segments, capture.slot = slot ∧ capture.target.index rules = rule := by
    intro slot rule
    have listed : .capture slot rule ∈ (determined others otherRules label).segments ↔
        .capture slot rule ∈ (determined segments rules template).segments := by
      rw [same]
    exact capture_mem_determined_iff.symm.trans (listed.trans capture_mem_determined_iff)
  refine ⟨references, slotsEq ▸ fits.slots_nodup, slotsEq ▸ fits.slots_initial, names, ?_, ?_,
    flat ▸ fits.patterned⟩
  · intro index below
    rw [flat] at below
    obtain ⟨capture, member, number⟩ := fits.used index below
    obtain ⟨other, otherMember, _, otherNumber⟩ :=
      (captureIff capture.slot index).mpr ⟨capture, member, rfl, number⟩
    exact ⟨other, otherMember, otherNumber⟩
  · intro capture member taken pattern
    obtain ⟨other, otherMember, slotEq, number⟩ :=
      (captureIff capture.slot (capture.target.index otherRules)).mp ⟨capture, member, rfl, rfl⟩
    rw [flat, ← number]
    exact fits.typed other otherMember (slotEq ▸ taken) pattern

/-! ## How large the numbers are -/

theorem length_placed_le : (placed segments).length ≤ segments.length := by
  have bound := List.length_filterMap_le (placedAt segments) segments.zipIdx
  rwa [List.length_zipIdx] at bound

theorem length_slots_le : (slots segments).length ≤ segments.length :=
  (List.length_filterMap_le _ _).trans length_placed_le

/-- Every rule is used by a capture of its own. -/
theorem length_flattened_le (fits : Fits segments rules) :
    rules.flattened.length ≤ segments.length := by
  have numbers : List.range rules.flattened.length ⊆
      (placed segments).map fun capture => capture.target.index rules := by
    intro index member
    obtain ⟨capture, standing, number⟩ := fits.used index (List.mem_range.mp member)
    exact List.mem_map.mpr ⟨capture, standing, number⟩
  have bound := (List.nodup_range.subperm numbers).length_le
  rw [List.length_range, List.length_map] at bound
  exact bound.trans length_placed_le

theorem lt_of_capture_mem_determined (fits : Fits segments rules) {template : String}
    {slot : Option Nat} {rule : Nat}
    (member : .capture slot rule ∈ (determined segments rules template).segments) :
    (∀ number, slot = some number → number < segments.length) ∧ rule < segments.length := by
  obtain ⟨capture, standing, rfl, rfl⟩ := capture_mem_determined_iff.mp member
  constructor
  · intro number taken
    have below := (fits.slots_initial number).mp (List.mem_filterMap.mpr ⟨capture, standing, taken⟩)
    exact Nat.lt_of_lt_of_le below length_slots_le
  · exact Nat.lt_of_lt_of_le (index_lt_length_flattened (fits.references capture standing))
      (length_flattened_le fits)

/-! ## The canonical template is read back -/

theorem length_toDigits_le_limit {number : Nat} (small : number < 10 ^ Number.digitLimit) :
    (Nat.toDigits 10 number).length ≤ Number.digitLimit :=
  Nat.toDigits_length 10 number Number.digitLimit (by decide) small

theorem writable_spelled {parts : List PlanSegment}
    (small : ∀ slot rule, .capture slot rule ∈ parts →
      (∀ number, slot = some number → number < 10 ^ Number.digitLimit) ∧
        rule < 10 ^ Number.digitLimit) :
    Template.Writable (parts.map PlanSegment.spelled) := by
  intro value offset member
  obtain ⟨part, standing, same⟩ := List.mem_map.mp member
  cases part with
  | literal text => cases same
  | capture slot rule =>
      cases same
      obtain ⟨slotSmall, ruleSmall⟩ := small slot rule standing
      constructor
      · intro index number
        match slot with
        | none => cases number
        | some slot =>
            cases number
            exact length_toDigits_le_limit (slotSmall index rfl)
      · intro index number
        cases number
        exact length_toDigits_le_limit ruleSmall
      · intro name named
        cases named

/-- Binding leaves literals where they are. -/
theorem merged_spelled (merged : Template.Merged segments) (template : String) :
    Template.Merged
      ((determined segments rules template).segments.map PlanSegment.spelled) := by
  have literals : ∀ entry text, (planned rules segments entry).spelled = .literal text →
      entry.1 = .literal text := by
    rintro ⟨segment, place⟩ text same
    cases segment with
    | literal other =>
        cases same
        rfl
    | capture value offset => cases same
  have captures : ∀ entry : Segment × Nat, entry.1.capture?.isSome →
      (planned rules segments entry).spelled.capture?.isSome := by
    rintro ⟨segment, place⟩ isCapture
    cases segment with
    | literal text => cases isCapture
    | capture value offset => rfl
  constructor
  · intro text member
    obtain ⟨part, standing, same⟩ := List.mem_map.mp member
    obtain ⟨⟨segment, place⟩, entry, rfl⟩ := List.mem_map.mp standing
    obtain rfl := literals (segment, place) text same
    exact merged.solid text (List.fst_mem_of_mem_zipIdx entry)
  · have apart : (segments.zipIdx.map Prod.fst).IsChain
        fun first second => first.capture?.isSome ∨ second.capture?.isSome := by
      rw [List.zipIdx_map_fst]
      exact merged.apart
    rw [List.isChain_map] at apart
    rw [determined, List.map_map, List.isChain_map]
    exact apart.imp fun first second => Or.imp (captures first) (captures second)

end Binding

namespace Plan

/-- The canonical template of a plan is read back, and its segments spell the plan out. -/
theorem exists_parse_canonicalTemplate {segments : List Segment} {rules : RuleList}
    (fits : Binding.Fits segments rules) (merged : Template.Merged segments)
    (few : segments.length ≤ 10 ^ Number.digitLimit) (template : String) :
    ∃ again, Template.parse (Binding.determined segments rules template).canonicalTemplate =
        .ok again ∧
      Spells again (Binding.determined segments rules template).segments := by
  have writable : Template.Writable
      ((Binding.determined segments rules template).segments.map PlanSegment.spelled) := by
    apply Binding.writable_spelled
    intro slot rule member
    obtain ⟨slotBelow, ruleBelow⟩ := Binding.lt_of_capture_mem_determined fits member
    exact ⟨fun number taken => (slotBelow number taken).trans_le few, ruleBelow.trans_le few⟩
  obtain ⟨again, read, same⟩ := Template.exists_parse_format writable
  refine ⟨again, by rw [canonicalTemplate_eq_format, read], ?_⟩
  rw [Template.merge_of_merged (Binding.merged_spelled merged template), List.map_map] at same
  rw [Spells, same]
  refine List.map_congr_left fun part _ => ?_
  cases part <;> rfl

/-- Segments that spell a plan out fit the rules of the plan, all of them positional. -/
theorem bind_of_spells {segments again : List Segment} {rules : RuleList} {template : String}
    (fits : Binding.Fits segments rules)
    (spells : Spells again (Binding.determined segments rules template).segments)
    (label : String) :
    Plan.bind again ⟨rules.flattened, []⟩ label =
      .ok { Binding.determined segments rules template with template := label } := by
  have flat : (⟨rules.flattened, []⟩ : RuleList).flattened = rules.flattened :=
    List.append_nil _
  have same : (Binding.determined again ⟨rules.flattened, []⟩ label).segments =
      (Binding.determined segments rules template).segments :=
    Binding.map_planned_of_spells spells 0
  have references : ∀ capture ∈ Binding.placed again,
      capture.target.Exists ⟨rules.flattened, []⟩ := by
    intro capture member
    obtain ⟨index, target⟩ := Binding.position_of_spells spells member
    have listed : .capture capture.slot index ∈
        (Binding.determined segments rules template).segments := by
      rw [← same]
      exact Binding.capture_mem_determined_iff.mpr ⟨capture, member, rfl, by rw [target]; rfl⟩
    rw [target]
    exact (Binding.realizes_determined fits template).rule_lt capture.slot index listed
  have againFits : Binding.Fits again ⟨rules.flattened, []⟩ :=
    Binding.fits_of_same_plan fits same flat references List.nodup_nil
  have arity := congrArg List.length (Binding.slots_eq_of_same_plan same)
  rw [Binding.bind_of_fits againFits label]
  simp only [Binding.determined] at same ⊢
  rw [same, flat, arity]

/-- The canonical template of a plan is a faithful rewriting: it is read back, and binding it to
the rules of the plan, all of them positional, gives the same plan, so that its canonical template
is the same text. Slots and rules are numbered below the number of characters, so a template of any
length that a memory can hold has numbers short enough to be read. -/
theorem bind_canonicalTemplate {template : String} {segments : List Segment} {rules : RuleList}
    {plan : Plan} (read : Template.parse template = .ok segments)
    (bound : Plan.bind segments rules template = .ok plan)
    (possible : template.length ≤ 10 ^ Number.digitLimit) :
    ∃ again, Template.parse plan.canonicalTemplate = .ok again ∧
      ∀ label, ∃ same, Plan.bind again ⟨plan.rules, []⟩ label = .ok same ∧
        same.segments = plan.segments ∧ same.rules = plan.rules ∧ same.arity = plan.arity ∧
        same.canonicalTemplate = plan.canonicalTemplate := by
  obtain ⟨fits, rfl⟩ := fits_of_bind bound
  have merged := (Template.writable_and_merged_of_parse read).2
  have few := (Template.length_le_of_parse read).trans possible
  obtain ⟨again, readAgain, spells⟩ := exists_parse_canonicalTemplate fits merged few template
  exact ⟨again, readAgain, fun label =>
    ⟨_, bind_of_spells fits spells label, rfl, rfl, rfl, rfl⟩⟩

/-- A name and an order are spelled out around a literal that ends in front of a capture. -/
theorem bind_canonicalTemplate_of_name_and_order :
    Template.parse "\x7b1:word\x7d:\x7b\x7b\x7b\x7d" =
        .ok [.capture ⟨.number 1, .named "word"⟩ 0, .literal ":\x7b", .capture ⟨.next, .next⟩ 11] ∧
      ∃ again, Template.parse "\x7b1:1\x7d:\x7b\x7b\x7b0:0\x7d" = .ok again ∧
        ∀ label, ∃ same,
          Plan.bind again ⟨[.default .character, .default .string], []⟩ label = .ok same ∧
            same.segments = [.capture (some 1) 1, .literal ":\x7b", .capture (some 0) 0] ∧
            same.rules = [.default .character, .default .string] ∧ same.arity = 2 ∧
            same.canonicalTemplate = "\x7b1:1\x7d:\x7b\x7b\x7b0:0\x7d" := by
  have read : Template.parse "\x7b1:word\x7d:\x7b\x7b\x7b\x7d" =
      .ok [.capture ⟨.number 1, .named "word"⟩ 0, .literal ":\x7b",
        .capture ⟨.next, .next⟩ 11] := by
    decide +kernel
  have bound : Plan.bind
      [.capture ⟨.number 1, .named "word"⟩ 0, .literal ":\x7b", .capture ⟨.next, .next⟩ 11]
      ⟨[.default .character], [("word", .default .string)]⟩
      "\x7b1:word\x7d:\x7b\x7b\x7b\x7d" =
        .ok ⟨[.capture (some 1) 1, .literal ":\x7b", .capture (some 0) 0],
          [.default .character, .default .string], 2, "\x7b1:word\x7d:\x7b\x7b\x7b\x7d"⟩ :=
    by cbv
  have possible : "\x7b1:word\x7d:\x7b\x7b\x7b\x7d".length ≤ 10 ^ Number.digitLimit :=
    (by decide : _ ≤ Number.digitLimit).trans (Nat.lt_pow_self (by decide)).le
  exact ⟨read, bind_canonicalTemplate read bound possible⟩

end Plan

end Unformat
