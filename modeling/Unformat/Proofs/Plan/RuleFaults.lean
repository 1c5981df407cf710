import Unformat.Proofs.Plan.Reporting

/-!
# Unused rules and untyped captures

A capture leads to the positional rule of its number, or to the first rule of its name. A number
that is too great for the positional rules leads nowhere; but binding counts it through all rules,
where it may be the number of a named one. What is reported about rules is therefore exact unless
such a number hides that a rule is unused, or makes a capture untyped that leads to no rule.
-/

namespace Unformat.Binding

variable {segments : List Segment} {rules : RuleList}

/-! ## Where a capture leads -/

namespace Target

/-- The target is the positional rule `index`, or the name of which the rule `index` is the
first. -/
def LeadsTo (rules : RuleList) (target : Target) (index : Nat) : Prop :=
  target.Exists rules ∧ target.index rules = index

/-- The target is a number that no positional rule has; counted through all rules it is `index`. -/
def StraysTo (rules : RuleList) (target : Target) (index : Nat) : Prop :=
  target = .positional index ∧ rules.positional.length ≤ index

/-- Binding takes the target for the rule `index`. -/
def Reaches (rules : RuleList) (target : Target) (index : Nat) : Prop :=
  target.LeadsTo rules index ∨ target.StraysTo rules index

theorem reaches_iff {target : Target} {index : Nat} :
    target.Reaches rules index ↔ target.Known rules ∧ target.index rules = index := by
  cases target with
  | positional number =>
      constructor
      · rintro (⟨_, same⟩ | ⟨same, _⟩)
        · exact ⟨by simp [Known], same⟩
        · exact ⟨by simp [Known], Target.positional.inj same⟩
      · rintro ⟨_, same⟩
        rcases Nat.lt_or_ge number rules.positional.length with below | above
        · exact Or.inl ⟨below, same⟩
        · exact Or.inr ⟨congrArg _ same, same ▸ above⟩
  | named name =>
      constructor
      · rintro (⟨declared, same⟩ | ⟨other, _⟩)
        · exact ⟨fun _ equality => Option.some.inj equality ▸ declared, same⟩
        · cases other
      · rintro ⟨known, same⟩
        exact Or.inl ⟨known name rfl, same⟩

theorem not_straysTo_of_leadsTo {target : Target} {index : Nat}
    (leads : target.LeadsTo rules index) : ¬ target.StraysTo rules index := by
  rintro ⟨rfl, above⟩
  have below : index < rules.positional.length := leads.1
  omega

end Target

theorem eq_of_place_eq {first second : Placed} (firstMember : first ∈ placed segments)
    (secondMember : second ∈ placed segments) (same : first.place = second.place) :
    first = second :=
  List.inj_on_of_nodup_map (nodup_places segments) firstMember secondMember same

/-! ## What should be reported -/

/-- No capture leads to a rule, for a given meaning of "leads". -/
def Unused (leads : Target → Nat → Prop) (segments : List Segment) (rules : RuleList)
    (index : Nat) : Prop :=
  index < rules.flattened.length ∧ ∀ capture ∈ placed segments, ¬ leads capture.target index

/-- The capture at a place has a slot and leads to a rule without a type. -/
def Untyped (leads : Target → Nat → Prop) (segments : List Segment) (rules : RuleList)
    (place index : Nat) : Prop :=
  ∃ capture ∈ placed segments, capture.place = place ∧ capture.slot.isSome ∧
    leads capture.target index ∧ ∃ pattern, rules.flattened[index]? = some (.null pattern)

/-- Each unused rule and each untyped capture is among the faults once, and nothing else of their
kinds is. -/
structure Judged (leads : Target → Nat → Prop) (segments : List Segment) (rules : RuleList)
    (faults : List BindingFault) : Prop where
  unused : ∀ index, OnceWhen faults (.unusedRule index) (Unused leads segments rules index)
  untyped : ∀ place index, OnceWhen faults (.untypedCapture place index)
    (Untyped leads segments rules place index)

/-- A number strays to a rule that no capture leads to, or from a capture with a slot to a rule
without a type. -/
def Misled (segments : List Segment) (rules : RuleList) : Prop :=
  ∃ capture ∈ placed segments, ∃ index, capture.target.StraysTo rules index ∧
    (Unused (Target.LeadsTo rules) segments rules index ∨
      capture.slot.isSome ∧ ∃ pattern, rules.flattened[index]? = some (.null pattern))

/-! ## What the two checks find -/

theorem nodup_unusedRules (captures : List BoundCapture) (flattened : List Rule) :
    (unusedRules captures flattened).Nodup := by
  apply List.Nodup.map
  · intro first second same
    exact BindingFault.unusedRule.inj same
  · exact List.nodup_range.filter _

theorem unusedRule_mem_iff {index : Nat} :
    .unusedRule index ∈ unusedRules ((kept rules segments).map (Placed.bound rules))
        rules.flattened ↔ Unused (Target.Reaches rules) segments rules index := by
  simp only [unusedRules, List.mem_map, List.mem_filter, List.mem_range, Bool.not_eq_true',
    BindingFault.unusedRule.injEq, exists_eq_right, List.any_eq_false, List.any_map,
    Function.comp_apply, decide_eq_true_iff]
  refine and_congr_right fun _ => ?_
  constructor
  · intro unreached capture member reaches
    obtain ⟨known, same⟩ := Target.reaches_iff.mp reaches
    exact unreached capture (mem_kept_iff.mpr ⟨member, known⟩) same
  · intro unreached capture member same
    obtain ⟨listed, known⟩ := mem_kept_iff.mp member
    exact unreached capture listed (Target.reaches_iff.mpr ⟨known, same⟩)

theorem nodup_untypedCaptures (segments : List Segment) (rules : RuleList) :
    (untypedCaptures ((kept rules segments).map (Placed.bound rules)) rules.flattened).Nodup := by
  rw [untypedCaptures, List.filterMap_map, List.Nodup, List.pairwise_filterMap]
  apply (increasing_places_kept segments rules).imp
  intro first second before fault found otherFault otherFound same
  have firstFault := (Option.ite_none_right_eq_some.mp found).2
  have secondFault := (Option.ite_none_right_eq_some.mp otherFound).2
  rw [same, ← secondFault] at firstFault
  have samePlace := (BindingFault.untypedCapture.inj (Option.some.inj firstFault)).1
  exact Nat.ne_of_lt before samePlace

theorem isNull_iff {rule? : Option Rule} :
    rule?.any Rule.isNull = true ↔ ∃ pattern, rule? = some (.null pattern) := by
  rcases rule? with _ | (_ | _ | _) <;> simp [Rule.isNull]

theorem untypedCapture_mem_iff {place index : Nat} :
    .untypedCapture place index ∈ untypedCaptures
        ((kept rules segments).map (Placed.bound rules)) rules.flattened ↔
      Untyped (Target.Reaches rules) segments rules place index := by
  rw [untypedCaptures, List.filterMap_map, List.mem_filterMap]
  constructor
  · rintro ⟨capture, member, found⟩
    obtain ⟨⟨filled, untyped⟩, same⟩ := Option.ite_none_right_eq_some.mp found
    obtain ⟨samePlace, sameIndex⟩ := BindingFault.untypedCapture.inj (Option.some.inj same)
    obtain ⟨listed, known⟩ := mem_kept_iff.mp member
    exact ⟨capture, listed, samePlace, filled, Target.reaches_iff.mpr ⟨known, sameIndex⟩,
      isNull_iff.mp (sameIndex ▸ untyped)⟩
  · rintro ⟨capture, member, rfl, filled, reaches, untyped⟩
    obtain ⟨known, rfl⟩ := Target.reaches_iff.mp reaches
    exact ⟨capture, mem_kept_iff.mpr ⟨member, known⟩,
      Option.ite_none_right_eq_some.mpr ⟨⟨filled, isNull_iff.mpr untyped⟩, rfl⟩⟩

theorem judged_reaches (segments : List Segment) (rules : RuleList) (template : String) :
    Judged (Target.Reaches rules) segments rules
      (reported (Plan.bind segments rules template)) where
  unused _ := onceWhen_reported (nodup_unusedRules _ _) unusedRule_mem_iff
  untyped _ _ := onceWhen_reported (nodup_untypedCaptures segments rules) untypedCapture_mem_iff

/-! ## When numbers stray -/

theorem unused_iff_of_not_misled (straight : ¬ Misled segments rules) (index : Nat) :
    Unused (Target.Reaches rules) segments rules index ↔
      Unused (Target.LeadsTo rules) segments rules index := by
  constructor
  · rintro ⟨below, unreached⟩
    exact ⟨below, fun capture member leads => unreached capture member (Or.inl leads)⟩
  · intro unused
    refine ⟨unused.1, fun capture member reaches => ?_⟩
    rcases reaches with leads | strays
    · exact unused.2 capture member leads
    · exact straight ⟨capture, member, index, strays, Or.inl unused⟩

theorem untyped_iff_of_not_misled (straight : ¬ Misled segments rules) (place index : Nat) :
    Untyped (Target.Reaches rules) segments rules place index ↔
      Untyped (Target.LeadsTo rules) segments rules place index := by
  constructor
  · rintro ⟨capture, member, samePlace, filled, leads | strays, untyped⟩
    · exact ⟨capture, member, samePlace, filled, leads, untyped⟩
    · exact (straight ⟨capture, member, index, strays, Or.inr ⟨filled, untyped⟩⟩).elim
  · rintro ⟨capture, member, samePlace, filled, leads, untyped⟩
    exact ⟨capture, member, samePlace, filled, Or.inl leads, untyped⟩

/-- A misled binding leaves an unused rule out, or reports a capture that leads to no rule. -/
theorem not_judged_of_misled {faults : List BindingFault}
    (actual : Judged (Target.Reaches rules) segments rules faults)
    (misled : Misled segments rules) : ¬ Judged (Target.LeadsTo rules) segments rules faults := by
  intro judged
  obtain ⟨capture, member, index, strays, unused | ⟨filled, untyped⟩⟩ := misled
  · have reportedUnused := (judged.unused index).mem_iff.mpr unused
    have unreached := (actual.unused index).mem_iff.mp reportedUnused
    exact unreached.2 capture member (Or.inr strays)
  · have reportedUntyped := (actual.untyped capture.place index).mem_iff.mpr
      ⟨capture, member, rfl, filled, Or.inr strays, untyped⟩
    obtain ⟨other, otherMember, samePlace, _, leads, _⟩ :=
      (judged.untyped capture.place index).mem_iff.mp reportedUntyped
    obtain rfl := eq_of_place_eq otherMember member samePlace
    exact Target.not_straysTo_of_leadsTo leads strays

/-- Unused rules and untyped captures are reported once each by what binding takes the captures
for, and this is what they lead to unless a number misleads it. -/
theorem rules_judged_unless_misled (segments : List Segment) (rules : RuleList)
    (template : String) :
    Judged (Target.Reaches rules) segments rules
        (reported (Plan.bind segments rules template)) ∧
      (Judged (Target.LeadsTo rules) segments rules
        (reported (Plan.bind segments rules template)) ↔ ¬ Misled segments rules) := by
  have actual := judged_reaches segments rules template
  refine ⟨actual, ?_, ?_⟩
  · intro judged misled
    exact not_judged_of_misled actual misled judged
  · intro straight
    constructor
    · intro index
      exact (actual.unused index).congr (unused_iff_of_not_misled straight index)
    · intro place index
      exact (actual.untyped place index).congr (untyped_iff_of_not_misled straight place index)

/-- A capture asks for the first positional rule where there is none: the only rule, which has a
name and no type, is not reported as unused, and the capture is reported as leading to it. -/
theorem misled_by_number_of_named_rule :
    let segments : List Segment := [.capture ⟨.next, .next⟩ 0]
    let rules : RuleList := { named := [("a", .null "x")] }
    reported (Plan.bind segments rules) = [.invalidPositional [0] 0, .untypedCapture 0 0] ∧
      Unused (Target.LeadsTo rules) segments rules 0 ∧
      ¬ Judged (Target.LeadsTo rules) segments rules (reported (Plan.bind segments rules)) := by
  intro segments rules
  have listed : placed segments = [⟨0, some 0, .positional 0⟩] := by decide
  have found : reported (Plan.bind segments rules) =
      [.invalidPositional [0] 0, .untypedCapture 0 0] := by
    decide +kernel
  have unused : Unused (Target.LeadsTo rules) segments rules 0 := by
    refine ⟨by decide, ?_⟩
    intro capture member
    rw [listed] at member
    obtain rfl := List.mem_singleton.mp member
    rintro ⟨below, _⟩
    exact Nat.not_lt_zero 0 below
  refine ⟨found, unused, fun judged => ?_⟩
  have member := (judged.unused 0).mem_iff.mpr unused
  rw [found] at member
  exact absurd member (by decide)

end Unformat.Binding
