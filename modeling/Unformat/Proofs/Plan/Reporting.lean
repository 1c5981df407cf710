import Unformat.Proofs.Plan.Fitting

/-!
# What binding reports

Every check of binding finds faults of its own kinds, and what the checks find is reported one
after the other. A fault is therefore reported as often as the check of its kind finds it, and each
kind can be studied on its own.
-/

namespace Unformat.Binding

variable {segments : List Segment} {rules : RuleList}

/-- The faults that binding reports; a plan is returned without any. -/
def reported : Except BindingReport Plan → List BindingFault
  | .ok _ => []
  | .error report => report.problems.map Diagnostic.fault

/-- A fault is reported exactly once if a condition is met, and not at all otherwise. -/
def OnceWhen (faults : List BindingFault) (fault : BindingFault) (condition : Prop) : Prop :=
  (condition → faults.count fault = 1) ∧ (¬ condition → fault ∉ faults)

theorem OnceWhen.mem_iff {faults : List BindingFault} {fault : BindingFault} {condition : Prop}
    (once : OnceWhen faults fault condition) : fault ∈ faults ↔ condition := by
  constructor
  · intro member
    by_contra unmet
    exact once.2 unmet member
  · intro met
    exact List.count_pos_iff.mp (by rw [once.1 met]; decide)

theorem onceWhen_of_nodup {faults : List BindingFault} {fault : BindingFault} {condition : Prop}
    (nodup : faults.Nodup) (found : fault ∈ faults ↔ condition) :
    OnceWhen faults fault condition :=
  ⟨fun met => List.count_eq_one_of_mem nodup (found.mpr met), fun unmet => unmet ∘ found.mp⟩

theorem OnceWhen.congr {faults : List BindingFault} {fault : BindingFault}
    {condition other : Prop} (once : OnceWhen faults fault condition)
    (same : condition ↔ other) : OnceWhen faults fault other :=
  ⟨once.1 ∘ same.mpr, fun unmet => once.2 (unmet ∘ same.mp)⟩

theorem reported_bind (segments : List Segment) (rules : RuleList) (template : String) :
    reported (Plan.bind segments rules template) = faults segments rules := by
  rw [Plan.bind]
  cases faults segments rules with
  | nil => rfl
  | cons fault rest =>
      simp [reported, BindingReport.addAll, Diagnostic.of, Function.comp_def]

/-! ## The kinds of fault that a check finds -/

theorem code_of_mem_nameFaults {resolutions : List Resolution} :
    ∀ fault ∈ nameFaults resolutions, Fault.code fault ∈ [Code.unknownNamedReference] := by
  intro fault member
  obtain ⟨resolution, _, found⟩ := List.mem_filterMap.mp member
  cases resolution <;> cases found
  exact List.mem_singleton.mpr rfl

theorem code_of_mem_positionFaults :
    ∀ fault ∈ positionFaults rules segments,
      Fault.code fault ∈ [Code.invalidPositionalReference] := by
  intro fault member
  unfold positionFaults at member
  split at member
  · cases member
  · obtain rfl := List.mem_singleton.mp member
    exact List.mem_singleton.mpr rfl

theorem code_of_mem_slotFaults {captures : List BoundCapture} :
    ∀ fault ∈ slotFaults captures, Fault.code fault ∈ [Code.duplicateOutput, .missingOutput] := by
  intro fault member
  unfold slotFaults at member
  rcases List.mem_append.mp member with twice | missing
  · obtain ⟨entry, _, rfl⟩ := List.mem_map.mp twice
    exact List.mem_cons_self
  · split at missing
    · cases missing
    · obtain rfl := List.mem_singleton.mp missing
      exact List.mem_cons_of_mem _ List.mem_cons_self

theorem code_of_mem_duplicateNames :
    ∀ fault ∈ duplicateNames rules, Fault.code fault ∈ [Code.duplicateRuleName] := by
  intro fault member
  obtain ⟨entry, _, rfl⟩ := List.mem_map.mp member
  exact List.mem_singleton.mpr rfl

theorem code_of_mem_unusedRules {captures : List BoundCapture} {flattened : List Rule} :
    ∀ fault ∈ unusedRules captures flattened, Fault.code fault ∈ [Code.unusedRule] := by
  intro fault member
  obtain ⟨index, _, rfl⟩ := List.mem_map.mp member
  exact List.mem_singleton.mpr rfl

theorem code_of_mem_untypedCaptures {captures : List BoundCapture} {flattened : List Rule} :
    ∀ fault ∈ untypedCaptures captures flattened, Fault.code fault ∈ [Code.untypedCapture] := by
  intro fault member
  obtain ⟨capture, _, found⟩ := List.mem_filterMap.mp member
  split at found <;> cases found
  exact List.mem_singleton.mpr rfl

theorem code_of_mem_missingPatterns {flattened : List Rule} :
    ∀ fault ∈ missingPatterns flattened, Fault.code fault ∈ [Code.missingDefaultPattern] := by
  intro fault member
  obtain ⟨⟨rule, index⟩, _, found⟩ := List.mem_filterMap.mp member
  cases rule with
  | default type =>
      simp only at found
      split at found <;> cases found
      exact List.mem_singleton.mpr rfl
  | custom pattern type => cases found
  | null pattern => cases found

/-! ## Faults by their check -/

/-- What the check of a fault's kind finds. -/
def foundLike (segments : List Segment) (rules : RuleList) : BindingFault → List BindingFault :=
  let captures := (kept rules segments).map (Placed.bound rules)
  fun
  | .unknownName _ => nameFaults (resolve rules 0 {} segments)
  | .invalidPositional _ _ => positionFaults rules segments
  | .duplicateSlot _ _ _ => slotFaults captures
  | .missingSlots _ _ => slotFaults captures
  | .duplicateName _ _ _ => duplicateNames rules
  | .unusedRule _ => unusedRules captures rules.flattened
  | .untypedCapture _ _ => untypedCaptures captures rules.flattened
  | .missingPattern _ _ => missingPatterns rules.flattened

theorem count_eq_zero_of_codes {found : List BindingFault} {codes : List Code}
    (coded : ∀ fault ∈ found, Fault.code fault ∈ codes) {fault : BindingFault}
    (other : Fault.code fault ∉ codes) : found.count fault = 0 :=
  List.count_eq_zero.mpr fun member => other (coded fault member)

/-- A fault is found as often as the check of its kind finds it. -/
theorem count_faults (segments : List Segment) (rules : RuleList) (fault : BindingFault) :
    (faults segments rules).count fault = (foundLike segments rules fault).count fault := by
  simp only [faults, boundCaptures_eq, List.count_append]
  cases fault <;>
    simp [foundLike, Fault.code, count_eq_zero_of_codes code_of_mem_nameFaults,
      count_eq_zero_of_codes code_of_mem_positionFaults,
      count_eq_zero_of_codes code_of_mem_slotFaults,
      count_eq_zero_of_codes code_of_mem_duplicateNames,
      count_eq_zero_of_codes code_of_mem_unusedRules,
      count_eq_zero_of_codes code_of_mem_untypedCaptures,
      count_eq_zero_of_codes code_of_mem_missingPatterns]

theorem mem_reported_iff {template : String} {fault : BindingFault} :
    fault ∈ reported (Plan.bind segments rules template) ↔
      fault ∈ foundLike segments rules fault := by
  rw [reported_bind, ← List.count_pos_iff, count_faults, List.count_pos_iff]

/-- A fault that its check finds at most once is reported exactly when the check finds it. -/
theorem onceWhen_reported {template : String} {fault : BindingFault} {condition : Prop}
    (nodup : (foundLike segments rules fault).Nodup)
    (found : fault ∈ foundLike segments rules fault ↔ condition) :
    OnceWhen (reported (Plan.bind segments rules template)) fault condition := by
  have once := onceWhen_of_nodup nodup found
  constructor
  · intro met
    rw [reported_bind, count_faults, once.1 met]
  · intro unmet member
    exact once.2 unmet (mem_reported_iff.mp member)

end Unformat.Binding
