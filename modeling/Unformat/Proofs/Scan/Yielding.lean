import Unformat.Proofs.Scan.Accounting
import Unformat.Proofs.Scan.Converting

/-!
# What a run yields

Over any reader, line readers around it included and whatever the reads bring, a run that succeeds
yields one value for each slot of its plan, and every value is what the type of a capture makes of a
text that the matcher of its rule takes.
-/

namespace Unformat.Scan

/-- What a segment yields when it succeeds. -/
inductive Gives (compiled : CompiledPlan) : PlanSegment → List (Nat × Value) → Prop
  | literal (text : String) : Gives compiled (.literal text) []
  | unfilled {slot : Option Nat} {index : Nat}
      (cause : slot = none ∨ ∀ rule, compiled.plan.rules[index]? = some rule → rule.type? = none) :
      Gives compiled (.capture slot index) []
  | value {slot index : Nat} {rule : Rule} {type : ScanType} {taken : List Char} {value : Value}
      (found : compiled.plan.rules[index]? = some rule) (typed : rule.type? = some type)
      (takenBy : TakenBy (compiled.matcher index) taken)
      (converts : type.conversion.apply taken = .ok value) :
      Gives compiled (.capture (some slot) index) [(slot, value)]

/-- What segments yield one after the other. -/
inductive GivesAll (compiled : CompiledPlan) : List PlanSegment → List (Nat × Value) → Prop
  | nil : GivesAll compiled [] []
  | cons {segment : PlanSegment} {rest : List PlanSegment} {first others : List (Nat × Value)}
      (here : Gives compiled segment first) (later : GivesAll compiled rest others) :
      GivesAll compiled (segment :: rest) (first ++ others)

variable {compiled : CompiledPlan}

/-! ## Whatever the reader -/

/-- Whenever the step succeeds, it yields something good. -/
abbrev Promises {α : Type} (good : α → Prop) (step : Scanning α) : Prop :=
  Confined (fun _ _ _ => True) good step

theorem promises_convert (rule : Rule) (taken : List Char) :
    Promises (fun value? => match value? with
      | none => rule.type? = none
      | some value => ∃ type, rule.type? = some type ∧ type.conversion.apply taken = .ok value)
      (convert rule taken) := by
  unfold convert
  split
  · exact confined_pure ‹_›
  · next type typed =>
      split
      · next value converts => exact confined_pure ⟨type, typed, converts⟩
      · exact confined_stop fun _ _ _ _ => trivial

theorem promises_runSegment (segment : PlanSegment) :
    Promises (Gives compiled segment) (runSegment compiled segment) := by
  cases segment with
  | literal literal =>
      apply (confined_matchRemaining literal literal.toList).bind
      intro _ _
      exact confined_pure (.literal literal)
  | capture slot index =>
      rw [runSegment]
      split
      · next missing =>
          refine confined_pure (.unfilled (.inr fun rule found => ?_))
          rw [missing] at found
          cases found
      · next rule found =>
          apply (confined_matchPattern _ _).bind
          intro taken takenBy
          apply (promises_convert rule taken).bind
          intro value? converted
          cases slot with
          | none => exact confined_pure (.unfilled (.inl rfl))
          | some slot =>
              cases value? with
              | none =>
                  refine confined_pure (.unfilled (.inr fun other otherFound => ?_))
                  obtain rfl : rule = other := Option.some.inj (found.symm.trans otherFound)
                  exact converted
              | some value =>
                  obtain ⟨type, typed, converts⟩ := converted
                  exact confined_pure (.value found typed takenBy converts)

theorem promises_runSegments (segments : List PlanSegment) :
    Promises (GivesAll compiled segments) (runSegments compiled segments) := by
  induction segments with
  | nil => exact confined_pure .nil
  | cons segment rest ih =>
      apply (promises_runSegment segment).bind
      intro first here
      apply ih.bind
      intro others later
      exact confined_pure (.cons here later)

/-! ## Values -/

theorem Gives.slots_eq {segment : PlanSegment} {outputs : List (Nat × Value)}
    (gives : Gives compiled segment outputs) (typed : Typed compiled [segment]) :
    outputs.map Prod.fst = segment.slot?.toList := by
  cases gives with
  | literal => rfl
  | value => rfl
  | @unfilled slot index cause =>
      cases slot with
      | none => rfl
      | some slot =>
          obtain ⟨rule, type, found, given⟩ := typed slot index List.mem_cons_self
          rcases cause with none | untyped
          · cases none
          · rw [untyped rule found] at given
            cases given

theorem GivesAll.slots_eq {segments : List PlanSegment} {outputs : List (Nat × Value)}
    (gives : GivesAll compiled segments outputs) (typed : Typed compiled segments) :
    outputs.map Prod.fst = segments.filterMap PlanSegment.slot? := by
  induction gives with
  | nil => rfl
  | @cons segment rest first others here later ih =>
      have typedHere : Typed compiled [segment] := by
        intro slot index member
        exact typed slot index (by simpa using .inl (List.mem_singleton.mp member))
      have typedLater : Typed compiled rest := by
        intro slot index member
        exact typed slot index (List.mem_cons_of_mem _ member)
      rw [List.map_append, here.slots_eq typedHere, ih typedLater, List.filterMap_cons]
      cases segment.slot? <;> rfl

/-- A value that a capture of the plan has taken a text for. -/
def Scanned (compiled : CompiledPlan) (value : Value) : Prop :=
  ∃ slot index rule type taken, .capture (some slot) index ∈ compiled.plan.segments ∧
    compiled.plan.rules[index]? = some rule ∧ rule.type? = some type ∧
      TakenBy (compiled.matcher index) taken ∧ type.conversion.apply taken = .ok value

theorem GivesAll.exists_taken {segments : List PlanSegment} {outputs : List (Nat × Value)}
    (gives : GivesAll compiled segments outputs) (part : segments ⊆ compiled.plan.segments)
    {output : Nat × Value} (member : output ∈ outputs) : Scanned compiled output.2 := by
  induction gives with
  | nil => cases member
  | @cons segment rest first others here later ih =>
      rcases List.mem_append.mp member with inFirst | inOthers
      · cases here with
        | literal | unfilled => cases inFirst
        | @value slot index rule type taken value found typed takenBy converts =>
            obtain rfl := List.mem_singleton.mp inFirst
            exact ⟨slot, index, rule, type, taken, part List.mem_cons_self, found, typed, takenBy,
              converts⟩
      · exact ih (fun _ inside => part (List.mem_cons_of_mem _ inside)) inOthers

/-- Over any reader, a run of a bound plan yields as many values as the plan has slots, and a
capture has taken a text for each of them. -/
theorem scanned_of_execute {segments : List Segment} {rules : RuleList} {template : String}
    (bound : Plan.bind segments rules template = .ok compiled.plan) {reader after : Reader}
    {values : List Value} (done : outcome (execute (.ok compiled)) reader = (.ok values, after)) :
    values.length = compiled.plan.arity ∧ ∀ value ∈ values, Scanned compiled value := by
  have slotted := Plan.wellSlotted_of_bind bound
  have typed : Typed compiled compiled.plan.segments := fun slot index member =>
    Plan.exists_type_of_bind bound member
  have unfolded : outcome (execute (.ok compiled)) reader =
      outcome (runSegments compiled compiled.plan.segments >>= fun outputs =>
        pure (bySlot outputs)) reader := rfl
  rw [unfolded, outcome_bind] at done
  split at done
  · next outputs middle came =>
      cases done
      have gives := (promises_runSegments compiled.plan.segments).yields _ _ _ came
      have taken : outputs.map Prod.fst = compiled.plan.slots := by
        rw [gives.slots_eq typed, Plan.slots_eq]
      have count : outputs.length = compiled.plan.slots.length := by
        rw [← taken, List.length_map]
      have nodup := slotted.nodup
      have initial := slotted.initial
      rw [← taken] at nodup initial
      rw [List.length_map] at initial
      refine ⟨by rw [(bySlot_getElem? nodup initial).1, count, slotted.arity_eq], ?_⟩
      intro value member
      rw [bySlot, List.mem_map] at member
      obtain ⟨output, inside, rfl⟩ := member
      exact gives.exists_taken (List.Subset.refl _) ((List.mergeSort_perm _ _).mem_iff.mp inside)
  · cases done

end Unformat.Scan
