import Unformat.Proofs.Rule.Spelling
import Unformat.Rule.Spec

/-!
# Where the types of rules come from

Whatever a rule list is read or made from, its types are types of the registry, or they are among
the values that it is made from.  So what holds of all of these holds of the types of the rules.
-/

namespace Unformat

open Template (exists_of_bind_eq_ok)
open Text (CharacterTable)

/-- The type of the rule, if it has one, has the property. -/
def Rule.EachType (holds : ScanType → Prop) (rule : Rule) : Prop :=
  ∀ type, rule.type? = some type → holds type

/-- All types of the rules have the property. -/
def RuleList.EachType (holds : ScanType → Prop) (rules : RuleList) : Prop :=
  ∀ rule ∈ rules.flattened, rule.EachType holds

/-- The type that a value is or has. -/
def Spec.type? : Spec → Option ScanType
  | .type value => some value
  | .rule value => value.type?
  | .argument value => value.rule.type?
  | _ => Option.none

/-- The types that a value brings, itself or as an item of a tuple, have the property. -/
def Spec.EachType (holds : ScanType → Prop) : Spec → Prop
  | .tuple items => ∀ item ∈ items, ∀ type, item.type? = some type → holds type
  | spec => ∀ type, spec.type? = some type → holds type

variable {holds : ScanType → Prop} {registry : Registry}

/-! ## Registries -/

namespace Registry

theorem EachType.find? (each : registry.EachType holds) {designator : Designator} {type : ScanType}
    (found : registry.find? designator = some type) : holds type :=
  each _ (mem_entries_of_find? found)

theorem EachType.insert (each : registry.EachType holds) (designator : Designator)
    {type : ScanType} (has : holds type) : (registry.insert designator type).EachType holds := by
  unfold Registry.insert
  split
  · refine List.forall_mem_map.mpr fun entry member => ?_
    split
    · exact has
    · exact each entry member
  · exact List.forall_mem_append.mpr ⟨each, List.forall_mem_singleton.mpr has⟩

theorem EachType.register (each : registry.EachType holds) {type : ScanType} (has : holds type)
    {aliases : List Designator} {replace : Bool} {grown : Registry}
    (registered : registry.register type aliases replace = .ok grown) : grown.EachType holds := by
  have all (designators : List Designator) {registry : Registry} (each : registry.EachType holds) :
      (registry.insertAll designators type).EachType holds := by
    induction designators generalizing registry with
    | nil => exact each
    | cons designator rest ih => exact ih (each.insert designator has)
  simp only [Registry.register] at registered
  split at registered
  · cases registered
    exact all _ each
  · cases registered

/-- A value designates a type of the registry, unless it is a type itself. -/
theorem EachType.resolve (each : registry.EachType holds) {spec : Spec}
    (has : ∀ type, spec.type? = some type → holds type) {type : ScanType}
    (made : registry.resolve spec = .ok type) : holds type := by
  unfold Registry.resolve at made
  split at made
  · next value =>
      cases made
      exact has _ rfl
  · split at made
    · next found =>
        cases made
        exact each.find? found
    · cases made
  · split at made
    · next found =>
        cases made
        exact each.find? found
    · cases made
  · cases made

end Registry

/-! ## Rules from values -/

/-- What is made of items comes from one of them. -/
theorem exists_of_mem_mapM {ε α β : Type} {read : α → Except ε β} {items : List α}
    {values : List β} (made : items.mapM read = .ok values) {value : β} (member : value ∈ values) :
    ∃ item ∈ items, read item = .ok value := by
  induction items generalizing values with
  | nil =>
      cases made
      cases member
  | cons first items ih =>
      rw [List.mapM_cons] at made
      obtain ⟨one, oneMade, made⟩ := exists_of_bind_eq_ok made
      obtain ⟨others, othersMade, made⟩ := exists_of_bind_eq_ok made
      cases made
      rcases List.mem_cons.mp member with rfl | behind
      · exact ⟨first, List.mem_cons_self, oneMade⟩
      · obtain ⟨item, itemMember, itemMade⟩ := ih othersMade behind
        exact ⟨item, List.mem_cons_of_mem _ itemMember, itemMade⟩

theorem Rule.eachType_of_map {made : Except ArgumentFault ScanType} {make : ScanType → Rule}
    (has : ∀ type, (make type).type? = some type) (each : ∀ type, made = .ok type → holds type)
    {rule : Rule} (done : made.map make = .ok rule) : rule.EachType holds := by
  cases made with
  | error fault => cases done
  | ok type =>
      cases done
      intro other same
      rw [has type] at same
      cases same
      exact each _ rfl

theorem Rule.eachType_null (pattern : String) : (Rule.null pattern).EachType holds := by
  rintro _ ⟨⟩

theorem Rule.eachType_of_ofPair (known : registry.EachType holds) {pattern type : Spec}
    (each : ∀ value, type.type? = some value → holds value) {rule : Rule}
    (made : ofPair registry pattern type = .ok rule) : rule.EachType holds := by
  unfold ofPair at made
  split at made
  · split at made
    · cases made
      exact eachType_null _
    · exact eachType_of_map (fun _ => rfl) (fun _ => known.resolve each) made
  · cases made

theorem Rule.eachType_of_ofPattern {pattern : Spec} {rule : Rule}
    (made : ofPattern pattern = .ok rule) : rule.EachType holds := by
  unfold ofPattern at made
  split at made
  · cases made
    exact eachType_null _
  · cases made

theorem Rule.eachType_of_ofSpec (known : registry.EachType holds) {spec : Spec}
    (each : spec.EachType holds) {rule : Rule} (made : ofSpec registry spec = .ok rule) :
    rule.EachType holds := by
  unfold ofSpec at made
  split at made
  · cases made
    exact each
  · exact eachType_of_ofPair known (each _ (by simp)) made
  · exact eachType_of_ofPattern made
  · cases made
  · next notTuple =>
      have own : ∀ type, spec.type? = some type → holds type := by
        unfold Spec.EachType at each
        split at each
        · exact absurd rfl (notTuple _)
        · exact each
      exact eachType_of_map (fun _ => rfl) (fun _ => known.resolve own) made

theorem Argument.eachType_of_map (known : registry.EachType holds) {spec : Spec}
    (each : spec.EachType holds) {name : Option String} {argument : Argument}
    (made : (Rule.ofSpec registry spec).map (⟨name, ·⟩) = .ok argument) :
    argument.rule.EachType holds := by
  cases ruleMade : Rule.ofSpec registry spec with
  | error fault =>
      rw [ruleMade] at made
      cases made
  | ok rule =>
      rw [ruleMade] at made
      cases made
      exact Rule.eachType_of_ofSpec known each ruleMade

theorem Argument.eachType_of_ofSpec (known : registry.EachType holds) {spec : Spec}
    (each : spec.EachType holds) {argument : Argument}
    (made : ofSpec registry spec = .ok argument) : argument.rule.EachType holds := by
  unfold ofSpec at made
  split at made
  · cases made
    exact each
  · exact eachType_of_map known each made

namespace RuleList

theorem flattened_eq (rules : RuleList) :
    rules.flattened = rules.arguments.map Argument.rule := by
  simp [flattened, arguments, Function.comp_def]

theorem eachType_of_ofArguments {arguments : List Argument} {rules : RuleList}
    (each : ∀ argument ∈ arguments, argument.rule.EachType holds)
    (made : ofArguments arguments = .ok rules) : rules.EachType holds := by
  rw [EachType, flattened_eq, arguments_of_ofArguments made]
  exact List.forall_mem_map.mpr each

/-- Rules that are read from a text have types of the registry. -/
theorem eachType_of_parse [CharacterTable] (known : registry.EachType holds) {text : String}
    {rules : RuleList} (read : parse registry text = .ok rules) : rules.EachType holds := by
  rw [EachType, flattened_eq]
  refine List.forall_mem_map.mpr fun argument member type has => ?_
  obtain ⟨_, _, _, found⟩ := (stated_of_parse read argument member).rule type has
  exact known.find? found

/-- Rules that are made of values have types of the registry, or types among the values. -/
theorem eachType_of_ofSpecs (known : registry.EachType holds) {specs : List Spec}
    {named : List (String × Spec)} (each : ∀ spec ∈ specs, spec.EachType holds)
    (eachNamed : ∀ entry ∈ named, entry.2.EachType holds) {rules : RuleList}
    (made : ofSpecs registry specs named = .ok rules) : rules.EachType holds := by
  obtain ⟨front, frontMade, made⟩ := exists_of_bind_eq_ok made
  obtain ⟨back, backMade, made⟩ := exists_of_bind_eq_ok made
  refine eachType_of_ofArguments (List.forall_mem_append.mpr ⟨?_, ?_⟩) made
  · intro argument member
    obtain ⟨spec, specMember, read⟩ := exists_of_mem_mapM frontMade member
    exact Argument.eachType_of_ofSpec known (each spec specMember) read
  · intro argument member
    obtain ⟨⟨name, spec⟩, specMember, read⟩ := exists_of_mem_mapM backMade member
    exact Argument.eachType_of_map known (eachNamed _ specMember) read

end RuleList

end Unformat
