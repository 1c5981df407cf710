import Unformat.Proofs.Rule.Reading
import Unformat.Proofs.Rule.Refusing
import Unformat.Proofs.ScanType.Naming

/-!
# What a text can state

Whatever a text states, its names are identifiers. So the rules that are read from it have types
that can be named, and names that can be written again.
-/

namespace Unformat

open Template (IsIdentifier exists_of_bind_eq_ok)
open Text (CharacterTable)

namespace ListText

/-- The name of the type that an entry states. -/
def Body.typeName? : Body → Option String
  | .pattern _ name => name
  | .type name => some name

/-- The names that an entry states are identifiers. -/
structure Entry.Spelled (entry : Entry) : Prop where
  name : ∀ name, entry.name = some name → IsIdentifier name.toList
  type : ∀ type, entry.body.typeName? = some type → IsIdentifier type.toList

theorem Word.isIdentifier (word : Word) : IsIdentifier (String.ofList word.1).toList := by
  rw [String.toList_ofList]
  exact word.2

theorem Item.spelled_entry (item : Item) : item.entry.Spelled := by
  constructor
  · intro name states
    obtain ⟨word, _, rfl⟩ := Option.map_eq_some_iff.mp states
    exact word.isIdentifier
  · intro type states
    obtain ⟨name, body⟩ := item
    cases body with
    | type path =>
        cases states
        exact path.last.isIdentifier
    | pattern literal path =>
        obtain ⟨path, _, rfl⟩ := Option.map_eq_some_iff.mp states
        exact path.last.isIdentifier

theorem spelled_entries (text : List Char) : ∀ entry ∈ (entries text).1, entry.Spelled := by
  unfold entries
  cases found : entry? (skipBlanks text) with
  | none => simp [found]
  | some taken =>
      obtain ⟨first, rest⟩ := taken
      obtain ⟨item, _, _, _, rfl⟩ := exists_item_of_entry? found
      obtain ⟨items, _, _, _, more⟩ := exists_items_of_moreEntries rest
      simp only [found, more]
      refine List.forall_mem_cons.mpr ⟨item.spelled_entry, List.forall_mem_map.mpr ?_⟩
      exact fun other _ => other.spelled_entry

end ListText

/-! ## Rules that were read -/

/-- The type of the rule, if it has one, stands under an identifier other than the marker for
none. -/
def Rule.Found (registry : Registry) (rule : Rule) : Prop :=
  ∀ type, rule.type? = some type →
    ∃ name, IsIdentifier name.toList ∧ name ≠ "_" ∧ registry.find? (.name name) = some type

/-- An argument that a text can state: its name is an identifier, and so is one of its type. -/
structure Argument.Stated (registry : Registry) (argument : Argument) : Prop where
  name : ∀ name, argument.name = some name → IsIdentifier name.toList
  rule : argument.rule.Found registry

/-- The type of the rule, if it has one, can be named. -/
def Rule.Readable (registry : Registry) (rule : Rule) : Prop :=
  ∀ type, rule.type? = some type → registry.Names type

/-- An argument whose description can be read: its name is an identifier, and its type can be
named. -/
structure Argument.Readable (registry : Registry) (argument : Argument) : Prop where
  name : ∀ name, argument.name = some name → IsIdentifier name.toList
  rule : argument.rule.Readable registry

variable {registry : Registry}

theorem Argument.Stated.readable {argument : Argument} (stated : argument.Stated registry)
    (names : registry.NamesItsTypes) : argument.Readable registry where
  name := stated.name
  rule type has := by
    obtain ⟨name, isIdentifier, neMarker, found⟩ := stated.rule type has
    exact names name type isIdentifier neMarker found

/-- A rule that is made of the type of a name has that type. -/
theorem ListText.Entry.found_of_resolve {name : String} (isIdentifier : IsIdentifier name.toList)
    (neMarker : name ≠ "_") {make : ScanType → Rule} (has : ∀ type, (make type).type? = some type)
    {rule : Rule} (made : (resolve registry name).map make = .ok rule) : rule.Found registry := by
  obtain ⟨type, found, rfl⟩ := exists_type_of_resolve made
  intro other same
  rw [has type] at same
  cases same
  exact ⟨name, isIdentifier, neMarker, found⟩

theorem RuleList.arguments_of_add {rules result : RuleList} {index : Nat} {argument : Argument}
    (added : rules.add index argument = .ok result) :
    result.arguments = rules.arguments ++ [argument] := by
  obtain ⟨name, rule⟩ := argument
  cases name with
  | some name =>
      cases added
      simp [arguments]
  | none =>
      simp only [add] at added
      split at added
      · next unnamed =>
          cases added
          simp [arguments, unnamed]
      · cases added

theorem RuleList.arguments_of_extend {rules result : RuleList} {index : Nat}
    {arguments : List Argument} (extended : rules.extend index arguments = .ok result) :
    result.arguments = rules.arguments ++ arguments := by
  induction arguments generalizing rules index with
  | nil =>
      cases extended
      rw [List.append_nil]
  | cons argument rest ih =>
      obtain ⟨one, added, more⟩ := exists_of_bind_eq_ok extended
      rw [ih more, arguments_of_add added, List.append_assoc]
      rfl

theorem RuleList.arguments_of_ofArguments {rules : RuleList} {arguments : List Argument}
    (made : ofArguments arguments = .ok rules) : rules.arguments = arguments :=
  arguments_of_extend made

variable [CharacterTable]

theorem ListText.Entry.found_of_rule {entry : ListText.Entry} (spelled : entry.Spelled)
    {rule : Rule} (made : entry.rule registry = .ok rule) : rule.Found registry := by
  unfold ListText.Entry.rule at made
  split at made
  · next name states =>
      split at made
      · cases made
      · next neMarker =>
          exact found_of_resolve (spelled.type name (by rw [states]; rfl)) neMarker
            (fun _ => rfl) made
  · next literal name states =>
      split at made
      · cases made
      · cases made
        rintro _ ⟨⟩
      · split at made
        · cases made
          rintro _ ⟨⟩
        · next neMarker =>
            exact found_of_resolve (spelled.type _ (by rw [states]; rfl)) neMarker
              (fun _ => rfl) made

theorem Argument.stated_of_ofEntries {entries : List ListText.Entry}
    (spelled : ∀ entry ∈ entries, entry.Spelled) {index : Nat} {named : Bool}
    {arguments : List Argument} (made : ofEntries registry index named entries = .ok arguments) :
    ∀ argument ∈ arguments, argument.Stated registry := by
  induction entries generalizing index named arguments with
  | nil =>
      cases made
      simp
  | cons entry rest ih =>
      obtain ⟨entrySpelled, restSpelled⟩ := List.forall_mem_cons.mp spelled
      rw [ofEntries] at made
      obtain ⟨rule, ruleMade, made⟩ := exists_of_bind_eq_ok made
      split at made
      · cases made
      · obtain ⟨others, othersMade, made⟩ := exists_of_bind_eq_ok made
        cases made
        have one : Argument.Stated registry ⟨entry.name, rule⟩ :=
          ⟨entrySpelled.name, ListText.Entry.found_of_rule entrySpelled ruleMade⟩
        exact List.forall_mem_cons.mpr ⟨one, ih restSpelled othersMade⟩

namespace RuleList

theorem stated_of_parse {text : String} {rules : RuleList}
    (accepted : parse registry text = .ok rules) :
    ∀ argument ∈ rules.arguments, argument.Stated registry := by
  obtain ⟨arguments, read, listed⟩ := exists_of_bind_eq_ok accepted
  have same : rules.arguments = arguments := by
    split at listed
    · next whole =>
        cases listed
        exact arguments_of_ofArguments whole
    · cases listed
  have spelled := ListText.spelled_entries text.toList
  rw [same]
  unfold Argument.parseList at read
  split at read
  · next entries whole =>
      rw [whole] at spelled
      exact Argument.stated_of_ofEntries spelled read
  · cases read

/-- Arguments that were read can be read from their descriptions. -/
theorem readable_of_parse (names : registry.NamesItsTypes) {text : String} {rules : RuleList}
    (accepted : parse registry text = .ok rules) :
    ∀ argument ∈ rules.arguments, argument.Readable registry :=
  fun argument member => (stated_of_parse accepted argument member).readable names

end RuleList

end Unformat
