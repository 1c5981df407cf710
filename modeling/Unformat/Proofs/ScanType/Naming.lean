import Unformat.Proofs.ScanType.Equality
import Unformat.Proofs.Template.Grammar
import Unformat.ScanType.Registry

/-!
# Types that a text can name

A text names a type by an identifier. A registry names its types when every type that an identifier
leads to has a name of its own which leads back to it. The built-in types are named so, whichever
of their aliases is used, and so are types that are registered under an identifier without replacing
another.
-/

namespace Unformat

open Template (IsIdentifier)

/-- The conversion is not one of the calling program. -/
def Conversion.IsBuiltin : Conversion → Prop
  | .supplied _ => False
  | _ => True

instance : DecidablePred Conversion.IsBuiltin
  | .supplied _ => .isFalse id
  | .boolean | .character | .text | .integer _ | .real | .ipv4 | .ipv6 | .address | .path
  | .socket | .socketV4 | .socketV6 => .isTrue trivial

namespace Registry

/-- A type can be named: its name is an identifier, other than the marker for none, and leads to
it. -/
structure Names (registry : Registry) (type : ScanType) : Prop where
  isIdentifier : IsIdentifier type.name.toList
  ne_marker : type.name ≠ "_"
  found : registry.find? (.name type.name) = some type

/-- Every type that an identifier leads to can be named. -/
def NamesItsTypes (registry : Registry) : Prop :=
  ∀ name type, IsIdentifier name.toList → name ≠ "_" →
    registry.find? (.name name) = some type → registry.Names type

theorem mem_entries_of_find? {registry : Registry} {designator : Designator} {type : ScanType}
    (found : registry.find? designator = some type) : (designator, type) ∈ registry.entries := by
  obtain ⟨front, behind, standing, _⟩ := List.lookup_eq_some_iff.mp found
  rw [standing]
  exact List.mem_append_right front List.mem_cons_self

theorem namesItsTypes_builtin : builtin.NamesItsTypes := by
  have all : ∀ entry ∈ builtin.entries, IsIdentifier entry.2.name.toList ∧ entry.2.name ≠ "_" ∧
      builtin.find? (.name entry.2.name) = some entry.2 := by
    decide +kernel
  intro name type _ _ found
  obtain ⟨isIdentifier, neMarker, back⟩ := all _ (mem_entries_of_find? found)
  exact ⟨isIdentifier, neMarker, back⟩

/-- All registered types have the property. -/
def EachType (holds : ScanType → Prop) (registry : Registry) : Prop :=
  ∀ entry ∈ registry.entries, holds entry.2

theorem eachType_builtin : builtin.EachType fun type => type.conversion.IsBuiltin := by
  have all : ∀ entry ∈ builtin.entries, entry.2.conversion.IsBuiltin := by decide +kernel
  exact all

/-! ## Registering -/

theorem lookup_replace {entries : List (Designator × ScanType)} {designator other : Designator}
    (type : ScanType) (present : other = designator → ∃ entry ∈ entries, entry.1 = designator) :
    (entries.map fun entry => if entry.1 = designator then (designator, type) else entry).lookup
        other =
      if other = designator then some type else entries.lookup other := by
  induction entries with
  | nil =>
      have different : other ≠ designator := by
        intro same
        obtain ⟨entry, member, _⟩ := present same
        cases member
      rw [if_neg different]
      rfl
  | cons entry rest ih =>
      rw [List.map_cons, List.lookup_cons, List.lookup_cons]
      by_cases here : entry.1 = designator
      · by_cases same : other = designator
        · simp [here, same]
        · simp [here, same, beq_eq_false_iff_ne.mpr same, ih fun equal => (same equal).elim]
      · have later : other = designator → ∃ entry ∈ rest, entry.1 = designator := by
          intro same
          obtain ⟨found, member, equal⟩ := present same
          rcases List.mem_cons.mp member with rfl | behind
          · exact (here equal).elim
          · exact ⟨found, behind, equal⟩
        rw [if_neg here, ih later]
        by_cases same : other = entry.1
        · simp [same, here]
        · simp [beq_eq_false_iff_ne.mpr same]

theorem find?_insert (registry : Registry) (designator other : Designator) (type : ScanType) :
    (registry.insert designator type).find? other =
      if other = designator then some type else registry.find? other := by
  unfold insert find?
  split
  · next present =>
      obtain ⟨entry, member, same⟩ := List.any_eq_true.mp present
      exact lookup_replace type fun _ => ⟨entry, member, of_decide_eq_true same⟩
  · next absent =>
      rw [List.lookup_append]
      by_cases same : other = designator
      · subst same
        have none : registry.entries.lookup other = none := by
          rw [List.lookup_eq_none_iff]
          intro entry member
          have different : entry.1 ≠ other := by
            intro equal
            exact absent (List.any_eq_true.mpr ⟨entry, member, decide_eq_true equal⟩)
          simpa using different.symm
        simp [none]
      · simp [List.lookup_cons, same, beq_eq_false_iff_ne.mpr same]

theorem find?_insertAll (registry : Registry) (designators : List Designator) (type : ScanType)
    (other : Designator) :
    (registry.insertAll designators type).find? other =
      if other ∈ designators then some type else registry.find? other := by
  induction designators generalizing registry with
  | nil => rfl
  | cons designator rest ih =>
      have step : registry.insertAll (designator :: rest) type =
          (registry.insert designator type).insertAll rest type := rfl
      rw [step, ih, find?_insert]
      by_cases later : other ∈ rest
      · simp [later]
      · simp [later]

/-- A type that is registered under an identifier, without replacing another, can be named, and so
can all the types before it. -/
theorem namesItsTypes_register {registry grown : Registry} {type : ScanType}
    {aliases : List Designator} (names : registry.NamesItsTypes)
    (isIdentifier : IsIdentifier type.name.toList) (neMarker : type.name ≠ "_")
    (registered : registry.register type aliases = .ok grown) : grown.NamesItsTypes := by
  simp only [register] at registered
  split at registered
  · next free =>
      obtain rfl := Except.ok.inj registered
      have fresh : ∀ designator ∈ .name type.name :: aliases,
          registry.find? designator = none := by
        simpa [List.filter_eq_nil_iff] using free
      intro name other otherIdentifier otherNeMarker found
      rw [find?_insertAll] at found
      split at found
      · cases found
        exact ⟨isIdentifier, neMarker, by rw [find?_insertAll, if_pos List.mem_cons_self]⟩
      · have before := names name other otherIdentifier otherNeMarker found
        have old : .name other.name ∉ .name type.name :: aliases := by
          intro member
          have none := fresh _ member
          rw [before.found] at none
          cases none
        refine ⟨before.isIdentifier, before.ne_marker, ?_⟩
        rw [find?_insertAll, if_neg old, before.found]
  · cases registered

end Registry

end Unformat
