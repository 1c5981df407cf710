import Mathlib.Data.List.Forall2
import Unformat.Proofs.Rule.Describing
import Unformat.Proofs.Rule.Literals
import Unformat.Rule.Spec

/-!
# Rule lists by texts and by values

The same declarations are given as a text, or as the values of a calling program.  Both ways accept
the same declarations, and they make the same rules of them.  They complain of different things when
declarations are divided: a text is read in order, and complains of the first entry that is out of
order or has an unknown type, but of values each type is looked up before the order is looked at,
and those with a name first of all, as they are arguments already.
-/

namespace Unformat

open ListText (Word Path Marked ItemBody Item Entry Derives)
open Template (exists_of_bind_eq_ok)
open Text (CharacterTable)

/-- What one entry of a rule list declares, in a text or by a value. -/
inductive Declared where
  | type (word : Word) (notMarker : String.ofList word.1 ≠ "_")
  | typed (pattern : String) (word : Word)
  | untyped (pattern : String)

/-- One entry of a rule list. -/
structure Declaration where
  name : Option Word
  declared : Declared

def Declaration.label (declaration : Declaration) : Option String :=
  declaration.name.map fun word => String.ofList word.1

variable {registry : Registry}

/-! ## The text of declarations -/

section Texts

variable [CharacterTable]

/-- A body is written for what is declared: with any literal that stands for the pattern. -/
inductive Declared.Writes : Declared → ItemBody → Prop where
  | type (word : Word) (notMarker : String.ofList word.1 ≠ "_") :
      Writes (.type word notMarker) (.type (.ofWord word))
  | typed {pattern : String} {literal : Marked} (stands : literal.StandsFor pattern.toList)
      (word : Word) : Writes (.typed pattern word) (.pattern literal (some (.ofWord word)))
  | untyped {pattern : String} {literal : Marked} (stands : literal.StandsFor pattern.toList) :
      Writes (.untyped pattern) (.pattern literal none)

structure Declaration.Writes (declaration : Declaration) (item : Item) : Prop where
  name : item.name = declaration.name
  body : declaration.declared.Writes item.body

/-- A text writes declarations: it derives from items that are written for them. -/
def RuleList.Writes (declarations : List Declaration) (text : String) : Prop :=
  ∃ items comma, Derives items comma text.toList ∧
    List.Forall₂ Declaration.Writes declarations items

end Texts

/-! ## The values of declarations -/

/-- The value by which a calling program declares a rule. -/
def Declared.spec : Declared → Spec
  | .type word _ => .text (String.ofList word.1)
  | .typed pattern word => .tuple [.text pattern, .text (String.ofList word.1)]
  | .untyped pattern => .tuple [.text pattern]

def Declaration.argument (registry : Registry) (declaration : Declaration) :
    Except ArgumentFault Argument :=
  (Rule.ofSpec registry declaration.declared.spec).map fun rule => ⟨declaration.label, rule⟩

/-- The value of a declaration; one with a name is an argument, which its rule is made for. -/
def Declaration.value (registry : Registry) (declaration : Declaration) :
    Except ArgumentFault Spec :=
  match declaration.label with
  | none => .ok declaration.declared.spec
  | some _ => (declaration.argument registry).map .argument

/-- The rule list of declarations that are given as values. -/
def RuleList.ofDeclarations (registry : Registry) (declarations : List Declaration) :
    Except ArgumentFault RuleList := do
  let specs ← declarations.mapM (Declaration.value registry)
  ofSpecs registry specs []

/-! ## Every declaration can be written -/

section Texts

variable [CharacterTable]

theorem Marked.standsFor_quote (pattern : String) :
    (ListText.Marked.quote pattern.toList).StandsFor pattern.toList :=
  ListText.Marked.value?_eq_some_iff.mp (ListText.Marked.value?_quote pattern)

theorem Declared.exists_writes (declared : Declared) :
    ∃ body text, body.Spells text ∧ declared.Writes body := by
  cases declared with
  | type word notMarker => exact ⟨_, _, .type (.ofWord word), .type word notMarker⟩
  | typed pattern word =>
      have spells := ItemBody.Spells.typed (.quote pattern.toList) (.ofWord word)
        ListText.blank_singleton_space ListText.blank_singleton_space (List.cons_ne_nil _ _)
      exact ⟨_, _, spells, .typed (Marked.standsFor_quote pattern) word⟩
  | untyped pattern => exact ⟨_, _, .pattern _, .untyped (Marked.standsFor_quote pattern)⟩

theorem Declaration.exists_writes (declaration : Declaration) :
    ∃ item text, item.Spells text ∧ declaration.Writes item := by
  obtain ⟨name, declared⟩ := declaration
  obtain ⟨body, text, spells, writes⟩ := declared.exists_writes
  cases name with
  | none => exact ⟨⟨none, body⟩, text, .positional spells, ⟨rfl, writes⟩⟩
  | some word =>
      have named := Item.Spells.named word ListText.blank_singleton_space
        ListText.blank_singleton_space spells
      exact ⟨⟨some word, body⟩, _, named, ⟨rfl, writes⟩⟩

theorem RuleList.exists_writes (declarations : List Declaration) :
    ∃ text, Writes declarations text := by
  have written : ∃ items texts, List.Forall₂ Item.Spells items texts ∧
      List.Forall₂ Declaration.Writes declarations items := by
    induction declarations with
    | nil => exact ⟨[], [], .nil, .nil⟩
    | cons declaration rest ih =>
        obtain ⟨item, text, spells, writes⟩ := declaration.exists_writes
        obtain ⟨items, texts, later, others⟩ := ih
        exact ⟨item :: items, text :: texts, .cons spells later, .cons writes others⟩
  obtain ⟨items, texts, spells, writes⟩ := written
  refine ⟨String.ofList ([',', ' '].intercalate texts), items, false, ?_, writes⟩
  rw [String.toList_ofList]
  exact ListText.derives_intercalate spells

end Texts

/-! ## Unknown types -/

/-- The name, unless it is the name of a type. -/
def Registry.missing? (registry : Registry) (name : String) : Option String :=
  if registry.find? (.name name) = none then some name else none

/-- The name of the type that is declared and is not known. -/
def Declaration.unknown? (registry : Registry) (declaration : Declaration) : Option String :=
  match declaration.declared with
  | .type word _ => registry.missing? (String.ofList word.1)
  | .typed _ word =>
      if String.ofList word.1 = "_" then none else registry.missing? (String.ofList word.1)
  | .untyped _ => none

/-- The same for a declaration with a name. -/
def Declaration.unknownNamed? (registry : Registry) (declaration : Declaration) : Option String :=
  declaration.label.bind fun _ => declaration.unknown? registry

/-- No entry without a name comes behind one with a name. -/
def Declaration.InOrder (declarations : List Declaration) : Prop :=
  declarations.Pairwise fun first second => first.label.isSome → second.label.isSome

/-- The ways to give declarations complain of different things.  The first unknown type stands
behind an entry that is out of order, or it has no name and there is one with a name that is
another. -/
def RuleList.Divided (registry : Registry) (declarations : List Declaration) : Prop :=
  ∃ front declaration behind name, declarations = front ++ declaration :: behind ∧
    (∀ other ∈ front, other.unknown? registry = none) ∧
    declaration.unknown? registry = some name ∧
    (¬ Declaration.InOrder front ∨
      declaration.label = none ∧
        ∃ other, behind.findSome? (Declaration.unknownNamed? registry) = some other ∧
          other ≠ name)

theorem Registry.resolve_text (registry : Registry) (name : String) :
    registry.resolve (.text name) =
      match registry.find? (.name name) with
      | some type => .ok type
      | none => .error (.unknownType name) := rfl

theorem Registry.resolve_of_missing? {name unknown : String}
    (missing : registry.missing? name = some unknown) :
    registry.resolve (.text name) = .error (.unknownType unknown) := by
  unfold missing? at missing
  split at missing
  · next none =>
      cases missing
      rw [resolve_text, none]
  · cases missing

theorem Registry.exists_resolve_of_known {name : String} (known : registry.missing? name = none) :
    ∃ type, registry.resolve (.text name) = .ok type := by
  unfold missing? at known
  split at known
  · cases known
  · next found =>
      obtain ⟨type, here⟩ := Option.ne_none_iff_exists'.mp found
      exact ⟨type, by rw [resolve_text, here]⟩

theorem Declared.ofSpec_type (word : Word) (notMarker : String.ofList word.1 ≠ "_") :
    Rule.ofSpec registry (type word notMarker).spec =
      (registry.resolve (.text (String.ofList word.1))).map .default := rfl

theorem Declared.ofSpec_typed (pattern : String) (word : Word) :
    Rule.ofSpec registry (typed pattern word).spec =
      if String.ofList word.1 = "_" then .ok (.null pattern)
      else (registry.resolve (.text (String.ofList word.1))).map (.custom pattern) := by
  simp only [spec, Rule.ofSpec, Rule.ofPair, Spec.isMarker, beq_iff_eq]

theorem Declaration.argument_of_unknown {declaration : Declaration} {name : String}
    (unknown : declaration.unknown? registry = some name) :
    declaration.argument registry = .error (.unknownType name) := by
  obtain ⟨label, declared⟩ := declaration
  cases declared with
  | type word notMarker =>
      rw [argument, Declared.ofSpec_type, Registry.resolve_of_missing? unknown]
      rfl
  | typed pattern word =>
      simp only [unknown?] at unknown
      split at unknown
      · cases unknown
      · next notMarker =>
          rw [argument, Declared.ofSpec_typed, if_neg notMarker,
            Registry.resolve_of_missing? unknown]
          rfl
  | untyped pattern => cases unknown

theorem Declaration.exists_argument_of_known {declaration : Declaration}
    (known : declaration.unknown? registry = none) :
    ∃ argument, declaration.argument registry = .ok argument := by
  obtain ⟨label, declared⟩ := declaration
  cases declared with
  | type word notMarker =>
      obtain ⟨type, found⟩ := Registry.exists_resolve_of_known known
      rw [argument, Declared.ofSpec_type, found]
      exact ⟨_, rfl⟩
  | typed pattern word =>
      simp only [unknown?] at known
      rw [argument, Declared.ofSpec_typed]
      split at known
      · next marker =>
          rw [if_pos marker]
          exact ⟨_, rfl⟩
      · next notMarker =>
          obtain ⟨type, found⟩ := Registry.exists_resolve_of_known known
          rw [if_neg notMarker, found]
          exact ⟨_, rfl⟩
  | untyped pattern => exact ⟨_, rfl⟩

theorem Declaration.exists_rule_of_argument {declaration : Declaration} {argument : Argument}
    (made : declaration.argument registry = .ok argument) :
    ∃ rule, Rule.ofSpec registry declaration.declared.spec = .ok rule ∧
      argument = ⟨declaration.label, rule⟩ := by
  unfold Declaration.argument at made
  cases ruleMade : Rule.ofSpec registry declaration.declared.spec with
  | error fault =>
      rw [ruleMade] at made
      cases made
  | ok rule =>
      rw [ruleMade] at made
      cases made
      exact ⟨rule, rfl, rfl⟩

theorem Declaration.unknownNamed?_eq_none {declaration : Declaration}
    (known : declaration.unknown? registry = none) :
    declaration.unknownNamed? registry = none := by
  rw [unknownNamed?, known]
  cases declaration.label <;> rfl

/-! ## Values are read one after another -/

section
variable {ε α β γ : Type} {read : α → Except ε β} {items : List α}

theorem mapM_eq_error {front behind : List α} {item : α} {failure : ε}
    (each : ∀ other ∈ front, ∃ value, read other = .ok value) (fails : read item = .error failure) :
    (front ++ item :: behind).mapM read = .error failure := by
  induction front with
  | nil =>
      rw [List.nil_append, List.mapM_cons, fails]
      rfl
  | cons first front ih =>
      obtain ⟨⟨value, made⟩, others⟩ := List.forall_mem_cons.mp each
      rw [List.cons_append, List.mapM_cons, made, ih others]
      rfl

theorem exists_mapM_eq_ok {relates : α → β → Prop}
    (each : ∀ item ∈ items, ∃ value, read item = .ok value ∧ relates item value) :
    ∃ values, items.mapM read = .ok values ∧ List.Forall₂ relates items values := by
  induction items with
  | nil => exact ⟨[], rfl, .nil⟩
  | cons first items ih =>
      obtain ⟨⟨value, made, related⟩, others⟩ := List.forall_mem_cons.mp each
      obtain ⟨values, read, same⟩ := ih others
      refine ⟨value :: values, ?_, .cons related same⟩
      rw [List.mapM_cons, made, read]
      rfl

theorem mapM_congr_forall₂ {other : γ → Except ε β} {others : List γ}
    (same : List.Forall₂ (fun item one => read item = other one) items others) :
    items.mapM read = others.mapM other := by
  induction same with
  | nil => rfl
  | cons one _ ih => rw [List.mapM_cons, List.mapM_cons, one, ih]

end

/-! ## What is made of the values -/

theorem Declaration.exists_arguments_of_known {declarations : List Declaration}
    (known : ∀ declaration ∈ declarations, declaration.unknown? registry = none) :
    ∃ arguments, declarations.mapM (argument registry) = .ok arguments := by
  have each : ∀ declaration ∈ declarations,
      ∃ made, declaration.argument registry = .ok made ∧ True := by
    intro declaration member
    obtain ⟨made, same⟩ := exists_argument_of_known (known declaration member)
    exact ⟨made, same, trivial⟩
  obtain ⟨arguments, made, _⟩ := exists_mapM_eq_ok each
  exact ⟨arguments, made⟩

theorem Declaration.value_of_unknownNamed {declaration : Declaration} {name : String}
    (unknown : declaration.unknownNamed? registry = some name) :
    declaration.value registry = .error (.unknownType name) := by
  obtain ⟨word, labelled, missing⟩ := Option.bind_eq_some_iff.mp unknown
  rw [value, labelled]
  simp only [argument_of_unknown missing]
  rfl

/-- A value that can be given is read as the argument that is declared. -/
theorem Declaration.exists_value {declaration : Declaration}
    (known : declaration.unknownNamed? registry = none) :
    ∃ spec, declaration.value registry = .ok spec ∧
      Argument.ofSpec registry spec = declaration.argument registry := by
  cases labelled : declaration.label with
  | none =>
      refine ⟨declaration.declared.spec, by rw [value, labelled], ?_⟩
      rw [argument, labelled]
      cases declaration.declared <;> rfl
  | some word =>
      rw [unknownNamed?, labelled] at known
      obtain ⟨made, same⟩ := exists_argument_of_known known
      refine ⟨.argument made, ?_, same.symm⟩
      rw [value, labelled]
      simp only [same]
      rfl

namespace RuleList

/-- The arguments with names are made before anything else is read. -/
theorem ofDeclarations_of_unknownNamed {declarations : List Declaration} {name : String}
    (unknown : declarations.findSome? (Declaration.unknownNamed? registry) = some name) :
    ofDeclarations registry declarations = .error (.unknownType name) := by
  obtain ⟨front, declaration, behind, rfl, missing, known⟩ :=
    List.findSome?_eq_some_iff.mp unknown
  have each : ∀ other ∈ front, ∃ spec, other.value registry = .ok spec := by
    intro other member
    obtain ⟨spec, made, _⟩ := Declaration.exists_value (known other member)
    exact ⟨spec, made⟩
  rw [ofDeclarations, mapM_eq_error each (Declaration.value_of_unknownNamed missing)]
  rfl

theorem ofDeclarations_eq {declarations : List Declaration}
    (known : declarations.findSome? (Declaration.unknownNamed? registry) = none) :
    ofDeclarations registry declarations =
      declarations.mapM (Declaration.argument registry) >>= ofArguments := by
  rw [List.findSome?_eq_none_iff] at known
  have each : ∀ declaration ∈ declarations, ∃ spec, declaration.value registry = .ok spec ∧
      declaration.argument registry = Argument.ofSpec registry spec := by
    intro declaration member
    obtain ⟨spec, made, same⟩ := Declaration.exists_value (known declaration member)
    exact ⟨spec, made, same.symm⟩
  obtain ⟨specs, made, same⟩ := exists_mapM_eq_ok each
  rw [ofDeclarations, made, mapM_congr_forall₂ same]
  simp [ofSpecs, bind, Except.bind, pure, Except.pure]

theorem ofDeclarations_of_known {declarations : List Declaration} {arguments : List Argument}
    (made : declarations.mapM (Declaration.argument registry) = .ok arguments)
    (known : ∀ declaration ∈ declarations, declaration.unknown? registry = none) :
    ofDeclarations registry declarations = ofArguments arguments := by
  have unnamed : declarations.findSome? (Declaration.unknownNamed? registry) = none :=
    List.findSome?_eq_none_iff.mpr fun declaration member =>
      Declaration.unknownNamed?_eq_none (known declaration member)
  rw [ofDeclarations_eq unnamed, made]
  rfl

/-- Of values, the first unknown type is complained of, but those of named ones come first. -/
theorem ofDeclarations_of_unknown {front behind : List Declaration} {declaration : Declaration}
    {name : String} (known : ∀ other ∈ front, other.unknown? registry = none)
    (unknown : declaration.unknown? registry = some name) :
    ofDeclarations registry (front ++ declaration :: behind) =
      .error (.unknownType (if declaration.label.isSome then name else
        (behind.findSome? (Declaration.unknownNamed? registry)).getD name)) := by
  have unnamed : front.findSome? (Declaration.unknownNamed? registry) = none :=
    List.findSome?_eq_none_iff.mpr fun other member =>
      Declaration.unknownNamed?_eq_none (known other member)
  have first : (front ++ declaration :: behind).findSome? (Declaration.unknownNamed? registry) =
      (declaration.unknownNamed? registry).or
        (behind.findSome? (Declaration.unknownNamed? registry)) := by
    rw [List.findSome?_append, unnamed, Option.none_or, List.findSome?_cons]
    cases declaration.unknownNamed? registry <;> rfl
  have alone : declaration.unknownNamed? registry =
      if declaration.label.isSome then some name else none := by
    rw [Declaration.unknownNamed?, unknown]
    cases declaration.label <;> rfl
  rw [alone] at first
  split
  · next labelled =>
      rw [if_pos labelled] at first
      exact ofDeclarations_of_unknownNamed first
  · next unlabelled =>
      rw [if_neg unlabelled, Option.none_or] at first
      cases others : behind.findSome? (Declaration.unknownNamed? registry) with
      | some other => exact ofDeclarations_of_unknownNamed (first.trans others)
      | none =>
          have each : ∀ other ∈ front, ∃ argument, other.argument registry = .ok argument :=
            fun other member => Declaration.exists_argument_of_known (known other member)
          rw [ofDeclarations_eq (first.trans others),
            mapM_eq_error each (Declaration.argument_of_unknown unknown)]
          rfl

end RuleList

/-! ## Texts are read in order -/

section Texts

variable [CharacterTable]

namespace Declaration

/-- The entry that is written makes the rule that the value makes. -/
theorem Writes.rule_entry {declaration : Declaration} {item : Item}
    (writes : declaration.Writes item) :
    item.entry.rule registry =
      (Rule.ofSpec registry declaration.declared.spec).mapError .fault := by
  obtain ⟨name, body⟩ := item
  obtain ⟨label, declared⟩ := declaration
  have resolved (name : String) (make : ScanType → Rule) :
      (Entry.resolve registry name).map make =
        ((registry.resolve (.text name)).map make).mapError .fault := by
    rw [Entry.map_resolve, Registry.resolve_text]
    cases registry.find? (.name name) <;> rfl
  cases writes.body with
  | type word notMarker =>
      simp only [Item.entry, ItemBody.states, Entry.rule, ListText.Path.name_ofWord,
        if_neg notMarker]
      exact resolved _ _
  | typed stands word =>
      have value := ListText.Marked.value?_eq_some_iff.mpr stands
      simp only [Item.entry, ItemBody.states, Entry.rule, value, Option.map_some,
        ListText.Path.name_ofWord, Declared.ofSpec_typed]
      split
      · rfl
      · exact resolved _ _
  | untyped stands =>
      have value := ListText.Marked.value?_eq_some_iff.mpr stands
      simp only [Item.entry, ItemBody.states, Entry.rule, value, Option.map_none]
      rfl

theorem Writes.entry_name {declaration : Declaration} {item : Item}
    (writes : declaration.Writes item) : item.entry.name = declaration.label := by
  rw [Item.entry, label, writes.name]

/-- An entry makes its argument, unless it is out of order. -/
theorem Writes.ofEntry {declaration : Declaration} {item : Item} (writes : declaration.Writes item)
    (index : Nat) {named : Bool} (inOrder : named = true → declaration.label.isSome) :
    Argument.ofEntry registry index named item.entry =
      (declaration.argument registry).mapError .fault := by
  have stays : ¬ (named = true ∧ declaration.label = none) := by
    rintro ⟨before, unnamed⟩
    have labelled := inOrder before
    rw [unnamed] at labelled
    cases labelled
  rw [Argument.ofEntry, writes.rule_entry, argument]
  simp only [writes.entry_name, if_neg stays]
  cases Rule.ofSpec registry declaration.declared.spec <;> rfl

theorem Writes.ofEntry_of_unknown {declaration : Declaration} {item : Item}
    (writes : declaration.Writes item) (index : Nat) (named : Bool) {name : String}
    (unknown : declaration.unknown? registry = some name) :
    Argument.ofEntry registry index named item.entry = .error (.fault (.unknownType name)) := by
  have fails := argument_of_unknown unknown
  rw [argument] at fails
  rw [Argument.ofEntry, writes.rule_entry]
  cases made : Rule.ofSpec registry declaration.declared.spec with
  | error fault =>
      rw [made] at fails
      cases fails
      rfl
  | ok rule =>
      rw [made] at fails
      cases fails

theorem Writes.ofEntry_of_outOfOrder {declaration : Declaration} {item : Item}
    (writes : declaration.Writes item) (index : Nat) {argument : Argument}
    (made : declaration.argument registry = .ok argument) (unnamed : declaration.label = none) :
    Argument.ofEntry registry index true item.entry =
      .error (.fault (.positionalAfterNamed index)) := by
  obtain ⟨rule, ruleMade, _⟩ := exists_rule_of_argument made
  rw [Argument.ofEntry, writes.rule_entry, ruleMade]
  simp only [writes.entry_name, unnamed]
  rfl

/-- Declarations are in order behind others, of which one with a name may have been. -/
def Behind (named : Bool) (declarations : List Declaration) : Prop :=
  (named = true → ∀ declaration ∈ declarations, declaration.label.isSome) ∧ InOrder declarations

omit [CharacterTable] in
theorem behind_cons {named : Bool} {declaration : Declaration} {rest : List Declaration} :
    Behind named (declaration :: rest) ↔
      (named = true → declaration.label.isSome) ∧
        Behind (named || declaration.label.isSome) rest := by
  simp only [Behind, InOrder, List.pairwise_cons, List.forall_mem_cons, Bool.or_eq_true]
  constructor
  · rintro ⟨before, first, inOrder⟩
    refine ⟨fun earlier => (before earlier).1, ?_, inOrder⟩
    rintro (earlier | here) other member
    · exact (before earlier).2 other member
    · exact first other member here
  · rintro ⟨here, later, inOrder⟩
    exact ⟨fun earlier => ⟨here earlier, later (.inl earlier)⟩,
      fun other member named => later (.inr named) other member, inOrder⟩

end Declaration

namespace Argument

theorem ofEntries_append (index : Nat) (named : Bool) (front rest : List Entry) :
    ofEntries registry index named (front ++ rest) = (do
      let first ← ofEntries registry index named front
      let others ← ofEntries registry (index + front.length)
        (named || front.any fun entry => entry.name.isSome) rest
      return first ++ others) := by
  induction front generalizing index named with
  | nil =>
      simp only [ofEntries, List.nil_append, List.length_nil, Nat.add_zero, List.any_nil,
        Bool.or_false, bind, Except.bind]
      cases ofEntries registry index named rest <;> rfl
  | cons entry front ih =>
      rw [List.cons_append, ofEntries_cons, ofEntries_cons, ih, List.length_cons, List.any_cons,
        Nat.add_right_comm, Nat.add_assoc, Bool.or_assoc]
      simp

/-- Entries of known types make the arguments that are declared, when they are in order. -/
theorem ofEntries_of_behind {declarations : List Declaration} {items : List Item}
    {arguments : List Argument} (writes : List.Forall₂ Declaration.Writes declarations items)
    (made : declarations.mapM (Declaration.argument registry) = .ok arguments) (index : Nat)
    {named : Bool} (inOrder : Declaration.Behind named declarations) :
    ofEntries registry index named (items.map Item.entry) = .ok arguments := by
  induction writes generalizing index named arguments with
  | nil =>
      cases made
      rfl
  | @cons declaration item rest items one others ih =>
      obtain ⟨here, later⟩ := Declaration.behind_cons.mp inOrder
      rw [List.mapM_cons] at made
      obtain ⟨argument, argumentMade, made⟩ := exists_of_bind_eq_ok made
      obtain ⟨more, moreMade, made⟩ := exists_of_bind_eq_ok made
      cases made
      rw [List.map_cons, ofEntries_cons, one.ofEntry index here, argumentMade,
        one.entry_name]
      simp only [Except.mapError, bind, Except.bind, ih moreMade (index + 1) later]
      rfl

omit [CharacterTable] in
/-- An argument is put behind rules, unless it is out of order. -/
theorem exists_added {rules : RuleList} {named : Bool} (before : rules.named ≠ [] ↔ named = true)
    (index : Nat) (argument : Argument) (inOrder : named = true → argument.name.isSome) :
    ∃ added, rules.add index argument = .ok added ∧
      (added.named ≠ [] ↔ (named || argument.name.isSome) = true) := by
  obtain ⟨name, rule⟩ := argument
  cases name with
  | some name =>
      refine ⟨{ rules with named := rules.named ++ [(name, rule)] }, rfl, ?_⟩
      simp
  | none =>
      have first : rules.named = [] := by
        by_contra some
        cases inOrder (before.mp some)
      refine ⟨{ rules with positional := rules.positional ++ [rule] }, if_pos first, ?_⟩
      simpa using before

/-- Entries of known types fail at the first that is out of order, and so do their arguments. -/
theorem exists_place_of_not_behind {declarations : List Declaration} {items : List Item}
    {arguments : List Argument} (writes : List.Forall₂ Declaration.Writes declarations items)
    (made : declarations.mapM (Declaration.argument registry) = .ok arguments) (index : Nat)
    {named : Bool} (outOfOrder : ¬ Declaration.Behind named declarations) {rules : RuleList}
    (before : rules.named ≠ [] ↔ named = true) :
    ∃ place, ofEntries registry index named (items.map Item.entry) =
        .error (.fault (.positionalAfterNamed place)) ∧
      rules.extend index arguments = .error (.positionalAfterNamed place) := by
  induction writes generalizing index named arguments rules with
  | nil => exact absurd ⟨fun _ => List.forall_mem_nil _, List.Pairwise.nil⟩ outOfOrder
  | @cons declaration item rest items one others ih =>
      rw [List.mapM_cons] at made
      obtain ⟨argument, argumentMade, made⟩ := exists_of_bind_eq_ok made
      obtain ⟨more, moreMade, made⟩ := exists_of_bind_eq_ok made
      cases made
      obtain ⟨rule, _, rfl⟩ := Declaration.exists_rule_of_argument argumentMade
      rw [List.map_cons, ofEntries_cons]
      by_cases here : named = true → declaration.label.isSome
      · have later : ¬ Declaration.Behind (named || declaration.label.isSome) rest :=
          fun inOrder => outOfOrder (Declaration.behind_cons.mpr ⟨here, inOrder⟩)
        obtain ⟨added, add, onward⟩ := exists_added before index ⟨declaration.label, rule⟩ here
        obtain ⟨place, read, extended⟩ := ih moreMade (index + 1) later onward
        refine ⟨place, ?_, ?_⟩
        · rw [one.ofEntry index here, argumentMade, one.entry_name]
          simp only [Except.mapError, bind, Except.bind, read]
        · rw [RuleList.extend, add]
          exact extended
      · obtain ⟨earlier, unnamed⟩ := Classical.not_imp.mp here
        have nameless : declaration.label = none := by simpa using unnamed
        subst earlier
        refine ⟨index, ?_, ?_⟩
        · rw [one.ofEntry_of_outOfOrder index argumentMade nameless]
          rfl
        · have some : rules.named ≠ [] := before.mpr rfl
          rw [RuleList.extend, RuleList.add, nameless]
          simp only [if_neg some]
          rfl

end Argument

/-! ## The two ways compared -/

namespace RuleList

/-- The same rules, or complaints with the same code and the same message. -/
def Alike : Except ArgumentFailure RuleList → Except ArgumentFault RuleList → Prop
  | .ok read, .ok collected => read = collected
  | .error (.fault complaint), .error other =>
      Fault.code complaint = Fault.code other ∧ Fault.message complaint = Fault.message other
  | _, _ => False

theorem parse_of_derives {items : List Item} {comma : Bool} {text : String}
    (derives : Derives items comma text.toList) :
    parse registry text =
      Argument.ofEntries registry 0 false (items.map Item.entry) >>= fun arguments =>
        (ofArguments arguments).mapError .fault := by
  rw [parse, Argument.parseList, ListText.entries_of_derives derives]
  apply congrArg
  funext arguments
  cases ofArguments arguments <;> rfl

omit [CharacterTable] in
theorem behind_false {declarations : List Declaration} :
    Declaration.Behind false declarations ↔ Declaration.InOrder declarations := by
  simp [Declaration.Behind]

theorem parse_eq_of_known {declarations : List Declaration} {text : String}
    (writes : Writes declarations text)
    (known : ∀ declaration ∈ declarations, declaration.unknown? registry = none) :
    parse registry text = (ofDeclarations registry declarations).mapError .fault := by
  obtain ⟨items, comma, derives, written⟩ := writes
  obtain ⟨arguments, made⟩ := Declaration.exists_arguments_of_known known
  rw [parse_of_derives derives, ofDeclarations_of_known made known]
  by_cases inOrder : Declaration.Behind false declarations
  · rw [Argument.ofEntries_of_behind written made 0 inOrder]
    rfl
  · have before : ({} : RuleList).named ≠ [] ↔ false = true := by simp
    obtain ⟨place, read, extended⟩ :=
      Argument.exists_place_of_not_behind written made 0 inOrder before
    rw [read, ofArguments, extended]
    rfl

/-- A text with an unknown type complains of it, or of an entry out of order that stands before. -/
theorem parse_of_unknown {front behind : List Declaration} {declaration : Declaration}
    {name text : String} (writes : Writes (front ++ declaration :: behind) text)
    (known : ∀ other ∈ front, other.unknown? registry = none)
    (unknown : declaration.unknown? registry = some name) :
    (Declaration.InOrder front ∧ parse registry text = .error (.fault (.unknownType name))) ∨
      (¬ Declaration.InOrder front ∧
        ∃ place, parse registry text = .error (.fault (.positionalAfterNamed place))) := by
  obtain ⟨items, comma, derives, written⟩ := writes
  obtain ⟨frontItems, item, others, rfl, frontWritten, one⟩ :
      ∃ frontItems item others, items = frontItems ++ item :: others ∧
        List.Forall₂ Declaration.Writes front frontItems ∧ declaration.Writes item := by
    have later := List.forall₂_drop_append _ _ _ written.flip
    have earlier := List.forall₂_take_append _ _ _ written.flip
    cases standing : items.drop front.length with
    | nil =>
        rw [standing] at later
        cases later
    | cons item others =>
        rw [standing] at later
        refine ⟨items.take front.length, item, others, ?_, earlier.flip, ?_⟩
        · rw [← standing, List.take_append_drop]
        · cases later with
          | cons one _ => exact one
  obtain ⟨arguments, made⟩ := Declaration.exists_arguments_of_known known
  rw [parse_of_derives derives, List.map_append, Argument.ofEntries_append]
  by_cases inOrder : Declaration.Behind false front
  · refine .inl ⟨behind_false.mp inOrder, ?_⟩
    rw [Argument.ofEntries_of_behind frontWritten made 0 inOrder, List.map_cons,
      Argument.ofEntries_cons, one.ofEntry_of_unknown _ _ unknown]
    rfl
  · have before : ({} : RuleList).named ≠ [] ↔ false = true := by simp
    obtain ⟨place, read, _⟩ :=
      Argument.exists_place_of_not_behind frontWritten made 0 inOrder before
    refine .inr ⟨fun ordered => inOrder (behind_false.mpr ordered), place, ?_⟩
    rw [read]
    rfl

omit [CharacterTable] in
theorem alike_mapError (collected : Except ArgumentFault RuleList) :
    Alike (collected.mapError .fault) collected := by
  cases collected with
  | ok rules => exact rfl
  | error complaint => exact ⟨rfl, rfl⟩

omit [CharacterTable] in
theorem message_unknownType_injective {name other : String}
    (same : Fault.message (ArgumentFault.unknownType name) =
      Fault.message (ArgumentFault.unknownType other)) : name = other := by
  have texts := congrArg String.toList same
  simp only [Fault.message, String.toList_append, toString] at texts
  exact String.toList_injective (List.append_cancel_left (List.append_cancel_right texts))

theorem alike_iff_of_unknown {front behind : List Declaration} {declaration : Declaration}
    {name text : String} (writes : Writes (front ++ declaration :: behind) text)
    (known : ∀ other ∈ front, other.unknown? registry = none)
    (unknown : declaration.unknown? registry = some name) :
    Alike (parse registry text) (ofDeclarations registry (front ++ declaration :: behind)) ↔
      Declaration.InOrder front ∧
        (declaration.label = none → ∀ other,
          behind.findSome? (Declaration.unknownNamed? registry) = some other → other = name) := by
  rw [ofDeclarations_of_unknown known unknown]
  rcases parse_of_unknown writes known unknown with ⟨inOrder, read⟩ | ⟨outOfOrder, place, read⟩
  · rw [read]
    constructor
    · rintro ⟨_, same⟩
      refine ⟨inOrder, fun unnamed other found => ?_⟩
      rw [unnamed, found] at same
      exact (message_unknownType_injective same).symm
    · rintro ⟨_, agree⟩
      have same : (if declaration.label.isSome then name else
          (behind.findSome? (Declaration.unknownNamed? registry)).getD name) = name := by
        cases labelled : declaration.label with
        | some label => rfl
        | none =>
            cases found : behind.findSome? (Declaration.unknownNamed? registry) with
            | none => rfl
            | some other => exact agree labelled other found
      rw [same]
      exact ⟨rfl, rfl⟩
  · rw [read]
    constructor
    · rintro ⟨codes, _⟩
      cases codes
    · rintro ⟨inOrder, _⟩
      exact absurd inOrder outOfOrder

/-- Declarations are accepted as a text and as values alike, with the same rules.  When they are not
accepted, the complaints are the same too, unless the declarations are divided. -/
theorem alike_unless_divided (registry : Registry) {declarations : List Declaration} {text : String}
    (writes : Writes declarations text) :
    (parse registry text).toOption = (ofDeclarations registry declarations).toOption ∧
      (Alike (parse registry text) (ofDeclarations registry declarations) ↔
        ¬ Divided registry declarations) := by
  cases first : declarations.findSome? (Declaration.unknown? registry) with
  | none =>
      have known := List.findSome?_eq_none_iff.mp first
      rw [parse_eq_of_known writes known]
      refine ⟨?_, iff_of_true (alike_mapError _) ?_⟩
      · cases ofDeclarations registry declarations <;> rfl
      · rintro ⟨front, declaration, behind, name, rfl, _, unknown, _⟩
        rw [known declaration (by simp)] at unknown
        cases unknown
  | some name =>
      obtain ⟨front, declaration, behind, rfl, unknown, known⟩ :=
        List.findSome?_eq_some_iff.mp first
      refine ⟨?_, ?_, ?_⟩
      · rw [ofDeclarations_of_unknown known unknown]
        rcases parse_of_unknown writes known unknown with ⟨_, read⟩ | ⟨_, _, read⟩
        · rw [read]
          rfl
        · rw [read]
          rfl
      · rintro alike ⟨front, declaration, behind, name, standing, known, unknown, divided⟩
        rw [standing] at alike writes
        obtain ⟨inOrder, agree⟩ := (alike_iff_of_unknown writes known unknown).mp alike
        rcases divided with outOfOrder | ⟨unnamed, other, found, different⟩
        · exact outOfOrder inOrder
        · exact different (agree unnamed other found)
      · intro united
        refine (alike_iff_of_unknown writes known unknown).mpr ⟨?_, ?_⟩
        · by_contra outOfOrder
          exact united ⟨front, declaration, behind, name, rfl, known, unknown, .inl outOfOrder⟩
        · intro unnamed other found
          by_contra different
          exact united ⟨front, declaration, behind, name, rfl, known, unknown,
            .inr ⟨unnamed, other, found, different⟩⟩

end RuleList

end Texts

namespace RuleList

/-- Of two unknown types the one with a name stands first, and both ways complain of it. -/
theorem alike_of_unknown_named_type :
    let declarations : List Declaration :=
      [⟨some ⟨['a'], by decide⟩, .typed "[0-9]+" ⟨['w', 'h', 'o', 'l', 'e'], by decide⟩⟩,
        ⟨none, .type ⟨['o', 'd', 'd'], by decide⟩ (by decide)⟩]
    Writes declarations "a = r'[0-9]+' as whole, odd" ∧
      parse .builtin "a = r'[0-9]+' as whole, odd" = .error (.fault (.unknownType "whole")) ∧
      ofDeclarations .builtin declarations = .error (.unknownType "whole") ∧
      ¬ Divided .builtin declarations := by
  intro declarations
  let literal : Marked := .raw 'r' '\'' "[0-9]+".toList (.inl rfl) (.inl rfl) (by decide)
  have writes : Writes declarations "a = r'[0-9]+' as whole, odd" := by
    have spelled := ListText.derives_intercalate <| .cons
      (.named ⟨['a'], by decide⟩ ListText.blank_singleton_space ListText.blank_singleton_space
        (.typed literal (.ofWord ⟨['w', 'h', 'o', 'l', 'e'], by decide⟩)
          ListText.blank_singleton_space ListText.blank_singleton_space (List.cons_ne_nil _ _)))
      (.cons (.positional (.type (.ofWord ⟨['o', 'd', 'd'], by decide⟩))) .nil)
    refine ⟨_, _, spelled, .cons ⟨rfl, ?_⟩ (.cons ⟨rfl, ?_⟩ .nil)⟩
    · exact .typed .raw _
    · exact .type _ (by decide)
  have read : parse .builtin "a = r'[0-9]+' as whole, odd" =
      .error (.fault (.unknownType "whole")) := by
    decide +kernel
  have collected : ofDeclarations .builtin declarations = .error (.unknownType "whole") := by
    decide +kernel
  have alike : Alike (parse .builtin "a = r'[0-9]+' as whole, odd")
      (ofDeclarations .builtin declarations) := by
    rw [read, collected]
    exact ⟨rfl, rfl⟩
  exact ⟨writes, read, collected, (alike_unless_divided .builtin writes).2.mp alike⟩

/-- An entry without a name stands behind one with a name, and before one of an unknown type: the
text complains of the one and the values of the other. -/
theorem complaints_of_misplaced_entry :
    let declarations : List Declaration :=
      [⟨some ⟨['a'], by decide⟩, .type ⟨['u', '8'], by decide⟩ (by decide)⟩,
        ⟨none, .type ⟨['u', '8'], by decide⟩ (by decide)⟩,
        ⟨none, .type ⟨['b', 'o', 'g', 'u', 's'], by decide⟩ (by decide)⟩]
    Writes declarations "a = u8, u8, bogus" ∧
      parse .builtin "a = u8, u8, bogus" = .error (.fault (.positionalAfterNamed 1)) ∧
      ofDeclarations .builtin declarations = .error (.unknownType "bogus") ∧
      ¬ Alike (parse .builtin "a = u8, u8, bogus") (ofDeclarations .builtin declarations) := by
  intro declarations
  have writes : Writes declarations "a = u8, u8, bogus" := by
    have spelled := ListText.derives_intercalate <| .cons
      (.named ⟨['a'], by decide⟩ ListText.blank_singleton_space ListText.blank_singleton_space
        (.type (.ofWord ⟨['u', '8'], by decide⟩)))
      (.cons (.positional (.type (.ofWord ⟨['u', '8'], by decide⟩)))
        (.cons (.positional (.type (.ofWord ⟨['b', 'o', 'g', 'u', 's'], by decide⟩))) .nil))
    refine ⟨_, _, spelled, .cons ⟨rfl, ?_⟩ (.cons ⟨rfl, ?_⟩ (.cons ⟨rfl, ?_⟩ .nil))⟩
    · exact .type _ (by decide)
    · exact .type _ (by decide)
    · exact .type _ (by decide)
  have read : parse .builtin "a = u8, u8, bogus" = .error (.fault (.positionalAfterNamed 1)) := by
    decide +kernel
  have collected : ofDeclarations .builtin declarations = .error (.unknownType "bogus") := by
    decide +kernel
  refine ⟨writes, read, collected, ?_⟩
  rw [read, collected]
  rintro ⟨codes, _⟩
  cases codes

end RuleList

end Unformat
