import Unformat.Proofs.Rule.Types

/-!
# Rules whose callables can be told apart

The cache of a session compares rules by the identities of their callables.  So it takes rules for
one another that convert differently, unless an identity tells how a callable converts.
-/

namespace Unformat

/-- What the callables of a calling program convert texts to, by their identities. -/
abbrev Meaning := Nat → List Char → Except String Value

/-- A callable that can be hashed, and converts as its identity says. -/
structure Callable.Follows (meaning : Meaning) (callable : Callable) : Prop where
  hashable : callable.unhashable? = none
  converts : callable.convert = meaning callable.identity

def Conversion.Follows (meaning : Meaning) : Conversion → Prop
  | .supplied callable => callable.Follows meaning
  | _ => True

/-- The callable of the type, if it has one, can be hashed and converts as its identity says. -/
def ScanType.Follows (meaning : Meaning) (type : ScanType) : Prop :=
  type.conversion.Follows meaning

variable {meaning : Meaning}

/-! ## Equal rules are the same -/

theorem Callable.identity_eq_of_beq {callable other : Callable} (same : callable == other) :
    callable.identity = other.identity :=
  eq_of_beq (a := callable.identity) same

theorem Callable.Follows.unique {callable other : Callable} (follows : callable.Follows meaning)
    (otherFollows : other.Follows meaning) (same : callable == other) : callable = other := by
  have identities := identity_eq_of_beq same
  have converts : callable.convert = other.convert := by
    rw [follows.converts, otherFollows.converts, identities]
  have hashable : callable.unhashable? = other.unhashable? := by
    rw [follows.hashable, otherFollows.hashable]
  cases callable
  cases other
  rw [mk.injEq]
  exact ⟨converts, identities, hashable⟩

theorem Conversion.Follows.unique {conversion other : Conversion}
    (follows : conversion.Follows meaning) (otherFollows : other.Follows meaning)
    (same : conversion == other) : conversion = other := by
  cases conversion <;> cases other <;> try cases same <;> rfl
  case integer kind otherKind => exact congrArg integer (eq_of_beq (a := kind) same)
  case supplied callable otherCallable =>
    have equal : callable == otherCallable := same
    rw [Callable.Follows.unique follows otherFollows equal]

theorem ScanType.Follows.unique {type other : ScanType} (follows : type.Follows meaning)
    (otherFollows : other.Follows meaning) (same : type == other) : type = other := by
  obtain ⟨name, conversion, pattern⟩ := type
  obtain ⟨otherName, otherConversion, otherPattern⟩ := other
  have parts : (name == otherName && (conversion == otherConversion &&
      pattern == otherPattern)) = true := same
  rw [Bool.and_eq_true, Bool.and_eq_true] at parts
  obtain ⟨names, conversions, patterns⟩ := parts
  have converts : conversion = otherConversion :=
    Conversion.Follows.unique follows otherFollows conversions
  rw [eq_of_beq names, converts, eq_of_beq patterns]

theorem Rule.eq_of_follows {rule other : Rule} (follows : rule.EachType (ScanType.Follows meaning))
    (otherFollows : other.EachType (ScanType.Follows meaning)) (same : rule == other) :
    rule = other := by
  cases rule <;> cases other <;> try cases same
  case default type otherType =>
    have equal : type == otherType := same
    rw [(follows type rfl).unique (otherFollows otherType rfl) equal]
  case custom pattern type otherPattern otherType =>
    have parts : (pattern == otherPattern && type == otherType) = true := same
    obtain ⟨patterns, types⟩ := Bool.and_eq_true_iff.mp parts
    rw [eq_of_beq patterns, (follows type rfl).unique (otherFollows otherType rfl) types]
  case null pattern otherPattern =>
    have equal : pattern == otherPattern := same
    rw [eq_of_beq equal]

/-- Lists are equal when their items are the same, item by item. -/
theorem eq_of_list_beq {α : Type} [BEq α] {items others : List α}
    (each : ∀ item ∈ items, ∀ other ∈ others, item == other → item = other)
    (same : items == others) : items = others := by
  induction items generalizing others with
  | nil =>
      cases others with
      | nil => rfl
      | cons => cases same
  | cons item items ih =>
      cases others with
      | nil => cases same
      | cons other others =>
          obtain ⟨here, behind⟩ := Bool.and_eq_true_iff.mp same
          rw [each item List.mem_cons_self other List.mem_cons_self here,
            ih (fun one member another otherMember => each one (List.mem_cons_of_mem _ member)
              another (List.mem_cons_of_mem _ otherMember)) behind]

/-- Rules that the cache takes for one another are the same, if identities tell how callables
convert. -/
theorem RuleList.eq_of_follows {rules other : RuleList}
    (follows : rules.EachType (ScanType.Follows meaning))
    (otherFollows : other.EachType (ScanType.Follows meaning)) (same : rules == other) :
    rules = other := by
  obtain ⟨positional, named⟩ := rules
  obtain ⟨otherPositional, otherNamed⟩ := other
  obtain ⟨front, back⟩ := List.forall_mem_append.mp follows
  obtain ⟨otherFront, otherBack⟩ := List.forall_mem_append.mp otherFollows
  have parts : (positional == otherPositional && named == otherNamed) = true := same
  obtain ⟨positionals, nameds⟩ := Bool.and_eq_true_iff.mp parts
  have first : positional = otherPositional :=
    eq_of_list_beq (fun rule member another otherMember =>
      Rule.eq_of_follows (front rule member) (otherFront another otherMember)) positionals
  have second : named = otherNamed := by
    refine eq_of_list_beq ?_ nameds
    rintro ⟨name, rule⟩ member ⟨otherName, another⟩ otherMember equal
    have entries : (name == otherName && rule == another) = true := equal
    obtain ⟨names, rules⟩ := Bool.and_eq_true_iff.mp entries
    have bodies : rule = another := Rule.eq_of_follows (back _ (List.mem_map_of_mem member))
      (otherBack _ (List.mem_map_of_mem otherMember)) rules
    rw [eq_of_beq names, bodies]
  rw [first, second]

theorem RuleList.unhashable?_of_follows {rules : RuleList}
    (follows : rules.EachType (ScanType.Follows meaning)) : rules.unhashable? = none := by
  rw [unhashable?, List.findSome?_eq_none_iff]
  intro rule member
  cases typed : rule.type? with
  | none => rfl
  | some type =>
      have each := follows rule member type typed
      unfold ScanType.Follows at each
      rw [Option.bind_some]
      cases converts : type.conversion with
      | supplied callable =>
          rw [converts] at each
          exact Callable.Follows.hashable each
      | _ => rfl

theorem Registry.follows_builtin : Registry.builtin.EachType (ScanType.Follows meaning) := by
  intro entry member
  have builtin : entry.2.conversion.IsBuiltin := eachType_builtin entry member
  unfold ScanType.Follows
  cases converts : entry.2.conversion with
  | supplied callable =>
      rw [converts] at builtin
      exact builtin.elim
  | _ => trivial

end Unformat
