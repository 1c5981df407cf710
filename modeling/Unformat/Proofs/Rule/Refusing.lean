import Unformat.Proofs.Text.Malformed
import Unformat.Rule.ListText

/-!
# What is wrong with a rule list that is refused

The text of a rule list is refused for a fault, which has a code of the argument phase, or because
a quoted literal in it is malformed.  The latter is so exactly when the grammar takes all of the
text, the entries before that of the literal state arguments, and the literal stands for no text:
the grammar lets a literal have line ends and escapes that the literal itself may not have.
-/

namespace Unformat

open Template (exists_of_bind_eq_ok)
open Text (CharacterTable Quoted.Malformed Quoted.unescape?_eq_none_iff)

/-- The failure is a fault with a code. -/
def ArgumentFailure.isCoded : ArgumentFailure → Bool
  | .fault _ => true
  | .malformedLiteral => false

/-- The code of a fault of arguments belongs to the argument phase. -/
theorem ArgumentFault.phase_eq (fault : ArgumentFault) :
    (Fault.code fault).phase = .arguments := by
  cases fault <;> rfl

/-- A computation fails at its first step or behind it. -/
theorem bind_eq_error_iff {ε α β : Type} {first : Except ε α} {next : α → Except ε β}
    {failure : ε} :
    first >>= next = .error failure ↔
      first = .error failure ∨ ∃ value, first = .ok value ∧ next value = .error failure := by
  cases first <;> simp [bind, Except.bind]

variable {registry : Registry}

/-- What is made of the type of a name. -/
theorem ListText.Entry.map_resolve (name : String) (make : ScanType → Rule) :
    (resolve registry name).map make =
      match registry.find? (.name name) with
      | some type => .ok (make type)
      | none => .error (.fault (.unknownType name)) := by
  unfold resolve
  cases registry.find? (.name name) <;> rfl

theorem ListText.Entry.exists_type_of_resolve {name : String} {make : ScanType → Rule} {rule : Rule}
    (made : (resolve registry name).map make = .ok rule) :
    ∃ type, registry.find? (.name name) = some type ∧ rule = make type := by
  rw [map_resolve] at made
  split at made
  · next type found =>
      cases made
      exact ⟨type, found, rfl⟩
  · cases made

theorem ListText.Entry.map_resolve_ne {make : ScanType → Rule} (name : String) :
    (resolve registry name).map make ≠ .error .malformedLiteral := by
  rw [map_resolve]
  split <;> simp

variable [CharacterTable]

/-- The entry has a quoted literal that is malformed. -/
def ListText.Entry.Flawed (entry : ListText.Entry) : Prop :=
  ∃ inside type, entry.body = .pattern (.quoted inside) type ∧ Quoted.Malformed inside

/-- The text is read as entries, of which one has a malformed literal and those before it state
arguments. -/
def RuleList.StatesFlawed (registry : Registry) (text : List Char) : Prop :=
  ∃ front entry behind arguments, ListText.entries text = (front ++ entry :: behind, []) ∧
    Argument.ofEntries registry 0 false front = .ok arguments ∧ entry.Flawed

theorem ListText.Literal.value?_eq_none_iff (literal : ListText.Literal) :
    literal.value? = none ↔ ∃ inside, literal = .quoted inside ∧ Quoted.Malformed inside := by
  cases literal with
  | raw text => simp [value?]
  | quoted inside => simp [value?, Quoted.unescape?_eq_none_iff]

theorem ListText.Entry.rule_eq_malformed_iff (entry : ListText.Entry) :
    entry.rule registry = .error .malformedLiteral ↔ entry.Flawed := by
  obtain ⟨name, body⟩ := entry
  cases body with
  | type type =>
      simp only [Flawed, reduceCtorEq, false_and, exists_false, iff_false, rule]
      split
      · simp
      · exact map_resolve_ne type
  | pattern literal type =>
      have flawed : Flawed ⟨name, .pattern literal type⟩ ↔ literal.value? = none := by
        simp [Flawed, literal.value?_eq_none_iff]
      rw [flawed]
      cases value : literal.value? with
      | none => simp [rule, value]
      | some pattern =>
          cases type with
          | none => simp [rule, value]
          | some type =>
              simp only [rule, value, reduceCtorEq, iff_false]
              split
              · simp
              · exact map_resolve_ne type

namespace Argument

/-- The argument of one entry, when entries came before it. -/
def ofEntry (registry : Registry) (index : Nat) (named : Bool) (entry : ListText.Entry) :
    Except ArgumentFailure Argument := do
  let rule ← entry.rule registry
  if named ∧ entry.name = none then throw (.fault (.positionalAfterNamed index))
  return ⟨entry.name, rule⟩

theorem ofEntries_cons (index : Nat) (named : Bool) (entry : ListText.Entry)
    (rest : List ListText.Entry) :
    ofEntries registry index named (entry :: rest) = (do
      let argument ← ofEntry registry index named entry
      let arguments ← ofEntries registry (index + 1) (named || entry.name.isSome) rest
      return argument :: arguments) := by
  rw [ofEntries, ofEntry]
  cases entry.rule registry with
  | error failure => rfl
  | ok rule =>
      simp only [bind, Except.bind]
      split <;> rfl

theorem ofEntry_eq_malformed_iff (index : Nat) (named : Bool) (entry : ListText.Entry) :
    ofEntry registry index named entry = .error .malformedLiteral ↔ entry.Flawed := by
  have alone : entry.rule registry = .error .malformedLiteral ↔ entry.Flawed :=
    entry.rule_eq_malformed_iff
  rw [← alone, ofEntry, bind_eq_error_iff]
  refine ⟨fun failed => ?_, .inl⟩
  obtain made | ⟨rule, _, failed⟩ := failed
  · exact made
  · split at failed <;> cases failed

/-- Entries are taken up to the first that fails, so a malformed literal is come to when those
before it state arguments. -/
theorem ofEntries_eq_malformed_iff (entries : List ListText.Entry) (index : Nat) (named : Bool) :
    ofEntries registry index named entries = .error .malformedLiteral ↔
      ∃ front entry behind arguments, entries = front ++ entry :: behind ∧
        ofEntries registry index named front = .ok arguments ∧ entry.Flawed := by
  induction entries generalizing index named with
  | nil => simp [ofEntries]
  | cons first rest ih =>
      rw [ofEntries_cons]
      constructor
      · intro failed
        rcases bind_eq_error_iff.mp failed with made | ⟨argument, made, failed⟩
        · exact ⟨[], first, rest, [], rfl, rfl, (ofEntry_eq_malformed_iff _ _ _).mp made⟩
        · obtain later | ⟨_, _, done⟩ := bind_eq_error_iff.mp failed
          · obtain ⟨front, entry, behind, arguments, rfl, before, flawed⟩ := (ih _ _).mp later
            refine ⟨first :: front, entry, behind, argument :: arguments, rfl, ?_, flawed⟩
            rw [ofEntries_cons, made, before]
            rfl
          · cases done
      · rintro ⟨front, entry, behind, arguments, whole, before, flawed⟩
        cases front with
        | nil =>
            cases whole
            rw [(ofEntry_eq_malformed_iff _ _ _).mpr flawed]
            rfl
        | cons other front =>
            cases whole
            rw [ofEntries_cons] at before
            obtain ⟨argument, made, before⟩ := exists_of_bind_eq_ok before
            obtain ⟨others, earlier, -⟩ := exists_of_bind_eq_ok before
            have later := (ih (index + 1) (named || first.name.isSome)).mpr
              ⟨front, entry, behind, others, rfl, earlier, flawed⟩
            rw [made, later]
            rfl

end Argument

theorem Argument.parseList_eq_malformed_iff (registry : Registry) (text : String) :
    parseList registry text = .error .malformedLiteral ↔
      RuleList.StatesFlawed registry text.toList := by
  unfold parseList RuleList.StatesFlawed
  rcases ListText.entries text.toList with ⟨entries, _ | ⟨c, rest⟩⟩
  · simp [ofEntries_eq_malformed_iff]
  · simp

/-- A rule list is refused without a code exactly when it states an entry with a malformed
literal. -/
theorem RuleList.parse_eq_malformed_iff (registry : Registry) (text : String) :
    parse registry text = .error .malformedLiteral ↔ StatesFlawed registry text.toList := by
  rw [← Argument.parseList_eq_malformed_iff, parse, bind_eq_error_iff]
  refine ⟨fun failed => ?_, .inl⟩
  obtain read | ⟨arguments, _, listed⟩ := failed
  · exact read
  · split at listed <;> cases listed

end Unformat
