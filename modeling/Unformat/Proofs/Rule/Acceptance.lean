import Unformat.Proofs.Rule.Literals
import Unformat.Proofs.Rule.Reading
import Unformat.Proofs.Rule.Refusing

/-!
# Rule lists are accepted exactly when they are derived

A text derives from one list of items at most, as each item ends where its entry ends.  So reading
accepts a text exactly when it derives from items, and these are then the only ones.  When the items
make rules, the arguments are theirs, in order.
-/

namespace Unformat

open Template (Stops stops_cons exists_of_bind_eq_ok)
open Text (CharacterTable isBlank)

namespace ListText

/-! ## One derivation at most -/

/-- Two entries with which a text begins are the same when both have ended. -/
theorem Item.Spells.append_inj {item other : Item} {text otherText rest otherRest : List Char}
    (spells : item.Spells text) (otherSpells : other.Spells otherText) (ends : Ends rest)
    (otherEnds : Ends otherRest) (equal : text ++ rest = otherText ++ otherRest) :
    item = other ∧ rest = otherRest := by
  have taken := entry?_append spells ends
  rw [equal, entry?_append otherSpells otherEnds] at taken
  obtain ⟨entries, rests⟩ := Prod.mk.inj (Option.some.inj taken)
  subst rests
  have texts : text = otherText := List.append_cancel_right equal
  subst texts
  exact ⟨spells.unique otherSpells entries.symm, rfl⟩

/-- Further entries end where no entry comes next. -/
theorem SpellsMore.append_inj {items others : List Item} {more otherMore rest otherRest : List Char}
    (spells : SpellsMore items more) (otherSpells : SpellsMore others otherMore)
    (ends : Ends rest) (otherEnds : Ends otherRest) (last : nextEntry? rest = none)
    (otherLast : nextEntry? otherRest = none) (equal : more ++ rest = otherMore ++ otherRest) :
    items = others ∧ rest = otherRest := by
  induction spells generalizing others otherMore with
  | nil =>
      cases otherSpells with
      | nil => exact ⟨rfl, equal⟩
      | cons blank gap one later =>
          simp only [List.nil_append, List.append_assoc, List.cons_append] at equal
          rw [equal, nextEntry?_append blank gap one (later.ends otherEnds)] at last
          cases last
  | cons blank gap one later ih =>
      simp only [List.append_assoc, List.cons_append] at equal
      cases otherSpells with
      | nil =>
          rw [List.nil_append] at equal
          rw [← equal, nextEntry?_append blank gap one (later.ends ends)] at otherLast
          cases otherLast
      | cons otherBlank otherGap otherOne otherLater =>
          simp only [List.append_assoc, List.cons_append] at equal
          have comma (behind : List Char) : Stops isBlank (',' :: behind) :=
            stops_cons.mpr (by decide)
          have behind := eq_of_blank_append blank otherBlank (comma _) (comma _) equal
          have texts := eq_of_blank_append gap otherGap (one.stops_isBlank _)
            (otherOne.stops_isBlank _) (List.tail_eq_of_cons_eq behind)
          obtain ⟨rfl, onward⟩ :=
            one.append_inj otherOne (later.ends ends) (otherLater.ends otherEnds) texts
          obtain ⟨rfl, rests⟩ := ih otherLater onward
          exact ⟨rfl, rests⟩

theorem SpellsComma.unique {comma ending : Bool}
    {closing otherClosing behind otherBehind : List Char}
    (closes : SpellsComma comma closing) (otherCloses : SpellsComma ending otherClosing)
    (gap : Blank behind) (otherGap : Blank otherBehind)
    (equal : closing ++ behind = otherClosing ++ otherBehind) : comma = ending := by
  have skipped := congrArg skipBlanks equal
  cases closes with
  | absent =>
      cases otherCloses with
      | absent => rfl
      | present blank =>
          rw [List.append_assoc, List.singleton_append, skipBlanks_comma blank, List.nil_append,
            skipBlanks_of_blank gap] at skipped
          cases skipped
  | present blank =>
      cases otherCloses with
      | absent =>
          rw [List.append_assoc, List.singleton_append, skipBlanks_comma blank, List.nil_append,
            skipBlanks_of_blank otherGap] at skipped
          cases skipped
      | present otherBlank => rfl

theorem Derives.unique {items others : List Item} {comma ending : Bool} {text : List Char}
    (derives : Derives items comma text) (otherDerives : Derives others ending text) :
    others = items ∧ ending = comma := by
  have entries : others.map Item.entry = items.map Item.entry := by
    have read := entries_of_derives otherDerives
    rw [entries_of_derives derives] at read
    exact (Prod.mk.inj read).1.symm
  generalize standing : text = otherText at otherDerives
  cases derives with
  | empty =>
      cases otherDerives with
      | empty => exact ⟨rfl, rfl⟩
      | items => cases entries
  | items blank spells later closes gap =>
      cases otherDerives with
      | empty => cases entries
      | items otherBlank otherSpells otherLater otherCloses otherGap =>
          have ends := ends_closing closes gap
          have otherEnds := ends_closing otherCloses otherGap
          have texts := eq_of_blank_append blank otherBlank (spells.stops_isBlank _)
            (otherSpells.stops_isBlank _) standing
          obtain ⟨rfl, onward⟩ :=
            spells.append_inj otherSpells (later.ends ends) (otherLater.ends otherEnds) texts
          have last := nextEntry?_closing closes gap
          have otherLast := nextEntry?_closing otherCloses otherGap
          obtain ⟨rfl, closings⟩ :=
            later.append_inj otherLater ends otherEnds last otherLast onward
          exact ⟨rfl, (closes.unique otherCloses gap otherGap closings).symm⟩

/-- A text derives from these items and from no others. -/
def DerivesOnly (items : List Item) (comma : Bool) (text : List Char) : Prop :=
  Derives items comma text ∧
    ∀ others ending, Derives others ending text → others = items ∧ ending = comma

theorem Derives.only {items : List Item} {comma : Bool} {text : List Char}
    (derives : Derives items comma text) : DerivesOnly items comma text :=
  ⟨derives, fun _ _ otherDerives => derives.unique otherDerives⟩

theorem entries_eq_nil_iff_derives (text : List Char) :
    (entries text).2 = [] ↔ ∃ items comma, Derives items comma text := by
  constructor
  · exact exists_derives_of_entries
  · rintro ⟨items, comma, derives⟩
    rw [entries_of_derives derives]

/-! ## Rules from items -/

variable [CharacterTable]

/-- The rule that an item states: with the pattern that its literal stands for, and the type of the
last word of its path. -/
inductive ItemBody.Makes (registry : Registry) : ItemBody → Rule → Prop where
  | default {path : Path} {type : ScanType} (notMarker : path.name ≠ "_")
      (found : registry.find? (.name path.name) = some type) :
      Makes registry (.type path) (.default type)
  | null {literal : Marked} {pattern : String} (stands : literal.StandsFor pattern.toList) :
      Makes registry (.pattern literal none) (.null pattern)
  | marked {literal : Marked} {path : Path} {pattern : String}
      (stands : literal.StandsFor pattern.toList) (isMarker : path.name = "_") :
      Makes registry (.pattern literal (some path)) (.null pattern)
  | custom {literal : Marked} {path : Path} {pattern : String} {type : ScanType}
      (stands : literal.StandsFor pattern.toList) (notMarker : path.name ≠ "_")
      (found : registry.find? (.name path.name) = some type) :
      Makes registry (.pattern literal (some path)) (.custom pattern type)

/-- The argument that an item states. -/
structure Item.Makes (registry : Registry) (item : Item) (argument : Argument) : Prop where
  name : argument.name = item.name.map fun word => String.ofList word.1
  rule : item.body.Makes registry argument.rule

variable {registry : Registry}

theorem ItemBody.makes_of_rule {item : Item} {rule : Rule}
    (made : item.entry.rule registry = .ok rule) : item.body.Makes registry rule := by
  obtain ⟨name, body⟩ := item
  cases body with
  | type path =>
      have made : (if path.name = "_" then .error (.fault .loneMarker)
        else (Entry.resolve registry path.name).map .default) = .ok rule := made
      split at made
      · cases made
      · next notMarker =>
          obtain ⟨type, found, rfl⟩ := Entry.exists_type_of_resolve made
          exact .default notMarker found
  | pattern literal path =>
      cases value : literal.literal.value? with
      | none => simp [Entry.rule, Item.entry, states, value] at made
      | some pattern =>
          cases path with
          | none =>
              simp only [Entry.rule, Item.entry, states, value, Option.map_none] at made
              cases made
              exact .null (Marked.value?_eq_some_iff.mp value)
          | some path =>
              simp only [Entry.rule, Item.entry, states, value, Option.map_some] at made
              split at made
              · next isMarker =>
                  cases made
                  exact .marked (Marked.value?_eq_some_iff.mp value) isMarker
              · next notMarker =>
                  obtain ⟨type, found, rfl⟩ := Entry.exists_type_of_resolve made
                  exact .custom (Marked.value?_eq_some_iff.mp value) notMarker found

end ListText

open ListText

variable [CharacterTable] {registry : Registry}

/-- A rule is never refused for what stands in no entry. -/
theorem ListText.Entry.rule_ne_malformed (entry : Entry) (c : Char) (text : String)
    (position : Nat) : entry.rule registry ≠ .error (.fault (.malformed c text position)) := by
  have resolved (name : String) (make : ScanType → Rule) :
      (resolve registry name).map make ≠ .error (.fault (.malformed c text position)) := by
    rw [map_resolve]
    split <;> simp
  unfold rule
  split
  · split
    · simp
    · exact resolved _ _
  · split
    · simp
    · simp
    · split
      · simp
      · exact resolved _ _

namespace Argument

theorem ofEntries_ne_malformed (entries : List Entry) (index : Nat) (named : Bool)
    (c : Char) (text : String) (position : Nat) :
    ofEntries registry index named entries ≠ .error (.fault (.malformed c text position)) := by
  induction entries generalizing index named with
  | nil => simp [ofEntries]
  | cons entry rest ih =>
      intro failed
      rw [ofEntries, bind_eq_error_iff] at failed
      rcases failed with alone | ⟨rule, _, failed⟩
      · exact entry.rule_ne_malformed c text position alone
      · split at failed
        · cases failed
        · rcases bind_eq_error_iff.mp failed with later | ⟨_, _, done⟩
          · exact ih _ _ later
          · cases done

/-- The arguments are those of the items, one for each. -/
theorem makes_of_ofEntries {items : List Item} {index : Nat} {named : Bool}
    {arguments : List Argument}
    (made : ofEntries registry index named (items.map Item.entry) = .ok arguments) :
    List.Forall₂ (Item.Makes registry) items arguments := by
  induction items generalizing index named arguments with
  | nil =>
      cases made
      exact .nil
  | cons item items ih =>
      rw [List.map_cons, ofEntries] at made
      obtain ⟨rule, ruleMade, made⟩ := exists_of_bind_eq_ok made
      split at made
      · cases made
      · obtain ⟨others, othersMade, made⟩ := exists_of_bind_eq_ok made
        cases made
        exact .cons ⟨rfl, ItemBody.makes_of_rule ruleMade⟩ (ih othersMade)

/-- The grammar takes all of a text exactly when the text derives from items.  A text that does not
is refused as malformed; any other derives from one list of items alone, and when these make
arguments, they are what is read. -/
theorem parseList_accepts_exactly_derived (registry : Registry) (text : String) :
    ((entries text.toList).2 = [] ↔ ∃ items comma, Derives items comma text.toList) ∧
      match parseList registry text with
      | .error (.fault (.malformed _ _ _)) => ∀ items comma, ¬ Derives items comma text.toList
      | .error _ => ∃ items comma, DerivesOnly items comma text.toList
      | .ok arguments =>
          ∃ items comma, DerivesOnly items comma text.toList ∧
            List.Forall₂ (Item.Makes registry) items arguments := by
  refine ⟨entries_eq_nil_iff_derives text.toList, ?_⟩
  cases left : (entries text.toList).2 with
  | cons c rest =>
      have refused : parseList registry text =
          .error (.fault (.malformed c text (text.length - (rest.length + 1)))) := by
        rw [parseList, show entries text.toList = ((entries text.toList).1, c :: rest) from
          Prod.ext rfl left]
      rw [refused]
      intro items comma derives
      rw [entries_of_derives derives] at left
      cases left
  | nil =>
      obtain ⟨items, comma, derives⟩ := exists_derives_of_entries left
      have taken : parseList registry text = ofEntries registry 0 false (items.map Item.entry) := by
        rw [parseList, entries_of_derives derives]
      cases made : ofEntries registry 0 false (items.map Item.entry) with
      | ok arguments =>
          rw [taken, made]
          exact ⟨items, comma, derives.only, makes_of_ofEntries made⟩
      | error failure =>
          rw [taken, made]
          split
          · next unread => exact absurd (made.trans unread) (ofEntries_ne_malformed _ 0 false _ _ _)
          · exact ⟨items, comma, derives.only⟩
          · next unread => cases unread

end Argument

end Unformat
