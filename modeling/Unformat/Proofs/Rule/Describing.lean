import Unformat.Proofs.Rule.Spelling
import Unformat.Proofs.Text.Quoted

/-!
# Reading back the description of a rule list

The description of a rule list that was read is read as the same rule list. Each argument is written
as one item, so the description derives from these items: a pattern ends at its mark, because every
mark inside is escaped.
-/

namespace Unformat

open Template (IsIdentifier)
open Text (CharacterTable)
open Text.Quoted (IsMark Spelling escapeChar delimiterFor quoteChars)

/-- What the description of a rule states. -/
def Rule.body (rule : Rule) : ListText.Body :=
  match rule.ownPattern? with
  | none => .type rule.typeName
  | some pattern =>
      .pattern (.quoted (pattern.toList.flatMap (escapeChar (delimiterFor pattern.toList))))
        (some rule.typeName)

/-- The entry that the description of an argument is read as. -/
def Argument.entry (argument : Argument) : ListText.Entry := ⟨argument.name, argument.rule.body⟩

variable {registry : Registry}

theorem Rule.isIdentifier_typeName {rule : Rule} (readable : rule.Readable registry) :
    IsIdentifier rule.typeName.toList := by
  cases rule with
  | default type => exact (readable type rfl).isIdentifier
  | custom pattern type => exact (readable type rfl).isIdentifier
  | null pattern => exact (by decide : IsIdentifier "_".toList)

namespace ListText

/-! ## Patterns -/

theorem Inside.append {mark : Char} {inside more : List Char} (within : Inside mark inside)
    (later : Inside mark more) : Inside mark (inside ++ more) := by
  induction within with
  | nil => exact later
  | plain notMark notBackslash _ ih => exact .plain notMark notBackslash ih
  | escape sameLine _ ih => exact .escape sameLine ih

/-- Characters that neither end a literal nor escape another stand for themselves. -/
theorem inside_of_plain {mark : Char} {run : List Char}
    (plain : ∀ c ∈ run, c ≠ mark ∧ c ≠ '\\') : Inside mark run := by
  induction run with
  | nil => exact .nil
  | cons c run ih =>
      obtain ⟨⟨notMark, notBackslash⟩, runPlain⟩ := List.forall_mem_cons.mp plain
      exact .plain notMark notBackslash (ih runPlain)

theorem ne_of_mem_fixed {mark : Char} (isMark : IsMark mark) {width number : Nat} :
    ∀ c ∈ Text.Hex.fixed width number, c ≠ mark ∧ c ≠ '\\' := by
  have all : ∀ digit < 16, Nat.digitChar digit ≠ '\'' ∧ Nat.digitChar digit ≠ '"' ∧
      Nat.digitChar digit ≠ '\\' := by
    decide
  intro c member
  obtain ⟨digit, small, rfl⟩ := Text.Hex.exists_digit_of_mem_fixed member
  obtain ⟨notSingle, notDouble, notBackslash⟩ := all digit small
  rcases isMark with rfl | rfl
  · exact ⟨notSingle, notBackslash⟩
  · exact ⟨notDouble, notBackslash⟩

/-- A character that is written in one of the ways does not end the literal. -/
theorem inside_of_spelling {mark c : Char} (isMark : IsMark mark) {spelled : List Char}
    (spelling : Spelling mark c spelled) : Inside mark spelled := by
  cases spelling with
  | masked special =>
      have sameLine : c ≠ '\n' := by
        rintro rfl
        rcases special with rfl | backslash
        · rcases isMark with single | double
          · cases single
          · cases double
        · cases backslash
      exact .escape sameLine .nil
  | @lettered letter _ listed =>
      have sameLine : letter ≠ '\n' := by
        rintro rfl
        simp [Text.Quoted.letters] at listed
      exact .escape sameLine .nil
  | @numeric letter _ width listed enough =>
      have sameLine : letter ≠ '\n' := by
        rintro rfl
        simp [Text.Quoted.widths] at listed
      exact .escape sameLine (inside_of_plain (ne_of_mem_fixed isMark))
  | plain notMark notBackslash _ => exact .plain notMark notBackslash .nil

theorem inside_escaped {mark : Char} (isMark : IsMark mark) (text : List Char) :
    Inside mark (text.flatMap (escapeChar mark)) := by
  induction text with
  | nil => exact .nil
  | cons c text ih =>
      exact (inside_of_spelling isMark (Text.Quoted.spelling_escapeChar mark c)).append ih

/-- The literal by which a description gives a pattern. -/
def Marked.quote (pattern : List Char) : Marked :=
  .quoted (delimiterFor pattern) (pattern.flatMap (escapeChar (delimiterFor pattern)))
    (Text.Quoted.isMark_delimiterFor pattern)
    (inside_escaped (Text.Quoted.isMark_delimiterFor pattern) pattern)

theorem Marked.value?_quote [CharacterTable] (pattern : String) :
    (quote pattern.toList).literal.value? = some pattern := by
  rw [quote, literal, Literal.value?,
    Text.Quoted.unescape?_escaped (Text.Quoted.isMark_delimiterFor pattern.toList),
    Option.map_some, String.ofList_toList]

/-! ## Items from descriptions -/

theorem toList_describe_of_default {rule : Rule} (own : rule.ownPattern? = none) :
    rule.describe.toList = rule.typeName.toList := by
  rw [Rule.describe, own]

theorem toList_describe_of_pattern {rule : Rule} {pattern : String}
    (own : rule.ownPattern? = some pattern) :
    rule.describe.toList =
      quoteChars pattern.toList ++ (" as ".toList ++ rule.typeName.toList) := by
  rw [Rule.describe, own]
  simp [Text.Quoted.quote, toString]

theorem toList_describe_named (name : String) (rule : Rule) :
    (Argument.describe ⟨some name, rule⟩).toList =
      name.toList ++ (" = ".toList ++ rule.describe.toList) := by
  simp [Argument.describe, toString]

theorem exists_body_of_describe {rule : Rule} (readable : rule.Readable registry) :
    ∃ body : ItemBody, body.Spells rule.describe.toList ∧ body.states = rule.body := by
  let word : Word := ⟨rule.typeName.toList, rule.isIdentifier_typeName readable⟩
  have named : (Path.ofWord word).name = rule.typeName := by simp [word]
  cases own : rule.ownPattern? with
  | none =>
      refine ⟨.type (.ofWord word), ?_, ?_⟩
      · have spells := ItemBody.Spells.type (.ofWord word)
        rw [toList_describe_of_default own]
        rwa [Path.text_ofWord] at spells
      · rw [Rule.body, own, ItemBody.states, named]
  | some pattern =>
      refine ⟨.pattern (.quote pattern.toList) (some (.ofWord word)), ?_, ?_⟩
      · have spells := ItemBody.Spells.typed (.quote pattern.toList) (.ofWord word)
          blank_singleton_space blank_singleton_space (by simp)
        rw [toList_describe_of_pattern own]
        rwa [Path.text_ofWord] at spells
      · rw [Rule.body, own, ItemBody.states, Option.map_some, named]
        rfl

/-- A description spells the item that its argument is read as. -/
theorem exists_item_of_describe {argument : Argument} (readable : argument.Readable registry) :
    ∃ item : Item, item.Spells argument.describe.toList ∧ item.entry = argument.entry := by
  obtain ⟨name, rule⟩ := argument
  obtain ⟨body, spells, states⟩ := exists_body_of_describe readable.rule
  cases name with
  | none => exact ⟨⟨none, body⟩, .positional spells, by rw [Item.entry, states]; rfl⟩
  | some name =>
      let word : Word := ⟨name.toList, readable.name name rfl⟩
      refine ⟨⟨some word, body⟩, ?_, ?_⟩
      · rw [toList_describe_named]
        exact .named word blank_singleton_space blank_singleton_space spells
      · rw [Item.entry, states, Option.map_some, String.ofList_toList]
        rfl

/-! ## Lists of entries -/

theorem exists_items_of_describe {arguments : List Argument}
    (readable : ∀ argument ∈ arguments, argument.Readable registry) :
    ∃ items, List.Forall₂ Item.Spells items (arguments.map fun one => one.describe.toList) ∧
      items.map Item.entry = arguments.map Argument.entry := by
  induction arguments with
  | nil => exact ⟨[], .nil, rfl⟩
  | cons argument rest ih =>
      obtain ⟨argumentReadable, restReadable⟩ := List.forall_mem_cons.mp readable
      obtain ⟨item, spells, same⟩ := exists_item_of_describe argumentReadable
      obtain ⟨items, later, others⟩ := ih restReadable
      refine ⟨item :: items, .cons spells later, ?_⟩
      rw [List.map_cons, List.map_cons, same, others]

theorem entries_describe {rules : RuleList}
    (readable : ∀ argument ∈ rules.arguments, argument.Readable registry) :
    entries rules.describe.toList = (rules.arguments.map Argument.entry, []) := by
  obtain ⟨items, spells, same⟩ := exists_items_of_describe readable
  have derives : Derives items false rules.describe.toList := by
    rw [RuleList.describe, String.toList_intercalate, List.map_map]
    exact derives_intercalate spells
  rw [entries_of_derives derives, same]

end ListText

/-! ## The same rules -/

namespace RuleList

theorem extend_positional (before rules : List Rule) (index : Nat) (rest : List Argument) :
    extend ⟨before, []⟩ index (rules.map (⟨none, ·⟩) ++ rest) =
      extend ⟨before ++ rules, []⟩ (index + rules.length) rest := by
  induction rules generalizing before index with
  | nil => simp
  | cons rule rules ih =>
      have later := ih (before ++ [rule]) (index + 1)
      rw [List.append_assoc, Nat.add_assoc, Nat.add_comm 1] at later
      exact later

theorem extend_named (positional : List Rule) (before named : List (String × Rule)) (index : Nat) :
    extend ⟨positional, before⟩ index (named.map fun (name, rule) => ⟨some name, rule⟩) =
      .ok ⟨positional, before ++ named⟩ := by
  induction named generalizing before index with
  | nil => simp [extend]
  | cons entry named ih =>
      have later := ih (before ++ [entry]) (index + 1)
      rw [List.append_assoc] at later
      exact later

theorem ofArguments_arguments (rules : RuleList) : ofArguments rules.arguments = .ok rules := by
  rw [ofArguments, arguments, extend_positional]
  exact extend_named rules.positional [] rules.named _

theorem pairwise_arguments (rules : RuleList) :
    rules.arguments.Pairwise fun first second => first.name.isSome → second.name.isSome := by
  rw [arguments, List.pairwise_append, List.pairwise_map, List.pairwise_map]
  refine ⟨?_, ?_, ?_⟩
  · exact List.pairwise_of_forall fun _ _ none => by cases none
  · exact List.pairwise_of_forall fun _ _ _ => rfl
  · intro first _ second member _
    obtain ⟨entry, _, rfl⟩ := List.mem_map.mp member
    rfl

end RuleList

section Tables

variable [CharacterTable]

theorem Argument.rule_entry {argument : Argument} (readable : argument.Readable registry) :
    argument.entry.rule registry = .ok argument.rule := by
  obtain ⟨name, rule⟩ := argument
  have unescaped (pattern : String) : ListText.Literal.value?
      (.quoted (pattern.toList.flatMap (escapeChar (delimiterFor pattern.toList)))) =
        some pattern :=
    ListText.Marked.value?_quote pattern
  cases rule with
  | default type =>
      have names := readable.rule type rfl
      have states : (Argument.entry ⟨name, .default type⟩).body = .type type.name := rfl
      simp only [ListText.Entry.rule, states, if_neg names.ne_marker, ListText.Entry.resolve,
        names.found]
      rfl
  | custom pattern type =>
      have names := readable.rule type rfl
      -- the name written is the own name of the type, which leads to it whatever alias was read
      have states : (Argument.entry ⟨name, .custom pattern type⟩).body =
          .pattern (.quoted (pattern.toList.flatMap (escapeChar (delimiterFor pattern.toList))))
            (some type.name) := rfl
      simp only [ListText.Entry.rule, states, unescaped, if_neg names.ne_marker,
        ListText.Entry.resolve, names.found]
      rfl
  | null pattern =>
      have states : (Argument.entry ⟨name, .null pattern⟩).body =
          .pattern (.quoted (pattern.toList.flatMap (escapeChar (delimiterFor pattern.toList))))
            (some "_") := rfl
      simp only [ListText.Entry.rule, states, unescaped, if_true]

theorem Argument.ofEntries_map_entry {arguments : List Argument}
    (readable : ∀ argument ∈ arguments, argument.Readable registry)
    (ordered : arguments.Pairwise fun first second => first.name.isSome → second.name.isSome)
    (index : Nat) {named : Bool}
    (behind : named = true → ∀ argument ∈ arguments, argument.name.isSome) :
    ofEntries registry index named (arguments.map entry) = .ok arguments := by
  induction arguments generalizing index named with
  | nil => rfl
  | cons argument rest ih =>
      obtain ⟨argumentReadable, restReadable⟩ := List.forall_mem_cons.mp readable
      obtain ⟨first, restOrdered⟩ := List.pairwise_cons.mp ordered
      have later : (named || argument.name.isSome) = true → ∀ other ∈ rest, other.name.isSome := by
        intro before other member
        rcases Bool.or_eq_true_iff.mp before with earlier | here
        · exact behind earlier other (List.mem_cons_of_mem _ member)
        · exact first other member here
      have inOrder : ¬ (named = true ∧ argument.entry.name = none) := by
        rintro ⟨earlier, unnamed⟩
        have isNamed := behind earlier argument List.mem_cons_self
        rw [show argument.name = none from unnamed] at isNamed
        cases isNamed
      have others : ofEntries registry (index + 1) (named || argument.entry.name.isSome)
          (rest.map entry) = .ok rest := ih restReadable restOrdered (index + 1) later
      rw [List.map_cons, ofEntries, rule_entry argumentReadable, others]
      simp only [bind, Except.bind, if_neg inOrder]
      rfl

theorem RuleList.parse_describe_of_readable {rules : RuleList}
    (readable : ∀ argument ∈ rules.arguments, argument.Readable registry) :
    parse registry rules.describe = .ok rules := by
  have read : Argument.parseList registry rules.describe = .ok rules.arguments := by
    rw [Argument.parseList, ListText.entries_describe readable]
    exact Argument.ofEntries_map_entry readable rules.pairwise_arguments 0 (by simp)
  rw [parse, read]
  simp only [bind, Except.bind, ofArguments_arguments]
  rfl

/-- The description of a rule list that was read from a text is read as the same rule list: the same
positional and named rules, in the same order. This holds with the built-in types, and with any
types that a text can name by their own names. -/
theorem RuleList.parse_describe :
    (∀ text rules, parse .builtin text = .ok rules → parse .builtin rules.describe = .ok rules) ∧
      ∀ registry : Registry, registry.NamesItsTypes →
        ∀ text rules, parse registry text = .ok rules →
          parse registry rules.describe = .ok rules := by
  have general : ∀ registry : Registry, registry.NamesItsTypes →
      ∀ text rules, parse registry text = .ok rules → parse registry rules.describe = .ok rules :=
    fun registry names text rules accepted =>
      parse_describe_of_readable (readable_of_parse names accepted)
  exact ⟨general .builtin Registry.namesItsTypes_builtin, general⟩

end Tables

namespace RuleList

/-- Types that cannot be named by their own names are not described so that they can be read: one
whose name is no identifier, under an alias that is one. -/
theorem parse_describe_fails_for_alias :
    let type : ScanType := { name := "a b", conversion := .text, defaultPattern := some "a" }
    ∃ registry, Registry.builtin.register type [.name "c"] = .ok registry ∧
      parse registry "c" = .ok ⟨[.default type], []⟩ ∧
      parse registry (describe ⟨[.default type], []⟩) ≠ .ok ⟨[.default type], []⟩ :=
  ⟨_, rfl, by decide +kernel, by decide +kernel⟩

/-- A raw pattern with a mark and a backslash, a type by the path of an alias, a pattern that needs
the other mark and an escape, and a named type. -/
theorem parse_describe_of_mixed_entries :
    parse .builtin "r'a\"\\w' as core::str, x = \"\\u0001'\", y = f32," =
        .ok ⟨[.custom "a\"\\w" .string], [("x", .null "\x01'"), ("y", .default .real)]⟩ ∧
      parse .builtin "'a\"\\\\w' as String, x = \"\\x01'\" as _, y = f64" =
        .ok ⟨[.custom "a\"\\w" .string], [("x", .null "\x01'"), ("y", .default .real)]⟩ := by
  have read : parse .builtin "r'a\"\\w' as core::str, x = \"\\u0001'\", y = f32," =
      .ok ⟨[.custom "a\"\\w" .string], [("x", .null "\x01'"), ("y", .default .real)]⟩ := by
    decide +kernel
  have shown : describe
      ⟨[.custom "a\"\\w" .string], [("x", .null "\x01'"), ("y", .default .real)]⟩ =
        "'a\"\\\\w' as String, x = \"\\x01'\" as _, y = f64" := by
    decide +kernel
  have again := parse_describe.1 _ _ read
  rw [shown] at again
  exact ⟨read, again⟩

end RuleList

end Unformat
