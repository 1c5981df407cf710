import Mathlib.Data.List.TakeWhile
import Unformat.Proofs.Template.Grammar
import Unformat.Proofs.Text.Joined
import Unformat.Proofs.Text.Quoted
import Unformat.Rule.ListText

/-!
# The grammar of rule lists

A rule list derives from items, which are the entries as they are written, blanks aside: with the
marks of literals and the paths of types.  What may come behind an entry tells where its last token
ends, so a text and the entry that it spells give back the item.
-/

namespace Unformat

open Template (IsIdentifier Stops stops_cons isIdentChar
  isIdentChar_of_isIdentStart eq_of_run_append_eq)
open Text (isBlank)
open Text.Quoted (IsMark)

namespace ListText

/-! ## Tokens -/

/-- A run of blanks, perhaps empty. -/
def Blank (run : List Char) : Prop := ∀ c ∈ run, isBlank c = true

abbrev Word : Type := { word : List Char // IsIdentifier word }

/-- A type by a path of words, of which the last one counts. -/
structure Path where
  first : Word
  others : List Word

namespace Path

/-- Words, each behind two colons. -/
def segments (words : List Word) : List Char := words.flatMap fun word => ':' :: ':' :: word.1

def text (path : Path) : List Char := path.first.1 ++ segments path.others

def last (path : Path) : Word := path.others.getLastD path.first

def name (path : Path) : String := String.ofList path.last.1

/-- The path of one word. -/
def ofWord (word : Word) : Path := ⟨word, []⟩

@[simp]
theorem text_ofWord (word : Word) : (ofWord word).text = word.1 := List.append_nil word.1

@[simp]
theorem name_ofWord (word : Word) : (ofWord word).name = String.ofList word.1 := rfl

end Path

/-- What may stand between the marks of a quoted literal: a backslash takes the next character with
it, which is no line feed. -/
inductive Inside (mark : Char) : List Char → Prop where
  | nil : Inside mark []
  | plain {c : Char} {rest : List Char} (notMark : c ≠ mark) (notBackslash : c ≠ '\\')
      (later : Inside mark rest) : Inside mark (c :: rest)
  | escape {c : Char} {rest : List Char} (sameLine : c ≠ '\n') (later : Inside mark rest) :
      Inside mark ('\\' :: c :: rest)

/-- A literal with its marks. -/
inductive Marked where
  | raw (letter mark : Char) (text : List Char) (isLetter : letter = 'r' ∨ letter = 'R')
      (isMark : IsMark mark) (within : mark ∉ text)
  | quoted (mark : Char) (inside : List Char) (isMark : IsMark mark) (within : Inside mark inside)

namespace Marked

def text : Marked → List Char
  | .raw letter mark text _ _ _ => letter :: mark :: (text ++ [mark])
  | .quoted mark inside _ _ => mark :: (inside ++ [mark])

/-- The literal without its marks. -/
def literal : Marked → Literal
  | .raw _ _ text _ _ _ => .raw text
  | .quoted _ inside _ _ => .quoted inside

end Marked

/-! ## Items -/

inductive ItemBody where
  | pattern (literal : Marked) (type : Option Path)
  | type (path : Path)

/-- An entry as it is written, blanks aside. -/
structure Item where
  name : Option Word
  body : ItemBody

/-- What an item states. -/
def ItemBody.states : ItemBody → Body
  | .pattern literal path => .pattern literal.literal (path.map Path.name)
  | .type path => .type path.name

/-- The entry that an item is read as. -/
def Item.entry (item : Item) : Entry :=
  ⟨item.name.map fun word => String.ofList word.1, item.body.states⟩

inductive ItemBody.Spells : ItemBody → List Char → Prop where
  | type (path : Path) : Spells (.type path) path.text
  | pattern (literal : Marked) : Spells (.pattern literal none) literal.text
  | typed (literal : Marked) (path : Path) {before between : List Char} (blank : Blank before)
      (gap : Blank between) (apart : between ≠ []) :
      Spells (.pattern literal (some path))
        (literal.text ++ (before ++ 'a' :: 's' :: (between ++ path.text)))

/-- A text spells an item, with blanks where they are allowed. -/
inductive Item.Spells : Item → List Char → Prop where
  | positional {body : ItemBody} {text : List Char} (spells : body.Spells text) :
      Spells ⟨none, body⟩ text
  | named (word : Word) {body : ItemBody} {before behind text : List Char} (blank : Blank before)
      (gap : Blank behind) (spells : body.Spells text) :
      Spells ⟨some word, body⟩ (word.1 ++ (before ++ '=' :: (behind ++ text)))

/-- A text spells further items, each behind a comma. -/
inductive SpellsMore : List Item → List Char → Prop where
  | nil : SpellsMore [] []
  | cons {item : Item} {items : List Item} {before behind text more : List Char}
      (blank : Blank before) (gap : Blank behind) (spells : item.Spells text)
      (later : SpellsMore items more) :
      SpellsMore (item :: items) (before ++ ',' :: (behind ++ (text ++ more)))

/-- A text spells the comma that may end a list. -/
inductive SpellsComma : Bool → List Char → Prop where
  | absent : SpellsComma false []
  | present {before : List Char} (blank : Blank before) : SpellsComma true (before ++ [','])

/-- A text derives from items; `comma` tells whether a comma ends them. -/
inductive Derives : List Item → (comma : Bool) → List Char → Prop where
  | empty {front behind : List Char} (blank : Blank front) (gap : Blank behind) :
      Derives [] false (front ++ behind)
  | items {item : Item} {items : List Item} {comma : Bool}
      {front text more closing behind : List Char} (blank : Blank front) (spells : item.Spells text)
      (later : SpellsMore items more) (closes : SpellsComma comma closing) (gap : Blank behind) :
      Derives (item :: items) comma (front ++ (text ++ (more ++ (closing ++ behind))))

/-! ## Blanks -/

theorem skipBlanks_append {run : List Char} (blank : Blank run) (rest : List Char) :
    skipBlanks (run ++ rest) = skipBlanks rest :=
  List.dropWhile_append_of_pos blank

theorem skipBlanks_of_stops {text : List Char} (stops : Stops isBlank text) :
    skipBlanks text = text := by
  cases text with
  | nil => rfl
  | cons c text => rw [skipBlanks, List.dropWhile_cons_of_neg (by simp [stops_cons.mp stops])]

theorem skipBlanks_cons {c : Char} (solid : isBlank c = false) (rest : List Char) :
    skipBlanks (c :: rest) = c :: rest := skipBlanks_of_stops (stops_cons.mpr solid)

/-- Behind blanks, a comma stays. -/
theorem skipBlanks_comma {run : List Char} (blank : Blank run) (rest : List Char) :
    skipBlanks (run ++ ',' :: rest) = ',' :: rest := by
  rw [skipBlanks_append blank, skipBlanks_cons (by decide)]

theorem exists_blank_append (text : List Char) :
    ∃ run, Blank run ∧ text = run ++ skipBlanks text :=
  ⟨text.takeWhile isBlank, fun _ member => List.mem_takeWhile_imp member,
    List.takeWhile_append_dropWhile.symm⟩

theorem skipBlanks_of_blank {run : List Char} (blank : Blank run) : skipBlanks run = [] := by
  have skipped := skipBlanks_append blank []
  rwa [List.append_nil] at skipped

theorem blank_of_skipBlanks {text : List Char} (nothing : skipBlanks text = []) : Blank text := by
  obtain ⟨run, blank, split⟩ := exists_blank_append text
  rw [nothing, List.append_nil] at split
  rwa [split]

theorem blank_singleton_space : Blank [' '] := by
  intro c member
  rw [List.mem_singleton.mp member]
  decide

theorem isBlank_of_isIdentChar {c : Char} (inside : isIdentChar c = true) : isBlank c = false := by
  have bounds : 48 ≤ c.toNat ∧ c.toNat < 128 := by
    rcases Bool.or_eq_true_iff.mp inside with starts | digit
    · rcases Bool.or_eq_true_iff.mp starts with underscore | letter
      · rw [beq_iff_eq.mp underscore]
        decide
      · have letterBounds := Template.isAlpha_iff_toNat.mp letter
        omega
    · have digitBounds : 48 ≤ c.toNat ∧ c.toNat ≤ 57 := Char.isDigit_iff_toNat.mp digit
      omega
  have different : c ≠ ' ' := by
    rintro rfl
    simp at bounds
  simp only [isBlank, if_pos bounds.2, Bool.or_eq_false_iff, Bool.and_eq_false_iff,
    decide_eq_false_iff_not, beq_eq_false_iff_ne]
  exact ⟨.inr (by omega), different⟩

/-! ## Where an entry ends -/

/-- An entry has ended: a comma comes behind the blanks, or nothing. -/
def Ends (behind : List Char) : Prop :=
  skipBlanks behind = [] ∨ ∃ more, skipBlanks behind = ',' :: more

theorem ends_nil : Ends [] := .inl rfl

theorem ends_cons (more : List Char) : Ends (',' :: more) :=
  .inr ⟨more, skipBlanks_cons (by decide) more⟩

/-- Behind an entry comes a blank or a comma, if anything does. -/
theorem Ends.head {behind : List Char} (ends : Ends behind) :
    ∀ c ∈ behind.head?, isBlank c = true ∨ c = ',' := by
  intro c member
  obtain ⟨rest, rfl⟩ : ∃ rest, behind = c :: rest := by
    cases behind with
    | nil => cases member
    | cons first rest => exact ⟨rest, by rw [Option.some.inj member]⟩
  by_cases blank : isBlank c = true
  · exact .inl blank
  · have still : skipBlanks (c :: rest) = c :: rest :=
      skipBlanks_cons (by simpa using blank) rest
    rcases ends with nothing | ⟨more, comma⟩
    · rw [still] at nothing
      cases nothing
    · rw [still] at comma
      exact .inr (List.head_eq_of_cons_eq comma)

/-- What an entry cannot end before is no character that another token may go on with. -/
theorem Ends.stops {behind : List Char} (ends : Ends behind) {continues : Char → Bool}
    (blank : ∀ c, isBlank c = true → continues c = false) (comma : continues ',' = false) :
    Stops continues behind := by
  intro c member
  rcases ends.head c member with isBlank | rfl
  · exact blank c isBlank
  · exact comma

theorem Ends.stops_isIdentChar {behind : List Char} (ends : Ends behind) :
    Stops isIdentChar behind := by
  apply ends.stops _ (by decide)
  intro c blank
  by_contra inside
  rw [isBlank_of_isIdentChar (by simpa using inside)] at blank
  cases blank

theorem Ends.stops_segments {behind : List Char} (ends : Ends behind) (words : List Word) :
    Stops isIdentChar (Path.segments words ++ behind) := by
  cases words with
  | nil => exact ends.stops_isIdentChar
  | cons word words => exact stops_cons.mpr (by decide)

theorem Ends.head_ne {behind : List Char} (ends : Ends behind) {c : Char}
    (solid : isBlank c = false) (notComma : c ≠ ',') (rest : List Char) : behind ≠ c :: rest := by
  rintro rfl
  rcases ends.head c rfl with blank | rfl
  · rw [solid] at blank
    cases blank
  · exact notComma rfl

theorem not_isMark_of_isBlank {c : Char} (blank : isBlank c = true) : ¬ IsMark c := by
  rintro (rfl | rfl)
  · exact absurd blank (by decide)
  · exact absurd blank (by decide)

theorem not_isMark_of_isIdentChar {c : Char} (inside : isIdentChar c = true) : ¬ IsMark c := by
  rintro (rfl | rfl)
  · exact absurd inside (by decide)
  · exact absurd inside (by decide)

theorem Ends.not_isMark_segments {behind : List Char} (ends : Ends behind) (words : List Word) :
    ∀ c ∈ (Path.segments words ++ behind).head?, ¬ IsMark c := by
  intro c member
  cases words with
  | nil =>
      rcases ends.head c member with blank | rfl
      · exact not_isMark_of_isBlank blank
      · decide
  | cons word words =>
      obtain rfl : ':' = c := Option.some.inj member
      decide

theorem stops_isBlank_word (word : Word) (behind : List Char) :
    Stops isBlank (word.1 ++ behind) := by
  obtain ⟨_ | ⟨first, others⟩, isIdentifier⟩ := word
  · exact isIdentifier.elim
  · exact stops_cons.mpr (isBlank_of_isIdentChar (isIdentChar_of_isIdentStart isIdentifier.1))

theorem stops_isBlank_path (path : Path) (behind : List Char) :
    Stops isBlank (path.text ++ behind) := by
  rw [Path.text, List.append_assoc]
  exact stops_isBlank_word path.first _

theorem stops_isBlank_literal (literal : Marked) (behind : List Char) :
    Stops isBlank (literal.text ++ behind) := by
  cases literal with
  | raw letter mark text isLetter isMark within =>
      rcases isLetter with rfl | rfl <;> exact stops_cons.mpr (by decide)
  | quoted mark inside isMark within =>
      rcases isMark with rfl | rfl <;> exact stops_cons.mpr (by decide)

/-! ## Items from their texts -/

theorem eq_of_blank_append {run other rest left : List Char} (blank : Blank run)
    (otherBlank : Blank other) (solid : Stops isBlank rest) (otherSolid : Stops isBlank left)
    (equal : run ++ rest = other ++ left) : rest = left :=
  (eq_of_run_append_eq blank otherBlank solid otherSolid equal).2

theorem Word.append_inj {word other : Word} {rest left : List Char}
    (stops : Stops isIdentChar rest) (otherStops : Stops isIdentChar left)
    (equal : word.1 ++ rest = other.1 ++ left) : word = other ∧ rest = left := by
  obtain ⟨same, behind⟩ :=
    eq_of_run_append_eq word.2.isIdentChar other.2.isIdentChar stops otherStops equal
  exact ⟨Subtype.ext same, behind⟩

theorem Path.stops_segments (words : List Word) : Stops isIdentChar (segments words) := by
  simpa using ends_nil.stops_segments words

theorem Path.segments_injective {words others : List Word}
    (equal : segments words = segments others) : words = others := by
  induction words generalizing others with
  | nil =>
      cases others with
      | nil => rfl
      | cons other others => cases equal
  | cons word words ih =>
      cases others with
      | nil => cases equal
      | cons other others =>
          have behind : word.1 ++ segments words = other.1 ++ segments others := by
            simpa [segments] using equal
          obtain ⟨rfl, later⟩ :=
            Word.append_inj (stops_segments words) (stops_segments others) behind
          rw [ih later]

theorem Path.text_injective {path other : Path} (equal : path.text = other.text) :
    path = other := by
  obtain ⟨first, words⟩ := path
  obtain ⟨otherFirst, others⟩ := other
  obtain ⟨rfl, behind⟩ := Word.append_inj (stops_segments words) (stops_segments others) equal
  rw [segments_injective behind]

theorem Marked.append_inj {marked other : Marked} {rest left : List Char}
    (same : marked.literal = other.literal)
    (equal : marked.text ++ rest = other.text ++ left) : marked = other ∧ rest = left := by
  cases marked with
  | raw letter mark text isLetter isMark within =>
      cases other with
      | quoted => cases same
      | raw =>
          cases same
          simp only [Marked.text, List.cons_append, List.cons.injEq] at equal
          obtain ⟨rfl, rfl, behind⟩ := equal
          exact ⟨rfl, List.append_cancel_left behind⟩
  | quoted mark inside isMark within =>
      cases other with
      | raw => cases same
      | quoted =>
          cases same
          simp only [Marked.text, List.cons_append, List.cons.injEq] at equal
          obtain ⟨rfl, behind⟩ := equal
          exact ⟨rfl, List.append_cancel_left behind⟩

theorem ItemBody.Spells.unique {body other : ItemBody} {text : List Char}
    (spells : body.Spells text) (otherSpells : other.Spells text)
    (same : body.states = other.states) : body = other := by
  generalize standing : text = otherText at otherSpells
  cases spells with
  | type path =>
      cases otherSpells with
      | type otherPath => rw [Path.text_injective standing]
      | pattern => exact Body.noConfusion same
      | typed => exact Body.noConfusion same
  | pattern literal =>
      cases otherSpells with
      | type => exact Body.noConfusion same
      | typed => cases (Body.pattern.inj same).2
      | pattern otherLiteral =>
          have literals : literal.literal = otherLiteral.literal := Body.pattern.inj same |>.1
          have equal : literal.text ++ [] = otherLiteral.text ++ [] := by
            rw [List.append_nil, List.append_nil, standing]
          rw [(Marked.append_inj literals equal).1]
  | typed literal path blank gap apart =>
      cases otherSpells with
      | type => exact Body.noConfusion same
      | pattern => cases (Body.pattern.inj same).2
      | typed otherLiteral otherPath otherBlank otherGap otherApart =>
          have literals : literal.literal = otherLiteral.literal := Body.pattern.inj same |>.1
          obtain ⟨rfl, clause⟩ := Marked.append_inj literals standing
          have letter (rest : List Char) : Stops isBlank ('a' :: rest) :=
            stops_cons.mpr (by decide)
          have behind := eq_of_blank_append blank otherBlank (letter _) (letter _) clause
          have solid (path : Path) : Stops isBlank path.text := by
            simpa using stops_isBlank_path path []
          simp only [List.cons.injEq, true_and] at behind
          rw [Path.text_injective
            (eq_of_blank_append gap otherGap (solid path) (solid otherPath) behind)]

theorem ItemBody.Spells.stops_isBlank {body : ItemBody} {text : List Char}
    (spells : body.Spells text) (behind : List Char) : Stops isBlank (text ++ behind) := by
  cases spells with
  | type path => exact stops_isBlank_path path behind
  | pattern literal => exact stops_isBlank_literal literal behind
  | typed literal path _ _ _ =>
      rw [List.append_assoc]
      exact stops_isBlank_literal literal _

theorem Item.Spells.stops_isBlank {item : Item} {text : List Char} (spells : item.Spells text)
    (behind : List Char) : Stops isBlank (text ++ behind) := by
  cases spells with
  | positional spells => exact spells.stops_isBlank behind
  | named word _ _ _ =>
      rw [List.append_assoc]
      exact stops_isBlank_word word _

/-- The entry that a text spells, and the text, give back the item. -/
theorem Item.Spells.unique {item other : Item} {text : List Char} (spells : item.Spells text)
    (otherSpells : other.Spells text) (same : item.entry = other.entry) : item = other := by
  have bodies : item.body.states = other.body.states := congrArg Entry.body same
  have names := congrArg Entry.name same
  generalize standing : text = otherText at otherSpells
  cases spells with
  | positional spells =>
      cases otherSpells with
      | positional otherSpells =>
          subst standing
          rw [spells.unique otherSpells bodies]
      | named => cases names
  | named word blank gap spells =>
      cases otherSpells with
      | positional => cases names
      | named other otherBlank otherGap otherSpells =>
          have words : word.1 = other.1 := String.ofList_injective (Option.some.inj names)
          obtain rfl : word = other := Subtype.ext words
          have sign (rest : List Char) : Stops isBlank ('=' :: rest) :=
            stops_cons.mpr (by decide)
          have behind := eq_of_blank_append blank otherBlank (sign _) (sign _)
            (List.append_cancel_left standing)
          simp only [List.cons.injEq, true_and] at behind
          have solid := spells.stops_isBlank []
          have otherSolid := otherSpells.stops_isBlank []
          rw [List.append_nil] at solid otherSolid
          have texts := eq_of_blank_append gap otherGap solid otherSolid behind
          subst texts
          rw [spells.unique otherSpells bodies]

/-! ## Items joined by commas -/

theorem spellsMore_flatMap {items : List Item} {texts : List (List Char)}
    (spells : List.Forall₂ Item.Spells items texts) :
    SpellsMore items (texts.flatMap ([',', ' '] ++ ·)) := by
  induction spells with
  | nil => exact .nil
  | cons one _ ih => exact .cons (List.forall_mem_nil _) blank_singleton_space one ih

theorem derives_intercalate {items : List Item} {texts : List (List Char)}
    (spells : List.Forall₂ Item.Spells items texts) :
    Derives items false ([',', ' '].intercalate texts) := by
  have nothing : Blank [] := List.forall_mem_nil _
  cases spells with
  | nil => exact .empty nothing nothing
  | cons one others =>
      have derives := Derives.items nothing one (spellsMore_flatMap others) .absent nothing
      rw [intercalate_cons_eq]
      simpa using derives

end ListText

end Unformat
