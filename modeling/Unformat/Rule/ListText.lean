import Unformat.Rule.Basic
import Unformat.Text.Property.Blank
import Unformat.Template.Parse

/-!
# The text of a rule list

A rule list is written as entries separated by commas; a comma may end it. An entry is a type, or a
pattern that may be followed by `as` and a type, and a name with an equals sign may stand before
either. A pattern is a literal in quotes, with escapes, or a raw literal, in which everything up to
the next quote stands for itself. A type is an identifier; of a path of identifiers the last counts.

Reading takes the longest run of entries that the grammar allows; what is left over, if anything,
is the mistake. Only then do the entries become rules, in the order of the text.
-/

namespace Unformat

open Text (CharacterTable Quoted.unescape? isBlank)
open Template (isIdentStart isIdentChar)

namespace ListText

/-- A pattern as it is written. -/
inductive Literal where
  | raw (text : List Char)
  | quoted (inside : List Char)
  deriving Repr, DecidableEq

/-- What an entry states: a pattern and perhaps a type, or a type alone. -/
inductive Body where
  | pattern (literal : Literal) (type : Option String)
  | type (name : String)
  deriving Repr, DecidableEq

/-- One entry of a rule list. -/
structure Entry where
  name : Option String
  body : Body
  deriving Repr, DecidableEq

/-- A taker takes something from the front of a text, and gives it with the rest. -/
abbrev Taker (α : Type) := List Char → Option (α × List Char)

/-- The text without the blanks in front. -/
def skipBlanks (text : List Char) : List Char := text.dropWhile isBlank

def ident? : Taker (List Char) := fun text =>
  if text.head?.any isIdentStart then
    some (text.takeWhile isIdentChar, text.dropWhile isIdentChar)
  else none

theorem length_dropWhile_le {α : Type} (p : α → Bool) (items : List α) :
    (items.dropWhile p).length ≤ items.length :=
  (List.dropWhile_suffix p).length_le

theorem length_ident?_lt {text rest word : List Char} (found : ident? text = some (word, rest)) :
    rest.length < text.length := by
  unfold ident? at found
  split at found
  · rename_i starts
    simp only [Option.some.injEq, Prod.mk.injEq] at found
    obtain ⟨_, rfl⟩ := found
    cases text with
    | nil => simp at starts
    | cons c text =>
        have inside : isIdentChar c = true := by
          simp only [List.head?_cons, Option.any_some] at starts
          simp [isIdentChar, starts]
        have bound := length_dropWhile_le isIdentChar text
        simp only [List.dropWhile, inside, List.length_cons]
        omega
  · simp at found

/-- The last identifier of a path of which `last` has been read. -/
def pathEnd (last text : List Char) : List Char × List Char :=
  match text with
  | ':' :: ':' :: after =>
      match _found : ident? after with
      | some (word, rest) => pathEnd word rest
      | none => (last, text)
  | _ => (last, text)
termination_by text.length
decreasing_by
  have shorter := length_ident?_lt _found
  simp only [List.length_cons]
  omega

/-- A type: the last identifier of a path. -/
def type? : Taker String := fun text =>
  (ident? text).map fun (word, rest) =>
    let (last, rest) := pathEnd word rest
    (String.ofList last, rest)

def name? : Taker String := fun text => do
  let (word, rest) ← ident? text
  match skipBlanks rest with
  | '=' :: rest => some (String.ofList word, skipBlanks rest)
  | _ => none

/-- The inside of a raw literal that ends at `mark`. -/
def rawInside? (mark : Char) : Taker (List Char) := fun text =>
  match text.dropWhile (· != mark) with
  | _ :: rest => some (text.takeWhile (· != mark), rest)
  | [] => none

/-- The inside of a quoted literal that ends at `mark`. A backslash takes the next character with
it, which must not be a line feed. -/
def quotedInside? (mark : Char) : Taker (List Char)
  | [] => none
  | '\\' :: '\n' :: _ => none
  | '\\' :: c :: text =>
      (quotedInside? mark text).map fun (inside, rest) => ('\\' :: c :: inside, rest)
  | c :: text =>
      if c = mark then some ([], text)
      else (quotedInside? mark text).map fun (inside, rest) => (c :: inside, rest)

def literal? : Taker Literal := fun text =>
  match text with
  | r :: mark :: inside =>
      if (r = 'r' ∨ r = 'R') ∧ (mark = '"' ∨ mark = '\'') then
        (rawInside? mark inside).map fun (text, rest) => (.raw text, rest)
      else if r = '"' ∨ r = '\'' then
        (quotedInside? r (mark :: inside)).map fun (text, rest) => (.quoted text, rest)
      else none
  | _ => none

/-- The type after a pattern, behind `as` and blanks. -/
def asType? : Taker String := fun text =>
  match skipBlanks text with
  | 'a' :: 's' :: c :: rest => if isBlank c then type? (skipBlanks rest) else none
  | _ => none

/-- What an entry states. -/
def body? : Taker Body := fun text =>
  match literal? text with
  | some (literal, rest) =>
      match asType? rest with
      | some (type, rest) => some (.pattern literal (some type), rest)
      | none => some (.pattern literal none, rest)
  | none => (type? text).map fun (type, rest) => (.type type, rest)

/-- One entry. A name that has been read belongs to it for good. -/
def entry? : Taker Entry := fun text =>
  match name? text with
  | some (name, rest) => (body? rest).map fun (body, rest) => (⟨some name, body⟩, rest)
  | none => (body? text).map fun (body, rest) => (⟨none, body⟩, rest)

/-- A comma and the entry behind it, blanks allowed. -/
def nextEntry? : Taker Entry := fun text =>
  match skipBlanks text with
  | ',' :: rest => entry? (skipBlanks rest)
  | _ => none

/-- Further entries, as many as follow; each takes up text. -/
def moreEntries (text : List Char) : List Entry × List Char :=
  match nextEntry? text with
  | none => ([], text)
  | some (entry, rest) =>
      if rest.length < text.length then
        let (entries, rest) := moreEntries rest
        (entry :: entries, rest)
      else ([entry], rest)
termination_by text.length

/-- The text behind a comma that ends the list. -/
def skipComma (text : List Char) : List Char :=
  match skipBlanks text with
  | ',' :: rest => rest
  | _ => text

/-- The entries that a text begins with, and what is left over. -/
def entries (text : List Char) : List Entry × List Char :=
  let text := skipBlanks text
  match entry? text with
  | none => ([], text)
  | some (entry, rest) =>
      let (more, rest) := moreEntries rest
      (entry :: more, skipBlanks (skipComma rest))

end ListText

variable [CharacterTable]

namespace ListText.Literal

/-- The pattern that a literal stands for. -/
def value? : Literal → Option String
  | .raw text => some (String.ofList text)
  | .quoted inside => (Quoted.unescape? inside).map String.ofList

end ListText.Literal

namespace ListText.Entry

def resolve (registry : Registry) (name : String) : Except ArgumentFailure ScanType :=
  match registry.find? (.name name) with
  | some type => .ok type
  | none => .error (.fault (.unknownType name))

def rule (registry : Registry) (entry : Entry) : Except ArgumentFailure Rule :=
  match entry.body with
  | .type name =>
      if name = "_" then .error (.fault .loneMarker)
      else (resolve registry name).map .default
  | .pattern literal type =>
      match literal.value?, type with
      | none, _ => .error .malformedLiteral
      | some pattern, none => .ok (.null pattern)
      | some pattern, some name =>
          if name = "_" then .ok (.null pattern)
          else (resolve registry name).map (.custom pattern)

end ListText.Entry

namespace Argument

/-- The arguments of the entries from the `index`-th on; `named` tells whether an entry with a name
came before them. -/
def ofEntries (registry : Registry) (index : Nat) (named : Bool) :
    List ListText.Entry → Except ArgumentFailure (List Argument)
  | [] => .ok []
  | entry :: rest => do
      let rule ← entry.rule registry
      if named ∧ entry.name = none then throw (.fault (.positionalAfterNamed index))
      let rest ← ofEntries registry (index + 1) (named || entry.name.isSome) rest
      return ⟨entry.name, rule⟩ :: rest

/-- The arguments that a text states. -/
def parseList (registry : Registry) (text : String) : Except ArgumentFailure (List Argument) :=
  match ListText.entries text.toList with
  | (entries, []) => ofEntries registry 0 false entries
  | (_, c :: rest) =>
      .error (.fault (.malformed c text (text.length - (rest.length + 1))))

end Argument

def RuleList.parse (registry : Registry) (text : String) : Except ArgumentFailure RuleList := do
  let arguments ← Argument.parseList registry text
  match ofArguments arguments with
  | .ok rules => return rules
  | .error fault => throw (.fault fault)

end Unformat
