import Unformat.Pattern.Basic
import Unformat.Pattern.Fault

/-!
# Tokens of a pattern

The parts that a pattern text consists of: tests on a character (a character, an escape, a set in
brackets), conditions on a place, repetition marks, and the marks that open, divide and close
groups. A token does not know yet whether the pattern ignores case.
-/

namespace Unformat.Pattern

open Text

/-- What a group does. -/
inductive GroupKind where
  | plain
  | ahead (negated : Bool)
  | atomic
  deriving Repr, DecidableEq

/-- How a pattern reads characters. -/
structure Options where
  ignoreCase : Bool := false
  dotMatchesAll : Bool := false
  deriving Repr, DecidableEq

/-- Options to switch on and options to switch off. -/
structure OptionChange where
  on : Options := {}
  off : Options := {}
  deriving Repr, DecidableEq

def OptionChange.apply (change : OptionChange) (options : Options) : Options where
  ignoreCase := (options.ignoreCase || change.on.ignoreCase) && !change.off.ignoreCase
  dotMatchesAll :=
    (options.dotMatchesAll || change.on.dotMatchesAll) && !change.off.dotMatchesAll

/-- A part of a pattern text. -/
inductive Token where
  | dot
  | test (test : CharTest)
  | place (condition : Place)
  | repetition (count : Repetition) (possessive : Bool)
  | opening (kind : GroupKind) (change : OptionChange)
  /-- Options for the whole pattern. -/
  | options (change : OptionChange)
  | bar
  | closing
  /-- A reference to what a group matched. -/
  | reference
  deriving Repr, DecidableEq

/-- A reader of part of a pattern: the result and the text after it, or the mistake with the
length of the text after the place that it is reported at. -/
abbrev Scan (α : Type) := List Char → Except (Mistake × Nat) (α × List Char)

/-! ## Escapes -/

/-- The escapes that stand for one control character. -/
def controlEscapes : List (Char × Char) :=
  [('a', '\x07'), ('b', '\x08'), ('f', '\x0c'), ('n', '\n'), ('r', '\r'), ('t', '\t'),
   ('v', '\x0b')]

/-- The escapes that stand for a class of characters. -/
def classEscapes : List (Char × CharTest) :=
  [('d', .property .decimalDigit), ('D', .negate (.property .decimalDigit)),
   ('h', .property .horizontalBlank),
   ('s', .property .blank), ('S', .negate (.property .blank)),
   ('w', .property .word), ('W', .negate (.property .word))]

/-- The escapes that stand for a condition on a place. -/
def placeEscapes : List (Char × Place) :=
  [('A', .start), ('b', .wordBoundary), ('B', .noWordBoundary), ('Z', .finish)]

/-- The escapes that are followed by a fixed number of hexadecimal digits. -/
def hexEscapes : List (Char × Nat) := [('x', 2), ('u', 4), ('U', 8)]

def isOctal (c : Char) : Bool := '0' ≤ c && c ≤ '7'

def octalValue (digits : List Char) : Nat := Nat.ofDigitChars 8 digits 0

/-- The character of a hexadecimal escape after its letter. -/
def hexEscape (letter : Char) (width : Nat) : Scan CharTest := fun text =>
  let digits := (text.take width).takeWhile Hex.isDigit
  let shown := String.ofList (letter :: digits)
  if digits.length < width then .error (.incompleteEscape shown, text.length)
  else if Hex.value digits < 0x110000 then
    .ok (.ofCodePoint (Hex.value digits), text.drop width)
  else .error (.badHexEscape shown, text.length)

/-- An octal escape of up to three digits, the first of which is `c`. -/
def octalEscape (c : Char) : Scan CharTest := fun text =>
  let digits := c :: (text.take 2).takeWhile isOctal
  let rest := text.drop (digits.length - 1)
  if isOctal c then .ok (.ofCodePoint (octalValue digits), rest)
  else .error (.badEscape c, rest.length)

/-- A character or class that an escape stands for inside a set; the backslash has been read. -/
def setEscape : Scan CharTest
  | [] => .error (.endInEscape, 0)
  | c :: rest =>
      match hexEscapes.lookup c, classEscapes.lookup c, controlEscapes.lookup c with
      | some width, _, _ => hexEscape c width rest
      | _, some test, _ => .ok (test, rest)
      | _, _, some control => .ok (.char control, rest)
      | none, none, none =>
          if c.isAlpha then .error (.badEscape c, rest.length)
          else if c.isDigit then octalEscape c rest
          else .ok (.char c, rest)

/-- A digit escape outside of sets: three octal digits, or the number of a group. -/
def digitEscape (c : Char) : Scan Token := fun rest =>
  match rest with
  | second :: third :: after =>
      if isOctal c ∧ isOctal second ∧ isOctal third then
        .ok (.test (.ofCodePoint (octalValue [c, second, third])), after)
      else if second.isDigit then .ok (.reference, third :: after)
      else .ok (.reference, rest)
  | [second] => .ok (.reference, if second.isDigit then [] else rest)
  | [] => .ok (.reference, rest)

/-- What an escape stands for outside of sets; the backslash has been read. -/
def escape : Scan Token
  | [] => .error (.endInEscape, 0)
  | c :: rest =>
      match placeEscapes.lookup c with
      | some condition => .ok (.place condition, rest)
      | none =>
          if c = '0' then (octalEscape c rest).map fun (test, rest) => (.test test, rest)
          else if c.isDigit then digitEscape c rest
          else (setEscape (c :: rest)).map fun (test, rest) => (.test test, rest)

/-! ## Sets -/

/-- The classes that a set may name between `[:` and `:]`. -/
def namedClasses : List (String × CharProperty) :=
  [("ALPHA", .alphabetic), ("DIGIT", .asciiDigit), ("ALNUM", .alphanumeric), ("UPPER", .upper),
   ("LOWER", .lower), ("SPACE", .blank), ("BLANK", .horizontalBlank), ("PUNCT", .punctuation),
   ("XDIGIT", .hexDigit), ("WORD", .word), ("CNTRL", .control)]

/-- A character of the name of a class. -/
def isClassNameChar (c : Char) : Bool :=
  c.isAlphanum || c == ' ' || c == '&' || c == '_' || c == '-' || c == '.' || c == '/'

/-- The name of a class without regard to case, blanks and hyphens. -/
def className (name : List Char) : String :=
  String.ofList ((name.filter fun c => c != ' ' && c != '_' && c != '-').map Char.toUpper)

/-- A named class, of which `[:` has been read; `none` when the text is not of that form. -/
def namedClass? (text : List Char) : Option (Except (Mistake × Nat) (CharTest × List Char)) :=
  let (negated, text) := match text with
    | '^' :: rest => (true, rest)
    | _ => (false, text)
  match text.dropWhile isClassNameChar with
  | ':' :: ']' :: rest =>
      some <| match namedClasses.lookup (className (text.takeWhile isClassNameChar)) with
        | none => .error (.unknownProperty, rest.length)
        | some property =>
            .ok (if negated then .negate (.property property) else .property property, rest)
  | _ => none

/-- One item of a set: a character, an escape or a named class. -/
def setItem : Scan CharTest
  | [] => .error (.unterminatedSet, 0)
  | '\\' :: rest => setEscape rest
  | '[' :: ':' :: rest =>
      match namedClass? rest with
      | some result => result
      | none => .ok (.char '[', ':' :: rest)
  | c :: rest => .ok (.char c, rest)

/-- One member of a set: an item, or a range between two characters. A hyphen that makes no range
stands for itself. -/
def setMember : Scan CharTest := fun text => do
  let (first, rest) ← setItem text
  match first, rest with
  | .char low, '-' :: after =>
      match after with
      | ']' :: _ => return (.either first (.char '-'), after)
      | _ =>
          let (second, rest) ← setItem after
          match second with
          | .char high =>
              if high < low then throw (.badRange, rest.length)
              else return (.range low high, rest)
          | _ => return (.either first (.either (.char '-') second), rest)
  | _, _ => return (first, rest)

/-- The members of a set up to its closing bracket. Each takes up text, so the length of the text
bounds their number. -/
def setMembers : Nat → Scan CharTest
  | 0, _ => .error (.unterminatedSet, 0)
  | steps + 1, text => do
      let (first, rest) ← setMember text
      match rest with
      | ']' :: rest => return (first, rest)
      | _ =>
          let (others, rest) ← setMembers steps rest
          return (.either first others, rest)

/-- A set, of which the opening bracket has been read. A closing bracket in front is a member. -/
def set : Scan CharTest
  | '^' :: rest => (setMembers (rest.length + 1) rest).map fun (test, rest) => (.negate test, rest)
  | text => setMembers (text.length + 1) text

/-! ## Repetition marks -/

/-- The limits of a repetition in braces, of which the opening brace has been read; `none` when the
text is not of that form, so that the brace stands for itself. -/
def braces? (text : List Char) : Option (Nat × Option Nat × List Char) :=
  let least := text.takeWhile Char.isDigit
  match text.dropWhile Char.isDigit with
  | ',' :: rest =>
      let most := rest.takeWhile Char.isDigit
      match rest.dropWhile Char.isDigit with
      | '\x7d' :: rest =>
          some (Nat.ofDigitChars 10 least 0,
            if most = [] then none else some (Nat.ofDigitChars 10 most 0), rest)
      | _ => none
  | '\x7d' :: rest =>
      if least = [] then none
      else
        let count := Nat.ofDigitChars 10 least 0
        some (count, some count, rest)
  | _ => none

def repetitionLimit : Nat := Nat.pow 2 32 - 1

/-- A repetition, with the mark that may follow it. -/
def repeated (least : Nat) (most : Option Nat) (text : List Char) : Token × List Char :=
  match text with
  | '?' :: rest => (.repetition ⟨least, most, .shortest⟩ false, rest)
  | '+' :: rest => (.repetition ⟨least, most, .longest⟩ true, rest)
  | _ => (.repetition ⟨least, most, .longest⟩ false, text)

/-- A repetition in braces, of which the opening brace has been read, or the brace itself. -/
def braced : Scan Token := fun text =>
  match braces? text with
  | none => .ok (.test (.char '\x7b'), text)
  | some (least, most, rest) =>
      if repetitionLimit ≤ least ∨ most.any (repetitionLimit ≤ ·) then
        .error (.tooManyRepeats, text.length)
      else if most.any (· < least) then .error (.leastAboveMost, text.length)
      else .ok (repeated least most rest)

/-! ## Groups -/

/-- The options that a run of letters switches. -/
def optionLetters : List Char → Options × List Char
  | 'i' :: rest =>
      let (options, rest) := optionLetters rest
      ({ options with ignoreCase := true }, rest)
  | 's' :: rest =>
      let (options, rest) := optionLetters rest
      ({ options with dotMatchesAll := true }, rest)
  | text => ({}, text)

def optionChange (text : List Char) : OptionChange × List Char :=
  let (on, rest) := optionLetters text
  match rest with
  | '-' :: rest =>
      let (off, rest) := optionLetters rest
      ({ on, off }, rest)
  | _ => ({ on }, rest)

/-- The opening of a group, of which the parenthesis has been read. -/
def groupStart : Scan Token
  | '?' :: '=' :: rest => .ok (.opening (.ahead false) {}, rest)
  | '?' :: '!' :: rest => .ok (.opening (.ahead true) {}, rest)
  | '?' :: '>' :: rest => .ok (.opening .atomic {}, rest)
  | '?' :: text =>
      match optionChange text with
      | (change, ':' :: rest) => .ok (.opening .plain change, rest)
      | (change, ')' :: rest) => .ok (.options change, rest)
      | (_, rest) => .error (.unknownExtension, rest.length)
  | text => .ok (.opening .plain {}, text)

/-! ## All tokens -/

/-- The token that begins with `c`, which has been read. -/
def token (c : Char) : Scan Token := fun rest =>
  match c with
  | '\\' => escape rest
  | '[' => (set rest).map fun (test, rest) => (.test test, rest)
  | '(' => groupStart rest
  | ')' => .ok (.closing, rest)
  | '|' => .ok (.bar, rest)
  | '.' => .ok (.dot, rest)
  | '^' => .ok (.place .start, rest)
  | '$' => .ok (.place .lineFinish, rest)
  | '?' => .ok (repeated 0 (some 1) rest)
  | '*' => .ok (repeated 0 none rest)
  | '+' => .ok (repeated 1 none rest)
  | '\x7b' => braced rest
  | _ => .ok (.test (.char c), rest)

end Unformat.Pattern
