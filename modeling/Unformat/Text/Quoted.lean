import Unformat.Text.Hex
import Unformat.Text.Property.Printable

/-!
# Quoted text

`quote` writes a text so that it can be shown on one line: between quotation marks, with a
backslash escape for every character that is not printable. `unescape?` reads the inside of a
quoted literal; it knows more escapes than `quote` writes, and keeps the backslash of one it does
not know. Some of these call a character by its name, or by the number of a surrogate, which is no
character of a text: a table says what they come to.
-/

namespace Unformat.Text

/-- What is known about characters besides their numbers. -/
class CharacterTable where
  /-- The character of a name, as an escape writes the name. -/
  named? : List Char → Option Char
  /-- The character that stands for a surrogate. -/
  standIn : Nat → Char

namespace CharacterTable

/-- The table that knows no names, with the replacement character for every surrogate. -/
instance unnamed : CharacterTable where
  named? _ := none
  standIn _ := '\uFFFD'

/-- The character of a number below `0x110000`. -/
def character [CharacterTable] (value : Nat) : Char :=
  if value.isValidChar then Char.ofNat value else standIn value

end CharacterTable

namespace Quoted

/-- The mark to quote with: an apostrophe, unless the text has one and no double quote. -/
def delimiterFor (text : List Char) : Char :=
  if text.contains '\'' && !text.contains '"' then '"' else '\''

/-- The numeric escape of a character, in the shortest of its three widths. -/
def numericEscape (c : Char) : List Char :=
  if c.toNat < 0x100 then '\\' :: 'x' :: Hex.fixed 2 c.toNat
  else if c.toNat < 0x10000 then '\\' :: 'u' :: Hex.fixed 4 c.toNat
  else '\\' :: 'U' :: Hex.fixed 8 c.toNat

def escapeChar (delimiter c : Char) : List Char :=
  if c = delimiter ∨ c = '\\' then ['\\', c]
  else if c = '\n' then ['\\', 'n']
  else if c = '\r' then ['\\', 'r']
  else if c = '\t' then ['\\', 't']
  else if isPrintable c then [c]
  else numericEscape c

/-- A text between quotation marks. -/
def quoteChars (text : List Char) : List Char :=
  let delimiter := delimiterFor text
  delimiter :: text.flatMap (escapeChar delimiter) ++ [delimiter]

def quote (text : String) : String := String.ofList (quoteChars text.toList)

variable [CharacterTable]

/-- The character of exactly `width` hexadecimal digits at the front, and the rest. Digits of a
number that is too large are refused. -/
def numericCharacter? (width : Nat) (text : List Char) : Option (Char × List Char) :=
  let digits := text.take width
  let value := Hex.value digits
  if digits.length = width ∧ digits.all Hex.isDigit ∧ value < 0x110000 then
    some (CharacterTable.character value, text.drop width)
  else none

/-- The character called by the name in braces at the front, and the rest. -/
def namedCharacter? : List Char → Option (Char × List Char)
  | '\x7b' :: text =>
      let name := text.takeWhile (· != '\x7d')
      match text.drop name.length with
      | _ :: rest => (CharacterTable.named? name).map fun c => (c, rest)
      | [] => none
  | _ => none

def isOctal (c : Char) : Bool := '0' ≤ c && c ≤ '7'

/-- What the text after a backslash stands for, and the rest; `none` for a malformed escape. A
character that starts no escape keeps its backslash, an escaped line end stands for nothing, and
NUL is never allowed. -/
def escaped? : List Char → Option (List Char × List Char)
  | [] => none
  | 'n' :: rest => some (['\n'], rest)
  | 'r' :: rest => some (['\r'], rest)
  | 't' :: rest => some (['\t'], rest)
  | 'a' :: rest => some (['\x07'], rest)
  | 'b' :: rest => some (['\x08'], rest)
  | 'f' :: rest => some (['\x0c'], rest)
  | 'v' :: rest => some (['\x0b'], rest)
  | '\\' :: rest => some (['\\'], rest)
  | '\'' :: rest => some (['\''], rest)
  | '"' :: rest => some (['"'], rest)
  | '\r' :: '\n' :: rest => some ([], rest)
  | '\r' :: rest => some ([], rest)
  | '\n' :: rest => some ([], rest)
  | 'x' :: rest => (numericCharacter? 2 rest).map fun (c, rest) => ([c], rest)
  | 'u' :: rest => (numericCharacter? 4 rest).map fun (c, rest) => ([c], rest)
  | 'U' :: rest => (numericCharacter? 8 rest).map fun (c, rest) => ([c], rest)
  | 'N' :: rest => (namedCharacter? rest).map fun (c, rest) => ([c], rest)
  | c :: rest =>
      if isOctal c then
        let digits := ((c :: rest).take 3).takeWhile isOctal
        let value := digits.foldl (fun total d => total * 8 + (d.toNat - '0'.toNat)) 0
        some ([Char.ofNat value], (c :: rest).drop digits.length)
      else if c.toNat = 0 then none
      else some (['\\', c], rest)

/-- Whether a character cannot stand unescaped in a quoted literal: a line end or NUL. -/
def breaksLiteral (c : Char) : Bool := c == '\n' || c == '\r' || c.toNat == 0

/-- The text that the inside of a quoted literal stands for; `none` when it is malformed. Every
step shortens the text, so its length bounds their number. -/
def unescapeWithin : Nat → List Char → Option (List Char)
  | _, [] => some []
  | 0, _ => none
  | steps + 1, '\\' :: text => do
      let (characters, rest) ← escaped? text
      return characters ++ (← unescapeWithin steps rest)
  | steps + 1, c :: rest =>
      if breaksLiteral c then none
      else (unescapeWithin steps rest).map (c :: ·)

/-- The text that the inside of a quoted literal stands for; `none` when it is malformed. -/
def unescape? (inside : List Char) : Option (List Char) :=
  unescapeWithin inside.length inside

end Quoted

end Unformat.Text
