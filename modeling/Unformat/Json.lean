import Unformat.Number.Shortest
import Unformat.Text.Hex

/-!
# JSON text

The JSON values that the program writes, and their text: one line, a space after each comma and
colon, and an escape for every character that is not visible ASCII. Characters beyond the first
plane are written as a surrogate pair. The special doubles are written by their names, which
standard JSON does not have.
-/

namespace Unformat

/-- A JSON value. The members of an object keep their order. -/
inductive Json where
  | null
  | bool (value : Bool)
  | int (value : Int)
  | real (value : Binary64)
  | text (value : String)
  | array (items : List Json)
  | object (members : List (String × Json))

namespace Json

/-- One UTF-16 unit as an escape. -/
def unitEscape (unit : Nat) : List Char := '\\' :: 'u' :: Text.Hex.fixed 4 unit

def escapeChar (c : Char) : List Char :=
  if c = '"' ∨ c = '\\' then ['\\', c]
  else if c = '\n' then ['\\', 'n']
  else if c = '\r' then ['\\', 'r']
  else if c = '\t' then ['\\', 't']
  else if c = '\x08' then ['\\', 'b']
  else if c = '\x0c' then ['\\', 'f']
  else if ' ' ≤ c ∧ c ≤ '~' then [c]
  else if c.toNat < 0x10000 then unitEscape c.toNat
  else
    let offset := c.toNat - 0x10000
    unitEscape (0xD800 + offset / 0x400) ++ unitEscape (0xDC00 + offset % 0x400)

def quote (text : String) : String :=
  String.ofList ('"' :: text.toList.flatMap escapeChar ++ ['"'])

def realText : Binary64 → String
  | .nan => "NaN"
  | .infinite negative => if negative then "-Infinity" else "Infinity"
  | finite => finite.text

mutual

def render : Json → String
  | .null => "null"
  | .bool value => if value then "true" else "false"
  | .int value => toString value
  | .real value => realText value
  | .text value => quote value
  | .array items => "[" ++ ", ".intercalate (renderItems items) ++ "]"
  | .object members => "\x7b" ++ ", ".intercalate (renderMembers members) ++ "\x7d"

def renderItems : List Json → List String
  | [] => []
  | item :: items => render item :: renderItems items

/-- The texts of the members of an object, each a key, a colon and a value. -/
def renderMembers : List (String × Json) → List String
  | [] => []
  | (key, value) :: members => (quote key ++ ": " ++ render value) :: renderMembers members

end

end Json

end Unformat
