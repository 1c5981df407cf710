import Unformat.Json
import Unformat.Net.Address
import Unformat.PathName
import Unformat.Text.Quoted

/-!
# Values

What a capture yields, and its texts: `plain` is the bare text of a value, `shown` the text that
also tells its kind, and `toJson` its JSON form, in which addresses and paths are strings.
-/

namespace Unformat

open Text (Quoted.quote)

inductive Value where
  | bool (value : Bool)
  | int (value : Int)
  | real (value : Binary64)
  | text (value : String)
  | ipv4 (address : Ipv4)
  | ipv6 (address : Ipv6)
  | path (name : PathName)
  | socket (host : Address) (port : Nat)
  deriving Repr, DecidableEq

def Address.shown : Address → String
  | .v4 address => s!"IPv4Address({Quoted.quote address.text})"
  | .v6 address => s!"IPv6Address({Quoted.quote address.text})"

namespace Value

def ofAddress : Address → Value
  | .v4 address => .ipv4 address
  | .v6 address => .ipv6 address

/-- The text of a value that also tells its kind. -/
def shown : Value → String
  | .bool value => if value then "True" else "False"
  | .int value => toString value
  | .real value => value.text
  | .text value => Quoted.quote value
  | .ipv4 address => (Address.v4 address).shown
  | .ipv6 address => (Address.v6 address).shown
  | .path name => s!"PosixPath({Quoted.quote name.text})"
  | .socket host port => s!"({host.shown}, {port})"

def plain : Value → String
  | .text value => value
  | .ipv4 address => address.text
  | .ipv6 address => address.text
  | .path name => name.text
  | other => other.shown

def toJson : Value → Json
  | .bool value => .bool value
  | .int value => .int value
  | .real value => .real value
  | .text value => .text value
  | .ipv4 address => .text address.text
  | .ipv6 address => .text address.text
  | .path name => .text name.text
  | .socket host port => .array [.text host.text, .int port]

/-- A row of values with their kinds, in parentheses; a row of one ends in a comma. -/
def rowShown : List Value → String
  | [value] => "(" ++ value.shown ++ ",)"
  | values => "(" ++ ", ".intercalate (values.map shown) ++ ")"

end Value

end Unformat
