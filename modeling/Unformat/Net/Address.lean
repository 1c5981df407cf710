import Unformat.Net.Ipv6

/-!
# IP addresses of either family
-/

namespace Unformat

inductive Address where
  | v4 (address : Ipv4)
  | v6 (address : Ipv6)
  deriving Repr, DecidableEq

namespace Address

/-- The address that a text spells: an IPv4 one if it can be read so, else an IPv6 one. -/
def parse? (text : List Char) : Option Address :=
  match Ipv4.parse text with
  | .ok address => some (.v4 address)
  | .error _ =>
      match Ipv6.parse text with
      | .ok address => some (.v6 address)
      | .error _ => none

def text : Address → String
  | .v4 address => address.text
  | .v6 address => address.text

end Address

end Unformat
