import Unformat.Conversion

/-!
# Types of values

A scan type has a name, a conversion and perhaps a default pattern, which a rule that names only
the type matches with. The built-in types are listed here; the patterns of the address types are
wider than the addresses, so the conversion has the last word.
-/

namespace Unformat

structure ScanType where
  name : String
  conversion : Conversion
  defaultPattern : Option String := none
  deriving Repr, BEq

namespace ScanType

/-- The type with its kind. -/
def shown (type : ScanType) : String := s!"ScanType({type.name})"

def hasDefault (type : ScanType) : Bool := type.defaultPattern.isSome

end ScanType

namespace DefaultPattern

def boolean : String := "true|false"

/-- Any character but a line feed. -/
def character : String := "."

def word : String := "\\w+"

/-- Digits after an optional plus sign. -/
def unsigned : String := "\\+?[0-9]+"

def signed : String := "[+-]?[0-9]+"

/-- A decimal fraction or a special name, after an optional sign. -/
def real : String :=
  "[+-]?(?:(?i:inf|nan)|(?:[0-9]+\\.?[0-9]*|\\.[0-9]+)(?:e[+-]?[0-9]+)?)"

def ipv4 : String := "(?:[0-9]\x7b1,3\x7d\\.)\x7b3\x7d[0-9]\x7b1,3\x7d"

def hexGroup : String := "[0-9a-fA-F]\x7b1,4\x7d"

/-- Six groups and an IPv4 tail, groups with a gap and an IPv4 tail, eight groups, or groups with a
gap, tried in this order. -/
def ipv6 : String :=
  "(?:" ++ hexGroup ++ ":)\x7b6\x7d" ++ ipv4 ++
  "|(?:(?:" ++ hexGroup ++ ":)*" ++ hexGroup ++ ")?::(?:" ++ hexGroup ++ ":)*" ++ ipv4 ++
  "|(?:" ++ hexGroup ++ ":)\x7b7\x7d" ++ hexGroup ++
  "|(?:(?:" ++ hexGroup ++ ":)*" ++ hexGroup ++ ")?::(?:" ++ hexGroup ++ "(?::" ++ hexGroup ++
    ")*)?"

def address : String := ipv6 ++ "|" ++ ipv4

end DefaultPattern

namespace ScanType

/-- A built-in integer type. -/
def ofIntegers (name : String) (signed : Bool) (bits : Option Nat) (nonzero : Bool) : ScanType where
  name := name
  conversion := .integer { signed, bits, nonzero }
  defaultPattern := some (if signed then DefaultPattern.signed else DefaultPattern.unsigned)

/-- The four integer types of a width, whose name ends in `suffix`. -/
def integersOfWidth (bits : Nat) (suffix : String) : List ScanType :=
  [ofIntegers ("i" ++ suffix) true (some bits) false,
   ofIntegers ("u" ++ suffix) false (some bits) false,
   ofIntegers ("NonZeroI" ++ suffix) true (some bits) true,
   ofIntegers ("NonZeroU" ++ suffix) false (some bits) true]

def integers : List ScanType :=
  integersOfWidth 8 "8" ++ integersOfWidth 16 "16" ++ integersOfWidth 32 "32" ++
  integersOfWidth 64 "64" ++ integersOfWidth 128 "128" ++ integersOfWidth 64 "size" ++
  [ofIntegers "int" true none false, ofIntegers "uint" false none false]

def boolean : ScanType := ⟨"bool", .boolean, some DefaultPattern.boolean⟩

def character : ScanType := ⟨"char", .character, some DefaultPattern.character⟩

def string : ScanType := ⟨"String", .text, some DefaultPattern.word⟩

def real : ScanType := ⟨"f64", .real, some DefaultPattern.real⟩

def ipv4 : ScanType := ⟨"Ipv4Addr", .ipv4, some DefaultPattern.ipv4⟩

def ipv6 : ScanType := ⟨"Ipv6Addr", .ipv6, some DefaultPattern.ipv6⟩

def address : ScanType := ⟨"IpAddr", .address, some DefaultPattern.address⟩

/-- Path names, which need a pattern. -/
def path : ScanType := ⟨"PathBuf", .path, none⟩

/-- Texts as the system has them, which need a pattern. -/
def systemText : ScanType := ⟨"OsString", .text, none⟩

/-- Addresses of either family with a port, which need a pattern. -/
def socket : ScanType := ⟨"SocketAddr", .socket, none⟩

/-- IPv4 addresses with a port, which need a pattern. -/
def socketV4 : ScanType := ⟨"SocketAddrV4", .socketV4, none⟩

/-- IPv6 addresses with a port, which need a pattern. -/
def socketV6 : ScanType := ⟨"SocketAddrV6", .socketV6, none⟩

end ScanType

end Unformat
