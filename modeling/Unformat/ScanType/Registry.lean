import Unformat.ScanType.Basic

/-!
# The registry of types

A registry maps designators to types. A designator is a name, or a kind of value that the calling
program has. A name or kind is taken once, unless its type is to be replaced.
-/

namespace Unformat

open Text (Quoted.quote)

/-- A kind of value of the calling program. -/
inductive HostKind where
  | int
  | str
  | float
  | bool
  | path
  | ipv4Address
  | ipv6Address
  | complex
  | bytes
  | list
  deriving Repr, DecidableEq

namespace HostKind

def name : HostKind → String
  | .int => "int"
  | .str => "str"
  | .float => "float"
  | .bool => "bool"
  | .path => "Path"
  | .ipv4Address => "IPv4Address"
  | .ipv6Address => "IPv6Address"
  | .complex => "complex"
  | .bytes => "bytes"
  | .list => "list"

/-- The kind with the module that it belongs to. -/
def shown : HostKind → String
  | .path => "<class 'pathlib.Path'>"
  | .ipv4Address => "<class 'ipaddress.IPv4Address'>"
  | .ipv6Address => "<class 'ipaddress.IPv6Address'>"
  | kind => s!"<class '{kind.name}'>"

end HostKind

/-- What a type may be called by. -/
inductive Designator where
  | name (text : String)
  | kind (host : HostKind)
  deriving Repr, DecidableEq

def Designator.shown : Designator → String
  | .name text => Quoted.quote text
  | .kind host => host.shown

/-- The types that are known, by designator. -/
structure Registry where
  entries : List (Designator × ScanType)

namespace Registry

def find? (registry : Registry) (designator : Designator) : Option ScanType :=
  registry.entries.lookup designator

/-- Put a type under a designator, in place of the one that stands there. -/
def insert (registry : Registry) (designator : Designator) (type : ScanType) : Registry :=
  if registry.entries.any (·.1 = designator) then
    ⟨registry.entries.map fun entry => if entry.1 = designator then (designator, type) else entry⟩
  else ⟨registry.entries ++ [(designator, type)]⟩

/-- Put a type under several designators. -/
def insertAll (registry : Registry) (designators : List Designator) (type : ScanType) : Registry :=
  designators.foldl (fun registry designator => registry.insert designator type) registry

/-- Designators that have a type already. -/
structure Taken where
  designators : List Designator
  deriving Repr, DecidableEq

def Taken.message (taken : Taken) : String :=
  "type name(s) already registered: [" ++
    ", ".intercalate (taken.designators.map Designator.shown) ++ "]"

/-- Register a type under its name and its aliases. Unless types are to be replaced, none of the
designators may be taken. -/
def register (registry : Registry) (type : ScanType) (aliases : List Designator)
    (replace : Bool := false) : Except Taken Registry :=
  let designators := .name type.name :: aliases
  let taken := designators.filter fun designator => (registry.find? designator).isSome
  if replace ∨ taken = [] then .ok (registry.insertAll designators type)
  else .error ⟨taken⟩

/-- The registered names, in increasing order. -/
def names (registry : Registry) : List String :=
  (registry.entries.filterMap fun
    | (.name text, _) => some text
    | (.kind _, _) => none).mergeSort fun a b => decide (a ≤ b)

/-- The built-in types with their aliases. -/
def builtinTypes : List (ScanType × List Designator) :=
  [(.boolean, [.kind .bool]),
   (.character, []),
   (.string, [.name "str", .kind .str])] ++
  ScanType.integers.map (fun type =>
    (type, if type.name = "int" then [.kind .int] else [])) ++
  [(.real, [.name "f32", .name "float", .kind .float]),
   (.ipv4, [.name "ipv4", .kind .ipv4Address]),
   (.ipv6, [.name "ipv6", .kind .ipv6Address]),
   (.address, [.name "ip"]),
   (.path, [.name "path", .kind .path]),
   (.systemText, []),
   (.socket, [.name "socket"]),
   (.socketV4, []),
   (.socketV6, [])]

def builtin : Registry :=
  ⟨builtinTypes.flatMap fun (type, aliases) =>
    (.name type.name :: aliases).map fun designator => (designator, type)⟩

end Registry

end Unformat
