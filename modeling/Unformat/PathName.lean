/-!
# Path names

A path is kept in a normal form: no empty and no `.` component, and a root of no, one or two
slashes. Exactly two leading slashes are kept, for they may mean something of their own; more are
the same as one. A `..` component stays, as it cannot be resolved without looking at the disk.
-/

namespace Unformat

/-- A normalised path: the number of leading slashes and the components. -/
structure PathName where
  root : Nat
  components : List String
  deriving Repr, DecidableEq

namespace PathName

def parse (text : List Char) : PathName :=
  let slashes := (text.takeWhile (· == '/')).length
  { root := if slashes = 0 then 0 else if slashes = 2 then 2 else 1
    components := ((text.splitOn '/').filter fun part => part ≠ [] ∧ part ≠ ['.']).map
      String.ofList }

/-- The text of the path; the empty path is the current directory. -/
def text (path : PathName) : String :=
  if path.root = 0 ∧ path.components = [] then "."
  else String.ofList (List.replicate path.root '/') ++ "/".intercalate path.components

/-- Components walked one after the other from the given ones, which stand in reverse: a `..` goes
up, and stays where it is at the root. -/
def walk : List String → List String → List String
  | done, [] => done.reverse
  | done, part :: rest => walk (if part = ".." then done.drop 1 else part :: done) rest

/-- The path as seen from a directory, without `..`. -/
def resolve (directory path : PathName) : PathName :=
  if path.root = 0 then
    { directory with components := walk directory.components.reverse path.components }
  else { path with components := walk [] path.components }

def isBelow (directory path : PathName) : Bool :=
  directory.root == path.root && directory.components.isPrefixOf path.components &&
    directory.components.length < path.components.length

end PathName

end Unformat
