import Unformat.Plan.Cache
import Unformat.Scanner

/-!
# Sessions

A session keeps types, scanners, readers and iterations, the last three under names. Plans are
shared: scanners of the same template and the same rules have one plan, as long as the cache keeps
it, and its patterns are compiled once. Readers are shared too: a line reader reads from the reader
that it was put around, and what one of them consumes is gone for the other.
-/

namespace Unformat

/-- A plan of a session, and whether its patterns have been compiled yet. -/
structure SharedPlan where
  plan : Plan
  compiled : Except PatternFault CompiledPlan
  isCompiled : Bool := false

/-- A scanner of a session: the number of its plan, and its parameters. -/
structure ScannerEntry where
  plan : Nat
  config : Config

/-- A reader of a session: the number of its byte reader, and the numbers of the line readers
around it, the outermost first. -/
structure ReaderEntry where
  base : Nat
  lines : List Nat
  deriving Repr, DecidableEq

/-- How far an iteration has come. -/
inductive Progress where
  | lines (scan : LineScan)
  | repeated (scan : RepeatedScan)
  deriving Repr, DecidableEq

/-- An iteration of a session: the number of its plan, its reader, and how far it has come. -/
structure IterationEntry where
  plan : Nat
  reader : ReaderEntry
  progress : Progress

/-- The state of a session. Plans, byte readers and line readers are numbered in the order in which
they were made. -/
structure Session where
  registry : Registry := .builtin
  cache : Cache (String × RuleList) Nat := { capacity := 256 }
  plans : List SharedPlan := []
  bases : List ByteReader := []
  lineReaders : List Bool := []
  scanners : List (String × ScannerEntry) := []
  readers : List (String × ReaderEntry) := []
  iterations : List (String × IterationEntry) := []

namespace Session

/-- A step of a session, which may fail. What it has done by then stays done. -/
abbrev Action (α : Type) := ExceptT Failure (StateM Session) α

/-- A result as a step. -/
def yielding {α : Type} (result : Except Failure α) : Action α := fun session => (result, session)

/-- What is kept under a name. -/
def find {α : Type} (entries : List (String × α)) (name : String) : Action α :=
  yielding <| match entries.lookup name with
    | some entry => .ok entry
    | none => .error (.unknownName name)

/-- Keep something under a name, in place of what was kept there. -/
def keep {α : Type} (entries : List (String × α)) (name : String) (entry : α) :
    List (String × α) :=
  (name, entry) :: entries.filter (·.1 ≠ name)

def readRules [Text.CharacterTable] (text : String) : Action RuleList := do
  yielding (RuleList.read (← get).registry text)

def collectRules (specs : List Spec) (named : List (String × Spec)) : Action RuleList := do
  yielding (RuleList.collect (← get).registry specs named)

/-- Register a type under its name and its aliases. -/
def register (type : ScanType) (aliases : List Designator) (replace : Bool) : Action Unit := do
  match (← get).registry.register type aliases replace with
  | .ok registry => modify fun session => { session with registry }
  | .error fault => throw (.value (.taken fault))

def resolveType (spec : Spec) : Action ScanType := do
  yielding <| ((← get).registry.resolve spec).mapError fun fault => .ofFault (.argument fault)

/-- Drop the plans of the cache. Scanners keep theirs. -/
def clearCache : Action Unit := modify fun session => { session with cache := session.cache.clear }

end Session

end Unformat
