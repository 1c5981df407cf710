import Unformat.Session.Basic

/-!
# The readers of a session

An operation on a reader takes its byte reader and its line readers out of the session, runs, and
puts them back, so that all readers which share them see what it did.
-/

namespace Unformat

/-- Where a step of a session reads from. -/
inductive Input where
  | source (source : Source)
  /-- The reader of a name. -/
  | reader (name : String)
  deriving Repr, DecidableEq

namespace Session

def reader (name : String) : Action ReaderEntry := do find (← get).readers name

def addReader (reader : Reader) : Action ReaderEntry := do
  let session ← get
  let first := session.lineReaders.length
  set { session with
    bases := session.bases ++ [reader.base]
    lineReaders := session.lineReaders ++ reader.lines }
  return {
    base := session.bases.length
    lines := (List.range reader.lines.length).map (first + ·) }

def addLineReader (inner : ReaderEntry) : Action ReaderEntry := do
  let number := (← get).lineReaders.length
  modify fun session => { session with lineReaders := session.lineReaders ++ [false] }
  return { inner with lines := number :: inner.lines }

/-- The reader of an input. A new one is made for a source, of which a read asks for `size`
bytes. -/
def openInput (size : Int) : Input → Action ReaderEntry
  | .reader name => reader name
  | .source source => do addReader (← yielding (Reader.ofSource size source))

/-- The present state of a reader. -/
def loadReader (session : Session) (entry : ReaderEntry) : Reader where
  base := (session.bases[entry.base]?).getD { pending := [] }
  lines := entry.lines.map fun number => (session.lineReaders[number]?).getD false

/-- Put a reader back in its new state. -/
def storeReader (entry : ReaderEntry) (reader : Reader) (session : Session) : Session :=
  { session with
    bases := session.bases.set entry.base reader.base
    lineReaders := (entry.lines.zip reader.lines).foldl
      (fun flags (number, done) => flags.set number done) session.lineReaders }

/-- Run an operation on a reader. -/
def withReader {α : Type} (entry : ReaderEntry) (operation : Reader → α × Reader) : Action α := do
  let session ← get
  let (result, reader) := operation (session.loadReader entry)
  set (session.storeReader entry reader)
  return result

def onReader {α : Type} (name : String) (operation : Reader → Except ReaderFault α × Reader) :
    Action α := do
  let result ← withReader (← reader name) operation
  yielding (result.mapError .ofReader)

/-- Run a step of a scan on the reader of a name. -/
def scanning {α : Type} (name : String) (step : Scanning α) : Action α := do
  let result ← withReader (← reader name) step.run.run
  yielding (result.mapError .ofStop)

def consumed (name : String) : Action Nat := do
  return ((← get).loadReader (← reader name)).consumed

/-- The kind of a reader, by its name. -/
def readerKind (entry : ReaderEntry) : String :=
  if entry.lines = [] then "ByteReader" else "LineReader"

/-- Make a reader: of bytes, or by lines. A byte reader reads from sources only. -/
def makeReader (name : String) (input : Input) (size : Int) (byLine : Bool) : Action Unit := do
  let entry ←
    if byLine then addLineReader (← openInput size input)
    else match input with
      | .source _ => openInput size input
      | .reader inner =>
          let entry ← reader inner
          if size < 1 then throw (.value (.bufferSize size))
          else throw (.unreadable (readerKind entry))
  modify fun session => { session with readers := keep session.readers name entry }

end Session

end Unformat
