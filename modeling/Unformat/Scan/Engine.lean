import Unformat.Input.Reader
import Unformat.Plan.Compile
import Unformat.Scan.Fault

/-!
# Running a plan

A plan runs over a reader from its first segment to its last. A literal has to stand in the text at
hand, of which more is read while it agrees with the literal so far. A capture takes what its
pattern matches; while the match reaches to the end of the text at hand, or wants more than that,
more is read and the match is tried again, so that a value is seen whole however the reads cut it.
Only the longest well-formed prefix of the bytes at hand is ever looked at. What has matched stays
consumed when a later segment fails.
-/

namespace Unformat

open Text

namespace Scan

/-- Why a run stops before its end. -/
inductive Stop where
  /-- A pattern of the plan cannot be read; nothing has been consumed. -/
  | pattern (fault : PatternFault)
  /-- The text does not match. -/
  | fault (diagnostic : Diagnostic ScanFault)
  /-- The reader fails. -/
  | reader (fault : ReaderFault)
  deriving Repr, DecidableEq

end Scan

/-- A step of a run: it uses up a reader, and may stop. -/
abbrev Scanning (α : Type) := ExceptT Scan.Stop (StateM Reader) α

namespace Scan

/-- An operation on the reader as a step. -/
def onReader {α : Type} (operation : Reader → Except ReaderFault α × Reader) : Scanning α :=
  fun reader =>
    let (result, reader) := operation reader
    (result.mapError .reader, reader)

/-- Stop for a fault of the text. -/
def stop {α : Type} (fault : ScanFault) : Scanning α := throw (.fault (.of fault))

def peek : Scanning (List UInt8) := onReader Reader.peek

/-- Read once more. Tells whether bytes were added. -/
def fill : Scanning Bool := onReader Reader.fill

def consumeText (text : List Char) : Scanning Unit :=
  onReader fun reader => reader.consume (Utf8.encode text).length

/-- The text of the longest well-formed prefix. Malformed bytes at the front are a fault at the
place that the reader has come to. -/
def decode (bytes : List UInt8) : Scanning (List Char) := fun reader =>
  match Utf8.longestPrefix bytes with
  | .ok text => (.ok text, reader)
  | .error offending =>
      (.error (.fault (.of (.malformed offending (some reader.consumed)))), reader)

/-- The text at hand, after at most `steps` further reads while only the beginning of a character
is at hand. -/
def textWithin : Nat → Scanning (List Char)
  | 0 => do decode (← peek)
  | steps + 1 => do
      let bytes ← peek
      let text ← decode bytes
      if text.isEmpty && !bytes.isEmpty then
        if ← fill then textWithin steps else return text
      else return text

/-- The number of reads that may still bring something. -/
def pendingReads : Scanning Nat := return (← get).pendingReads

/-- The text at hand, read until it has a character, if one is to come. -/
def text : Scanning (List Char) := do textWithin (← pendingReads)

def matchRemaining (literal : String) (remaining : List Char) : Scanning Unit :=
  if remaining.isEmpty then pure ()
  else do
    let shown ← text
    if remaining.isPrefixOf shown then consumeText remaining
    else match shown.isPrefixOf? remaining with
      | some rest =>
          if rest.length < remaining.length then
            consumeText shown
            matchRemaining literal rest
          else stop (.literalMismatch literal)
      | none => stop (.literalMismatch literal)
termination_by remaining.length

def matchLiteral (literal : String) : Scanning Unit := matchRemaining literal literal.toList

/-- Whether more text may change what a matcher makes of `shown`. -/
def wantsMore (verdict : Pattern.Verdict) (shown : List Char) : Bool :=
  match verdict with
  | .matched length => length == shown.length
  | .starved => true
  | .failed => false

/-- What a matcher makes of the text at hand, after at most `steps` further reads, and that text.
Four or more bytes behind the text cannot be the beginning of a character, so then no more is
read. -/
def settle (matcher : Matcher) : Nat → List UInt8 → List Char →
    Scanning (Pattern.Verdict × List Char)
  | 0, _, shown => return (matcher shown, shown)
  | steps + 1, bytes, shown => do
      let verdict := matcher shown
      if !wantsMore verdict shown then return (verdict, shown)
      else if 3 < bytes.length - (Utf8.encode shown).length then return (verdict, shown)
      else if ← fill then
        let bytes ← peek
        settle matcher steps bytes (← decode bytes)
      else return (verdict, shown)

def matchPattern (matcher : Matcher) (pattern : String) : Scanning (List Char) := do
  let shown ← text
  let bytes ← peek
  match ← settle matcher ((← pendingReads) + 1) bytes shown with
  | (.matched length, shown) =>
      let matched := shown.take length
      consumeText matched
      return matched
  | _ => stop (.patternMismatch pattern)

/-- The value of a text that a rule matched; a rule without a type has none. -/
def convert (rule : Rule) (matched : List Char) : Scanning (Option Value) :=
  match rule.type? with
  | none => return none
  | some type =>
      match type.conversion.apply matched with
      | .ok value => return some value
      | .error reason => stop (.unconvertible (String.ofList matched) type.name reason)

/-- Run one segment. A capture with a slot yields its value for the slot. -/
def runSegment (compiled : CompiledPlan) : PlanSegment → Scanning (List (Nat × Value))
  | .literal literal => do
      matchLiteral literal
      return []
  | .capture slot index =>
      match compiled.plan.rules[index]? with
      | none => return []
      | some rule => do
          let matched ← matchPattern (compiled.matcher index) (rule.pattern?.getD "")
          let value ← convert rule matched
          return match slot, value with
            | some slot, some value => [(slot, value)]
            | _, _ => []

/-- Run segments one after the other. -/
def runSegments (compiled : CompiledPlan) : List PlanSegment → Scanning (List (Nat × Value))
  | [] => return []
  | segment :: rest => do
      let first ← runSegment compiled segment
      return first ++ (← runSegments compiled rest)

/-- The values by increasing slot. -/
def bySlot (outputs : List (Nat × Value)) : List Value :=
  (outputs.mergeSort fun a b => decide (a.1 ≤ b.1)).map Prod.snd

/-- Run a compiled plan: the values of its slots. -/
def run (compiled : CompiledPlan) : Scanning (List Value) := do
  return bySlot (← runSegments compiled compiled.plan.segments)

/-- Run a plan that was compiled, if that was possible. -/
def execute (compiled : Except PatternFault CompiledPlan) : Scanning (List Value) :=
  match compiled with
  | .ok compiled => run compiled
  | .error fault => throw (.pattern fault)

end Scan

end Unformat
