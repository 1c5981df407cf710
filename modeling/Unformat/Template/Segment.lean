/-!
# Segments of a template

A template is literal text interleaved with captures. A capture says where its value goes and by
which rule it is read; either may be left to the order of the captures.
-/

namespace Unformat

/-- Where the value of a capture goes. -/
inductive SlotRef where
  /-- Nowhere: the capture has to match, but its value is dropped. -/
  | discard
  /-- To the next slot that no earlier capture of this kind took. -/
  | next
  | number (index : Nat)
  deriving Repr, DecidableEq

/-- By which rule a capture is read. -/
inductive RuleRef where
  /-- By the next positional rule that no earlier capture of this kind took. -/
  | next
  | number (index : Nat)
  | named (name : String)
  deriving Repr, DecidableEq

/-- A capture: a slot and a rule. -/
structure Capture where
  slot : SlotRef
  rule : RuleRef
  deriving Repr, DecidableEq

/-- A part of a template. A capture remembers how many characters stand before it. -/
inductive Segment where
  | literal (text : String)
  | capture (value : Capture) (offset : Nat)
  deriving Repr, DecidableEq

namespace Segment

/-- The segment without the place that it was read from. -/
def shape : Segment → Segment
  | .literal text => .literal text
  | .capture value _ => .capture value 0

/-- The capture of a segment, if it is one. -/
def capture? : Segment → Option Capture
  | .literal _ => none
  | .capture value _ => some value

end Segment

def captures (segments : List Segment) : List Capture := segments.filterMap Segment.capture?

end Unformat
