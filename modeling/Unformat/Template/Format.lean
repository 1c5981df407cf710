import Unformat.Template.Segment

/-!
# Writing templates

The canonical text of a sequence of segments: braces of literals are doubled, and a field that is
left to the order is empty.
-/

namespace Unformat

namespace Template

/-- A literal character as a template writes it. -/
def escapeChar (c : Char) : List Char :=
  if c = '\x7b' ∨ c = '\x7d' then [c, c] else [c]

def escape (text : String) : String := String.ofList (text.toList.flatMap escapeChar)

end Template

def SlotRef.text : SlotRef → String
  | .discard => "_"
  | .next => ""
  | .number index => toString index

def RuleRef.text : RuleRef → String
  | .next => ""
  | .number index => toString index
  | .named name => name

/-- A capture; the rule field is left out when it is empty. -/
def Capture.text (capture : Capture) : String :=
  match capture.rule with
  | .next => "\x7b" ++ capture.slot.text ++ "\x7d"
  | rule => "\x7b" ++ capture.slot.text ++ ":" ++ rule.text ++ "\x7d"

/-- A segment as a template writes it. -/
def Segment.text : Segment → String
  | .literal text => Template.escape text
  | .capture value _ => value.text

/-- The canonical text of a template. -/
def Template.format (segments : List Segment) : String :=
  String.join (segments.map Segment.text)

end Unformat
