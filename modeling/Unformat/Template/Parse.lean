import Unformat.Number.Numeral
import Unformat.Template.Fault
import Unformat.Template.Segment

/-!
# Reading templates

A template is a sequence of pieces: a character other than a brace, a doubled brace, which stands
for one brace, or a capture. A capture is written in single braces, `slot` or `slot:rule`, where
the slot is empty, an underscore or digits and the rule is empty, digits or an identifier.
Neighbouring characters become one literal. The first mistake ends the reading.
-/

namespace Unformat

inductive TemplateFailure where
  | malformed (fault : TemplateFault)
  | tooManyDigits (fault : Number.TooManyDigits)
  deriving Repr, DecidableEq

namespace Template

/-- A piece of a template, with the characters before it. -/
inductive Piece where
  | char (c : Char)
  | capture (value : Capture) (offset : Nat)
  deriving Repr, DecidableEq

/-- Why the reading of pieces stops. -/
inductive Stop where
  | mistake (kind : TemplateMistake) (position : Nat)
  | tooManyDigits (fault : Number.TooManyDigits)
  deriving Repr, DecidableEq

/-- A character that may begin an identifier: an ASCII letter or an underscore. -/
def isIdentStart (c : Char) : Bool := c == '_' || c.isAlpha

def isIdentChar (c : Char) : Bool := isIdentStart c || c.isDigit

def isSlotChar (c : Char) : Bool := c == '_' || c.isDigit

/-- The number that a field of digits denotes. -/
def number (digits : List Char) : Except Stop Nat :=
  match Number.natural digits with
  | .ok value => .ok value
  | .error fault => .error (.tooManyDigits fault)

def slotRef (field : List Char) (position : Nat) : Except Stop SlotRef :=
  if field = ['_'] then .ok .discard
  else if field = [] then .ok .next
  else if field.all Char.isDigit then (number field).map .number
  else .error (.mistake (.invalidPosition (String.ofList field)) position)

def ruleRef (field : List Char) (position : Nat) : Except Stop RuleRef :=
  if field = [] then .ok .next
  else if field.head?.any isIdentStart then .ok (.named (String.ofList field))
  else if field.all Char.isDigit then (number field).map .number
  else .error (.mistake (.invalidRule (String.ofList field)) position)

/-- The rest of a capture that has no rule field or one that ends here. `start` is the place of
its opening brace and `position` the place of the text. -/
def close (start position : Nat) : List Char → Except Stop (List Char)
  | [] => .error (.mistake .unclosed start)
  | '\x7d' :: rest => .ok rest
  | c :: _ => .error (.mistake (.unexpectedCharacter (String.singleton c)) position)

/-- The capture whose opening brace, at `start`, was just read, and the text after it. -/
def readCapture (start : Nat) (text : List Char) : Except Stop (Capture × List Char) := do
  let slotField := text.takeWhile isSlotChar
  let slot ← slotRef slotField (start + 1)
  let position := start + 1 + slotField.length
  match text.drop slotField.length with
  | ':' :: text =>
      let ruleField := text.takeWhile isIdentChar
      let rule ← ruleRef ruleField (position + 1)
      let rest ← close start (position + 1 + ruleField.length) (text.drop ruleField.length)
      return (⟨slot, rule⟩, rest)
  | text =>
      let rest ← close start position text
      return (⟨slot, .next⟩, rest)

theorem length_close_lt {start position : Nat} {text rest : List Char}
    (closed : close start position text = .ok rest) : rest.length < text.length := by
  unfold close at closed
  split at closed
  · simp at closed
  · simp only [Except.ok.injEq] at closed
    subst closed
    simp
  · simp at closed

/-- A computation that succeeds has a first step that succeeds. -/
theorem exists_of_bind_eq_ok {ε α β : Type} {first : Except ε α} {next : α → Except ε β}
    {result : β} (run : first >>= next = .ok result) :
    ∃ value, first = .ok value ∧ next value = .ok result := by
  cases first with
  | error fault => simp [bind, Except.bind] at run
  | ok value => exact ⟨value, rfl, run⟩

/-- What follows a capture is shorter than the text that the capture was read from. -/
theorem length_readCapture_lt {start : Nat} {text rest : List Char} {capture : Capture}
    (found : readCapture start text = .ok (capture, rest)) : rest.length < text.length := by
  unfold readCapture at found
  obtain ⟨slot, _, found⟩ := exists_of_bind_eq_ok found
  split at found
  · rename_i after heading
    obtain ⟨rule, _, found⟩ := exists_of_bind_eq_ok found
    obtain ⟨left, closed, found⟩ := exists_of_bind_eq_ok found
    simp only [pure, Except.pure, Except.ok.injEq, Prod.mk.injEq] at found
    obtain ⟨_, rfl⟩ := found
    have shorter := length_close_lt closed
    have whole := congrArg List.length heading
    simp only [List.length_drop, List.length_cons] at shorter whole
    omega
  · obtain ⟨left, closed, found⟩ := exists_of_bind_eq_ok found
    simp only [pure, Except.pure, Except.ok.injEq, Prod.mk.injEq] at found
    obtain ⟨_, rfl⟩ := found
    have shorter := length_close_lt closed
    simp only [List.length_drop] at shorter
    omega

/-- The pieces of a text that stands `offset` characters into its template. -/
def pieces (offset : Nat) (text : List Char) : Except Stop (List Piece) :=
  match text with
  | [] => .ok []
  | '\x7b' :: '\x7b' :: rest => (pieces (offset + 2) rest).map (.char '\x7b' :: ·)
  | '\x7d' :: '\x7d' :: rest => (pieces (offset + 2) rest).map (.char '\x7d' :: ·)
  | '\x7d' :: _ => .error (.mistake .strayClose offset)
  | '\x7b' :: body =>
      match _found : readCapture offset body with
      | .error stop => .error stop
      | .ok (capture, rest) =>
          (pieces (offset + (body.length + 1 - rest.length)) rest).map (.capture capture offset :: ·)
  | c :: rest => (pieces (offset + 1) rest).map (.char c :: ·)
termination_by text.length
decreasing_by
  all_goals simp only [List.length_cons]
  all_goals first
    | omega
    | (have shorter := length_readCapture_lt _found; omega)

/-- The segments of a sequence of pieces: neighbouring characters become one literal. -/
def segmentsOf : List Piece → List Segment
  | [] => []
  | .capture value offset :: rest => .capture value offset :: segmentsOf rest
  | .char c :: rest =>
      match segmentsOf rest with
      | .literal text :: segments => .literal (String.singleton c ++ text) :: segments
      | segments => .literal (String.singleton c) :: segments

def parse (template : String) : Except TemplateFailure (List Segment) :=
  match pieces 0 template.toList with
  | .ok pieces => .ok (segmentsOf pieces)
  | .error (.mistake mistake position) =>
      .error (.malformed { mistake, template, position := some position })
  | .error (.tooManyDigits fault) => .error (.tooManyDigits fault)

end Template

end Unformat
