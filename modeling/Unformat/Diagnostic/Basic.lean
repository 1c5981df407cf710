import Unformat.Diagnostic.Code
import Unformat.Json

/-!
# Diagnostics

A diagnostic is a fault with the notes and the hint that go with it. Kinds of fault that have a
code and a message share the two forms of a diagnostic: several lines of text, and a JSON object.
-/

namespace Unformat

/-- Something to add to a message. -/
structure Note where
  message : String
  label : String := "note"
  deriving Repr, DecidableEq

/-- A note in words; an empty label is left out. -/
def Note.text (note : Note) : String :=
  if note.label = "" then note.message else note.label ++ ": " ++ note.message

/-- What a kind of fault has to tell. -/
class Fault (α : Type) where
  /-- The code of the fault. -/
  code : α → Code
  /-- The fault in words. -/
  message : α → String
  /-- The message of the JSON form. -/
  summary : α → String := message
  /-- Notes that every diagnostic of the fault starts with. -/
  notes : α → List Note := fun _ => []
  /-- The hint that a diagnostic of the fault starts with; empty for none. -/
  hint : α → String := fun _ => ""
  /-- Further members of the JSON form. -/
  details : α → List (String × Json) := fun _ => []

/-- A fault with its notes and its hint. -/
structure Diagnostic (α : Type) where
  fault : α
  notes : List Note := []
  hint : String := ""
  deriving Repr, DecidableEq

namespace Diagnostic

variable {α β : Type}

/-- The diagnostic of a fault, with the notes and the hint that it starts with. -/
def of [Fault α] (fault : α) : Diagnostic α :=
  { fault, notes := Fault.notes fault, hint := Fault.hint fault }

def withNote (diagnostic : Diagnostic α) (message : String) (label : String := "note") :
    Diagnostic α :=
  { diagnostic with notes := diagnostic.notes ++ [⟨message, label⟩] }

/-- Put a hint in place of the present one. -/
def withHint (diagnostic : Diagnostic α) (hint : String) : Diagnostic α :=
  { diagnostic with hint }

/-- The same notes and hint for another fault. -/
def map (f : α → β) (diagnostic : Diagnostic α) : Diagnostic β :=
  { fault := f diagnostic.fault, notes := diagnostic.notes, hint := diagnostic.hint }

def code [Fault α] (diagnostic : Diagnostic α) : Code := Fault.code diagnostic.fault

/-- The message, then a line for each note and one for the hint. -/
def text [Fault α] (diagnostic : Diagnostic α) : String :=
  "\n".intercalate <|
    Fault.message diagnostic.fault :: diagnostic.notes.map (fun note => "  " ++ note.text) ++
      (if diagnostic.hint = "" then [] else ["  help: " ++ diagnostic.hint])

/-- The diagnostic as a JSON object; notes and hint are left out when there are none. -/
def toJson [Fault α] (diagnostic : Diagnostic α) : Json :=
  .object <|
    [("code", .text diagnostic.code.text),
     ("phase", .text diagnostic.code.phase.name),
     ("message", .text (Fault.summary diagnostic.fault))] ++
    (if diagnostic.notes = [] then []
      else [("notes", .array (diagnostic.notes.map fun note => .text note.text))]) ++
    (if diagnostic.hint = "" then [] else [("hint", .text diagnostic.hint)]) ++
    Fault.details diagnostic.fault

end Diagnostic

/-- A message, then a text with a mark under the character at `position`; the message alone when
the position is not known or the text is empty. -/
def pointAt (message text : String) (position : Option Nat) : String :=
  match position with
  | none => message
  | some position =>
      if text = "" then message
      else
        let margin := String.ofList (List.replicate position ' ')
        s!"{message}\n  {text}\n  {margin}^"

end Unformat
