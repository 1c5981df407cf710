import Unformat.Proofs.CommandLine.Writing
import Unformat.Proofs.Json.Rendering

/-!
# The texts of rows and reports

What the row of a tuple and the report of a fault on a line say, in each format.  In JSON a report
is told by what its text denotes, so that nothing hangs on how it is laid out.
-/

namespace Unformat

namespace ScanFault

/-- The lines of a report: the place, the code and what is wrong, a line for each note of the fault,
and one that has the number of the line again. -/
def reportLines (line : Nat) (reason : ScanFault) : List String :=
  s!"line {line}: error[{(Fault.code reason).text}]: {Fault.message reason}" ::
    (Fault.notes reason).map (fun note => "  note: " ++ note.message) ++
      [s!"  note: on line {line}"]

/-- The members of a report as a JSON object; its last note has the number of the line. -/
def reportMembers (line : Nat) (reason : ScanFault) : List (String × Json) :=
  [("code", .text (Fault.code reason).text), ("phase", .text "scan"),
    ("message", .text (Fault.message reason)),
    ("notes", .array ((Fault.notes reason).map (fun note => .text ("note: " ++ note.message)) ++
      [.text s!"note: on line {line}"]))]

end ScanFault

namespace CommandLine

/-- The text is the row of the values: their texts with tabs between them, an array of their JSON
forms, or a tuple, which has a comma behind a single value. -/
inductive Format.Row : Format → List Value → String → Prop where
  | tabs (values : List Value) : Row .tsv values ("\t".intercalate (values.map Value.plain))
  | json (values : List Value) :
      Row .json values
        ("[" ++ ", ".intercalate (values.map fun value => value.toJson.render) ++ "]")
  | single (value : Value) : Row .shown [value] ("(" ++ value.shown ++ ",)")
  | tuple {values : List Value} (other : values.length ≠ 1) :
      Row .shown values ("(" ++ ", ".intercalate (values.map Value.shown) ++ ")")

/-- The text reports the fault on the line: in words, or as a line of JSON that denotes the object
of its members. -/
inductive Format.Reports (line : Nat) (reason : ScanFault) : Format → String → Prop where
  | words {format : Format} (worded : format ≠ .json) :
      Reports line reason format ("\n".intercalate (reason.reportLines line) ++ "\n")
  | json {text : String}
      (denotes : Json.Denotes text.toList (Json.object (reason.reportMembers line)).meaning) :
      Reports line reason .json (text ++ "\n")

/-! ## What is written -/

theorem Format.row_row (format : Format) (values : List Value) :
    format.Row values (format.row values) := by
  cases format with
  | tsv => exact .tabs values
  | json =>
      rw [row, Json.render, Json.renderItems_eq, List.map_map]
      exact .json values
  | shown =>
      rcases values with _ | ⟨value, _ | ⟨second, values⟩⟩
      · exact .tuple (by simp)
      · exact .single value
      · exact .tuple (by simp)

/-- Every note of a fault is labelled as one. -/
theorem label_of_mem_notes {reason : ScanFault} {note : Note}
    (member : note ∈ Fault.notes reason) : note.text = "note: " ++ note.message := by
  rcases reason with _ | _ | ⟨_, _ | offset⟩ | _
  case malformedBytes.some =>
    obtain rfl := List.mem_singleton.mp member
    rfl
  all_goals cases member

theorem intercalate_append_cons (separator front first : String) (rest : List String) :
    separator.intercalate ((front ++ first) :: rest) =
      front ++ separator.intercalate (first :: rest) := by
  refine String.toList_injective ?_
  simp only [String.toList_intercalate, String.toList_append, List.map_cons,
    intercalate_cons_eq, List.append_assoc]

variable (line : Nat) (reason : ScanFault)

theorem text_withNote (front : String) :
    front ++ ((Diagnostic.of reason).withNote s!"on line {line}").text =
      "\n".intercalate ((front ++ Fault.message reason) ::
        (Fault.notes reason).map (fun note => "  note: " ++ note.message) ++
          [s!"  note: on line {line}"]) := by
  have notes : (Fault.notes reason).map (fun note => "  " ++ note.text) =
      (Fault.notes reason).map fun note => "  note: " ++ note.message :=
    List.map_congr_left fun note member => by
      rw [label_of_mem_notes member, ← String.append_assoc]
      rfl
  have noHint : ((Diagnostic.of reason).withNote s!"on line {line}").hint = "" := rfl
  rw [Diagnostic.text, if_pos noHint, List.append_nil, ← intercalate_append_cons,
    Diagnostic.withNote, Diagnostic.of, List.map_append, notes]
  rfl

theorem toJson_withNote :
    ((Diagnostic.of reason).withNote s!"on line {line}").toJson =
      .object (reason.reportMembers line) := by
  have notes : (Fault.notes reason).map (fun note => Json.text note.text) =
      (Fault.notes reason).map fun note => .text ("note: " ++ note.message) :=
    List.map_congr_left fun note member => congrArg Json.text (label_of_mem_notes member)
  have noted : ((Diagnostic.of reason).withNote s!"on line {line}").notes ≠ [] := by
    simp [Diagnostic.withNote]
  rw [Diagnostic.toJson, if_neg noted, Diagnostic.withNote, Diagnostic.of, List.map_append, notes]
  cases reason <;> rfl

theorem eachReal_reportMembers (holds : Binary64 → Prop) :
    (Json.object (reason.reportMembers line)).EachReal holds := by
  refine .object ?_
  simp only [ScanFault.reportMembers, List.forall_mem_cons]
  refine ⟨.text _, .text _, .text _, .array ?_, List.forall_mem_nil _⟩
  refine List.forall_mem_append.mpr ⟨?_, List.forall_mem_singleton.mpr (.text _)⟩
  exact List.forall_mem_map.mpr fun note _ => .text _

theorem report_of_words {format : Format} (worded : format ≠ .json) :
    format.report s!"line {line}: " ((Diagnostic.of reason).withNote s!"on line {line}") =
      .report ("\n".intercalate (reason.reportLines line) ++ "\n") := by
  have front : s!"line {line}: " ++ "error[" ++ (Fault.code reason).text ++ "]: " =
      s!"line {line}: error[{(Fault.code reason).text}]: " := by
    refine String.toList_injective ?_
    simp [toString]
  have text := text_withNote line reason s!"line {line}: error[{(Fault.code reason).text}]: "
  have written : format.report s!"line {line}: "
      ((Diagnostic.of reason).withNote s!"on line {line}") =
        .report (s!"line {line}: " ++ "error[" ++ (Fault.code reason).text ++ "]: " ++
          ((Diagnostic.of reason).withNote s!"on line {line}").text ++ "\n") := by
    cases format with
    | json => exact absurd rfl worded
    | tsv | shown => rfl
  rw [written, front, text]
  rfl

/-- The report of a fault on a line is written with the place and the note of the line. -/
theorem Format.exists_reports (format : Format) :
    ∃ text, format.report s!"line {line}: "
        ((Diagnostic.of reason).withNote s!"on line {line}") = .report text ∧
      format.Reports line reason text := by
  cases format with
  | json =>
      rw [report, toJson_withNote]
      exact ⟨_, rfl, .json (Json.denotes_render (eachReal_reportMembers line reason _)
        (eachReal_reportMembers line reason _))⟩
  | tsv => exact ⟨_, report_of_words line reason (by decide), .words (by decide)⟩
  | shown => exact ⟨_, report_of_words line reason (by decide), .words (by decide)⟩

end CommandLine

end Unformat
