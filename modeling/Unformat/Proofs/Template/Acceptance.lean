import Unformat.Proofs.Template.Merging
import Unformat.Proofs.Template.Reading

/-!
# Which templates are accepted

A template is accepted exactly when the grammar derives it. Its segments are those of the only
derivation, and a template that is not derived is blamed on the first brace at which no part of a
derivation begins.
-/

namespace Unformat

namespace Template

/-- The segments are what a derivation of the template says: they have its pieces, in literals as
long as may be, and every capture keeps the place of the brace that opens it. -/
structure Derives (template : String) (parts : List Part) (segments : List Segment) : Prop where
  derived_eq : derived parts = template.toList
  piecesOf_eq : piecesOf segments = piecesFrom 0 parts
  merged : Merged segments
  opens : ∀ value offset, .capture value offset ∈ segments → template.toList[offset]? = some '\x7b'
  increasing : (segments.filterMap Segment.offset?).Pairwise (· < ·)

/-- A fault blames the brace at a place of the template: what stands before it is a template, no
part of a derivation begins there, and the fault lies at the brace, when it closes, or behind it,
when it opens a capture. -/
structure Blames (template : String) (brace : Nat) (fault : TemplateFault) : Prop where
  template_eq : fault.template = template
  front : ∃ segments, parse (String.ofList (template.toList.take brace)) = .ok segments
  stuck : Stuck (template.toList.drop brace)
  position : ∃ position, fault.position = some position ∧ position < template.length ∧
    (fault.mistake = .strayClose ∧ template.toList[brace]? = some '\x7d' ∧ position = brace ∨
      fault.mistake ≠ .strayClose ∧ template.toList[brace]? = some '\x7b' ∧ brace ≤ position)

/-- A field of digits that stands in a capture behind a front of the template that is derived. -/
def DigitField (template field : List Char) : Prop :=
  ∃ front body, template = derived front ++ '\x7b' :: body ∧ CaptureField body field ∧
    IsDigits field

theorem parse_of_derived {parts : List Part} (short : ∀ part ∈ parts, part.Short)
    {template : String} (derives : derived parts = template.toList) :
    parse template = .ok (segmentsOf (piecesFrom 0 parts)) := by
  have read : pieces 0 template.toList = .ok (piecesFrom 0 parts) := by
    have passed := pieces_derived_append short 0 []
    rw [List.append_nil, derives, pieces.eq_1] at passed
    rw [passed, Except.map, List.append_nil]
  rw [parse, read]

theorem exists_parts_of_parse {template : String} {segments : List Segment}
    (accepted : parse template = .ok segments) :
    ∃ parts, (∀ part ∈ parts, part.Short) ∧ derived parts = template.toList ∧
      segments = segmentsOf (piecesFrom 0 parts) := by
  have reads := reads_pieces 0 template.toList
  rw [parse] at accepted
  cases result : pieces 0 template.toList with
  | error stop => cases stop <;> simp [result] at accepted
  | ok read =>
      rw [result] at reads accepted
      cases accepted
      cases reads with
      | whole _ short whole => exact ⟨_, short, whole, rfl⟩

theorem length_segmentsOf_le (pieces : List Piece) :
    (segmentsOf pieces).length ≤ pieces.length := by
  induction pieces with
  | nil => rfl
  | cons piece rest ih =>
      cases piece with
      | char c =>
          rw [segmentsOf_char]
          exact (length_joinText_le _ _).trans (Nat.succ_le_succ ih)
      | capture value offset => exact Nat.succ_le_succ ih

theorem length_piecesFrom_le (offset : Nat) (parts : List Part) :
    (piecesFrom offset parts).length ≤ (derived parts).length := by
  induction parts generalizing offset with
  | nil => rfl
  | cons part rest ih =>
      have later := ih (offset + part.text.length)
      have positive := List.length_pos_iff.mpr part.text_ne_nil
      rw [piecesFrom, derived_cons, List.length_cons, List.length_append]
      omega

/-- Every segment takes a character of its own. -/
theorem length_le_of_parse {template : String} {segments : List Segment}
    (accepted : parse template = .ok segments) : segments.length ≤ template.length := by
  obtain ⟨parts, _, derives, rfl⟩ := exists_parts_of_parse accepted
  calc (segmentsOf (piecesFrom 0 parts)).length
      ≤ (piecesFrom 0 parts).length := length_segmentsOf_le _
    _ ≤ (derived parts).length := length_piecesFrom_le 0 parts
    _ = template.length := by rw [derives, String.length_toList]

/-! ## Places of captures -/

theorem exists_part_of_mem_piecesFrom {parts : List Part} {start offset : Nat} {value : Capture}
    (member : .capture value offset ∈ piecesFrom start parts) :
    ∃ front slot rule behind, parts = front ++ .capture slot rule :: behind ∧
      value = ⟨SlotField.value slot, RuleField.value rule.join⟩ ∧
      offset = start + (derived front).length := by
  induction parts generalizing start with
  | nil => simp [piecesFrom] at member
  | cons part rest ih =>
      rcases List.mem_cons.mp member with here | later
      · cases part with
        | char c => cases here
        | capture slot rule =>
            cases here
            exact ⟨[], slot, rule, rest, rfl, rfl, rfl⟩
      · obtain ⟨front, slot, rule, behind, rfl, same, place⟩ := ih later
        refine ⟨part :: front, slot, rule, behind, rfl, same, ?_⟩
        rw [place, derived_cons, List.length_append, Nat.add_assoc]

theorem mem_piecesOf {segments : List Segment} {value : Capture} {offset : Nat}
    (member : .capture value offset ∈ segments) : .capture value offset ∈ piecesOf segments :=
  List.mem_flatMap.mpr ⟨_, member, List.mem_singleton.mpr rfl⟩

theorem opens_of_mem_piecesFrom {parts : List Part} {offset : Nat} {value : Capture}
    (member : .capture value offset ∈ piecesFrom 0 parts) :
    (derived parts)[offset]? = some '\x7b' := by
  obtain ⟨front, slot, rule, behind, rfl, _, place⟩ := exists_part_of_mem_piecesFrom member
  rw [Nat.zero_add] at place
  rw [derived_append, derived_cons, place, List.getElem?_append_right le_rfl, Nat.sub_self]
  rfl

theorem le_of_mem_offsets {parts : List Part} {start offset : Nat}
    (member : offset ∈ (piecesFrom start parts).filterMap Piece.offset?) : start ≤ offset := by
  obtain ⟨piece, pieceMember, place⟩ := List.mem_filterMap.mp member
  cases piece with
  | char c => cases place
  | capture value other =>
      cases place
      obtain ⟨front, _, _, _, _, _, place⟩ := exists_part_of_mem_piecesFrom pieceMember
      omega

theorem pairwise_offsets (start : Nat) (parts : List Part) :
    ((piecesFrom start parts).filterMap Piece.offset?).Pairwise (· < ·) := by
  induction parts generalizing start with
  | nil => exact .nil
  | cons part rest ih =>
      have later := ih (start + part.text.length)
      cases part with
      | char c => exact later
      | capture slot rule =>
          refine List.pairwise_cons.mpr ⟨?_, later⟩
          intro offset member
          have behind := le_of_mem_offsets member
          have positive := List.length_pos_iff.mpr (Part.capture slot rule).text_ne_nil
          omega

theorem derives_of_derived {parts : List Part} {template : String}
    (derives : derived parts = template.toList) :
    Derives template parts (segmentsOf (piecesFrom 0 parts)) := by
  have same : piecesOf (segmentsOf (piecesFrom 0 parts)) = piecesFrom 0 parts :=
    piecesOf_segmentsOf _
  refine ⟨derives, same, merged_segmentsOf _, ?_, ?_⟩
  · intro value offset member
    have piece : .capture value offset ∈ piecesFrom 0 parts := by
      rw [← same]
      exact mem_piecesOf member
    rw [← derives]
    exact opens_of_mem_piecesFrom piece
  · rw [← filterMap_offset_piecesOf, same]
    exact pairwise_offsets 0 parts

/-! ## Braces to blame -/

theorem blames_of_halts {front : List Part} {behind : List Char} {template : String}
    (short : ∀ part ∈ front, part.Short) (whole : derived front ++ behind = template.toList)
    {kind : TemplateMistake} {position : Nat}
    (halts : Halts (derived front).length behind (.mistake kind position)) :
    Blames template (derived front).length
      { mistake := kind, template, position := some position } := by
  have read : ∃ segments, parse (String.ofList (template.toList.take (derived front).length)) =
      .ok segments := by
    refine ⟨_, parse_of_derived short ?_⟩
    rw [← whole, List.take_left, String.toList_ofList]
  have length : template.length = (derived front).length + behind.length := by
    rw [← String.length_toList, ← whole, List.length_append]
  have brace : template.toList[(derived front).length]? = behind.head? := by
    rw [← whole, List.getElem?_append_right le_rfl, Nat.sub_self, List.head?_eq_getElem?]
  have left : template.toList.drop (derived front).length = behind := by
    rw [← whole, List.drop_left]
  cases halts with
  | strayClose stuck =>
      refine ⟨rfl, read, left ▸ stuck, _, rfl, ?_, .inl ⟨rfl, brace, rfl⟩⟩
      rw [length, List.length_cons]
      omega
  | mistake stuck inCapture =>
      have inside := inCapture.le_end
      refine ⟨rfl, read, left ▸ stuck, _, rfl, ?_,
        .inr ⟨inCapture.kind_ne, brace, inCapture.start_le⟩⟩
      rw [length, List.length_cons]
      omega

theorem digitField_of_halts {front : List Part} {behind : List Char} {start : Nat}
    {fault : Number.TooManyDigits} (halts : Halts start behind (.tooManyDigits fault)) :
    ∃ field, DigitField (derived front ++ behind) field ∧ Number.digitLimit < field.length := by
  cases halts with
  | tooManyDigits standing digits long =>
      exact ⟨_, ⟨front, _, rfl, standing, digits⟩, long⟩

theorem not_derived_of_halts {front : List Part} {behind : List Char} {start position : Nat}
    {kind : TemplateMistake} (halts : Halts start behind (.mistake kind position))
    (parts : List Part) : derived parts ≠ derived front ++ behind := by
  intro equal
  cases halts with
  | strayClose stuck => exact List.cons_ne_nil _ _ (eq_of_derived_eq_append equal stuck).2
  | mistake stuck _ => exact List.cons_ne_nil _ _ (eq_of_derived_eq_append equal stuck).2

/-- Reading accepts exactly the templates that the grammar derives, apart from those with a field of
too many digits. The derivation is the only one, and the segments are what it says. The fault of
any other template blames the first brace at which no part begins. -/
theorem parse_accepts_exactly_derived (template : String) :
    match parse template with
    | .ok segments =>
        ∃ parts, Derives template parts segments ∧
          ∀ others, derived others = template.toList → others = parts
    | .error (.malformed fault) =>
        (∀ parts, derived parts ≠ template.toList) ∧ ∃ brace, Blames template brace fault
    | .error (.tooManyDigits _) =>
        ∃ field, DigitField template.toList field ∧ Number.digitLimit < field.length := by
  cases accepted : parse template with
  | ok segments =>
      obtain ⟨parts, _, whole, rfl⟩ := exists_parts_of_parse accepted
      refine ⟨parts, derives_of_derived whole, ?_⟩
      intro others same
      exact derived_injective (same.trans whole.symm)
  | error failure =>
      have reads := reads_pieces 0 template.toList
      rw [parse] at accepted
      cases result : pieces 0 template.toList with
      | ok read => simp [result] at accepted
      | error stop =>
          rw [result] at reads accepted
          cases reads with
          | @stopped front behind _ short whole halts =>
              rw [Nat.zero_add] at halts
              cases stop with
              | mistake kind position =>
                  cases accepted
                  refine ⟨?_, _, blames_of_halts short whole halts⟩
                  intro parts
                  rw [← whole]
                  exact not_derived_of_halts halts parts
              | tooManyDigits fault =>
                  cases accepted
                  rw [← whole]
                  exact digitField_of_halts halts

end Template

end Unformat
