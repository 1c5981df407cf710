import Unformat.Proofs.Template.Acceptance

/-!
# Templates one behind the other

A template that is accepted ends where a part ends, so reading goes on behind it as at the
beginning of a template: only the places move.  A text behind it is read as it is on its own, and
refused as it is on its own.
-/

namespace Unformat

/-- The segment as many characters further on in its template. -/
def Segment.shift (distance : Nat) : Segment → Segment
  | .literal text => .literal text
  | .capture value offset => .capture value (offset + distance)

namespace Template

def Piece.shift (distance : Nat) : Piece → Piece
  | .char c => .char c
  | .capture value offset => .capture value (offset + distance)

def Stop.shift (distance : Nat) : Stop → Stop
  | .mistake kind position => .mistake kind (position + distance)
  | .tooManyDigits fault => .tooManyDigits fault

/-- The same failure of a template that the refused one ends, behind as many other characters. -/
def failureIn (template : String) (distance : Nat) : TemplateFailure → TemplateFailure
  | .malformed fault =>
      .malformed { fault with template, position := fault.position.map (· + distance) }
  | .tooManyDigits fault => .tooManyDigits fault

/-- Segments one behind the other; a literal at the end of the first ones and one at the beginning
of the others become one literal. -/
def joined : List Segment → List Segment → List Segment
  | [], others => others
  | [.literal text], others => joinText text others
  | segment :: rest, others => segment :: joined rest others

/-! ## Reading further on -/

section Shift

variable {α β : Type}

theorem mapError_bind (result : Except Stop α) (next : α → Except Stop β) (change : Stop → Stop) :
    (result >>= next).mapError change =
      result.mapError change >>= fun value => (next value).mapError change := by
  cases result <;> rfl

theorem mapError_map (result : Except Stop α) (change : Stop → Stop) (next : α → β) :
    (result.map next).mapError change = (result.mapError change).map next := by
  cases result <;> rfl

theorem mapError_shift_number (digits : List Char) (distance : Nat) :
    (number digits).mapError (Stop.shift distance) = number digits := by
  unfold number
  split <;> rfl

theorem slotRef_add (field : List Char) (position distance : Nat) :
    slotRef field (position + distance) =
      (slotRef field position).mapError (Stop.shift distance) := by
  unfold slotRef
  split_ifs
  · rfl
  · rfl
  · rw [mapError_map, mapError_shift_number]
  · rfl

theorem ruleRef_add (field : List Char) (position distance : Nat) :
    ruleRef field (position + distance) =
      (ruleRef field position).mapError (Stop.shift distance) := by
  unfold ruleRef
  split_ifs
  · rfl
  · rfl
  · rw [mapError_map, mapError_shift_number]
  · rfl

theorem close_add (start position distance : Nat) (text : List Char) :
    close (start + distance) (position + distance) text =
      (close start position text).mapError (Stop.shift distance) := by
  unfold close
  split <;> rfl

theorem readCapture_add (start distance : Nat) (text : List Char) :
    readCapture (start + distance) text =
      (readCapture start text).mapError (Stop.shift distance) := by
  have further (place count : Nat) : place + distance + count = place + count + distance :=
    Nat.add_right_comm place distance count
  unfold readCapture
  simp only [further, mapError_bind, slotRef_add]
  congr 1
  funext slot
  split
  · simp only [mapError_bind, ruleRef_add, close_add]
    rfl
  · simp only [mapError_bind, close_add]
    rfl

/-- Reading a text further on in a template comes to the same, at places further on. -/
theorem pieces_add (offset distance : Nat) (text : List Char) :
    pieces (offset + distance) text =
      ((pieces offset text).map (List.map (Piece.shift distance))).mapError
        (Stop.shift distance) := by
  fun_induction pieces offset text with
  | case1 offset => rw [pieces.eq_1]; rfl
  | case2 offset rest ih =>
      rw [pieces.eq_2, Nat.add_right_comm, ih]
      cases pieces (offset + 2) rest <;> rfl
  | case3 offset rest ih =>
      rw [pieces.eq_3, Nat.add_right_comm, ih]
      cases pieces (offset + 2) rest <;> rfl
  | case4 offset rest single => rw [pieces.eq_4 _ _ single]; rfl
  | case5 offset body single stop found =>
      rw [pieces.eq_5 _ _ single, readCapture_add, found]
      rfl
  | case6 offset body single capture rest found ih =>
      rw [pieces.eq_5 _ _ single, readCapture_add, found]
      simp only [Except.mapError]
      rw [Nat.add_right_comm, ih]
      cases pieces (offset + (body.length + 1 - rest.length)) rest <;> rfl
  | case7 offset c rest doubledOpen doubledClose closing opening ih =>
      rw [pieces.eq_6 _ _ _ doubledOpen doubledClose closing opening, Nat.add_right_comm, ih]
      cases pieces (offset + 1) rest <;> rfl

end Shift

/-! ## Joining -/

theorem joinText_append (text more : String) (segments : List Segment) :
    joinText (text ++ more) segments = joinText text (joinText more segments) := by
  match segments with
  | [] => rfl
  | .literal last :: rest => simp only [joinText, String.append_assoc]
  | .capture value offset :: rest => rfl

theorem joined_capture_cons (value : Capture) (offset : Nat) (rest others : List Segment) :
    joined (.capture value offset :: rest) others =
      .capture value offset :: joined rest others := by
  rw [joined]
  simp

theorem joined_joinText (text : String) (first others : List Segment) :
    joined (joinText text first) others = joinText text (joined first others) := by
  match first with
  | [] => rfl
  | [.literal more] => exact joinText_append text more others
  | .literal more :: next :: rest => rfl
  | .capture value offset :: rest =>
      rw [joined_capture_cons, joinText, joinText, joined, joined_capture_cons]
      all_goals simp

theorem segmentsOf_append (front behind : List Piece) :
    segmentsOf (front ++ behind) = joined (segmentsOf front) (segmentsOf behind) := by
  induction front with
  | nil => rfl
  | cons piece front ih =>
      cases piece with
      | char c => rw [List.cons_append, segmentsOf_char, segmentsOf_char, ih, joined_joinText]
      | capture value offset =>
          rw [List.cons_append, segmentsOf, segmentsOf, ih, joined_capture_cons]

theorem map_shift_segmentsOf (distance : Nat) (pieces : List Piece) :
    (segmentsOf pieces).map (Segment.shift distance) =
      segmentsOf (pieces.map (Piece.shift distance)) :=
  map_segmentsOf (fun _ => rfl) (fun _ => rfl) (fun _ offset => ⟨offset + distance, rfl, rfl⟩)
    pieces

/-! ## Templates -/

/-- Behind a template that is accepted, a text is read as the template that it is on its own. -/
theorem parse_append {front : String} {segments : List Segment}
    (accepted : parse front = .ok segments) (behind : String) :
    (∀ more, parse behind = .ok more →
      parse (front ++ behind) =
        .ok (joined segments (more.map (Segment.shift front.length)))) ∧
    ∀ failure, parse behind = .error failure →
      parse (front ++ behind) =
        .error (failureIn (front ++ behind) front.length failure) := by
  obtain ⟨parts, short, whole, rfl⟩ := exists_parts_of_parse accepted
  have read : pieces 0 (front ++ behind).toList =
      (((pieces 0 behind.toList).map (List.map (Piece.shift front.length))).mapError
        (Stop.shift front.length)).map (piecesFrom 0 parts ++ ·) := by
    rw [String.toList_append, ← whole, pieces_derived_append short, whole,
      String.length_toList, pieces_add]
  simp only [parse, read]
  cases pieces 0 behind.toList with
  | ok read =>
      refine ⟨?_, by simp⟩
      intro more accepted
      cases accepted
      simp only [Except.map, Except.mapError]
      rw [segmentsOf_append, map_shift_segmentsOf]
  | error stop =>
      refine ⟨by cases stop <;> simp, ?_⟩
      intro failure refused
      cases stop with
      | mistake kind position => cases refused; rfl
      | tooManyDigits fault => cases refused; rfl

/-- Two opening braces on either side of the border stand for one brace each. -/
theorem parse_append_at_braces :
    parse "\x7b\x7da\x7b\x7b" = .ok [.capture ⟨.next, .next⟩ 0, .literal "a\x7b"] ∧
      parse ("\x7b\x7da\x7b\x7b" ++ "\x7b\x7bb\x7b0\x7d") =
        .ok [.capture ⟨.next, .next⟩ 0, .literal "a\x7b\x7bb", .capture ⟨.number 0, .next⟩ 8] ∧
      parse ("\x7b\x7da\x7b\x7b" ++ "b\x7d") =
        .error (.malformed ⟨.strayClose, "\x7b\x7da\x7b\x7bb\x7d", some 6⟩) := by
  have accepted :
      parse "\x7b\x7da\x7b\x7b" = .ok [.capture ⟨.next, .next⟩ 0, .literal "a\x7b"] := by
    decide +kernel
  have more : parse "\x7b\x7bb\x7b0\x7d" =
      .ok [.literal "\x7bb", .capture ⟨.number 0, .next⟩ 3] := by
    decide +kernel
  have refused : parse "b\x7d" = .error (.malformed ⟨.strayClose, "b\x7d", some 1⟩) := by
    decide +kernel
  exact ⟨accepted, (parse_append accepted _).1 _ more, (parse_append accepted _).2 _ refused⟩

end Template

end Unformat
