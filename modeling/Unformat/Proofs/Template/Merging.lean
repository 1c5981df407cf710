import Mathlib.Data.List.Chain
import Unformat.Proofs.Template.Grammar

/-!
# Segments and their pieces

Reading puts neighbouring characters together into one literal. `Merged` says of segments that this
has been done: no literal is empty, and no two stand next to each other. Such segments are
determined by their pieces.
-/

namespace Unformat

/-- The pieces that a segment is made of. -/
def Segment.pieces : Segment → List Template.Piece
  | .literal text => text.toList.map .char
  | .capture value offset => [.capture value offset]

def Segment.offset? : Segment → Option Nat
  | .literal _ => none
  | .capture _ offset => some offset

namespace Template

namespace Piece

/-- The piece without the place that it was read from. -/
def shape : Piece → Piece
  | .char c => .char c
  | .capture value _ => .capture value 0

def isChar : Piece → Bool
  | .char _ => true
  | .capture _ _ => false

def offset? : Piece → Option Nat
  | .char _ => none
  | .capture _ offset => some offset

end Piece

/-- The pieces of all segments, in order. -/
def piecesOf (segments : List Segment) : List Piece := segments.flatMap Segment.pieces

@[simp] theorem piecesOf_nil : piecesOf [] = [] := rfl

@[simp] theorem piecesOf_cons (segment : Segment) (rest : List Segment) :
    piecesOf (segment :: rest) = segment.pieces ++ piecesOf rest := rfl

/-- No literal is empty, and no two literals stand next to each other. -/
structure Merged (segments : List Segment) : Prop where
  solid : ∀ text, .literal text ∈ segments → text ≠ ""
  apart : segments.IsChain fun first second => first.capture?.isSome ∨ second.capture?.isSome

/-- The text in front of the segments, in one literal with the one that they begin with. -/
def joinText (text : String) : List Segment → List Segment
  | .literal more :: rest => .literal (text ++ more) :: rest
  | segments => .literal text :: segments

/-- The segments without empty literals, neighbouring literals put together. -/
def merge : List Segment → List Segment
  | [] => []
  | .literal text :: rest => if text = "" then merge rest else joinText text (merge rest)
  | .capture value offset :: rest => .capture value offset :: merge rest

/-! ## Putting text in front -/

theorem piecesOf_joinText (text : String) (segments : List Segment) :
    piecesOf (joinText text segments) = text.toList.map .char ++ piecesOf segments := by
  match segments with
  | [] => rfl
  | .literal more :: rest => simp [joinText, Segment.pieces]
  | .capture value offset :: rest => rfl

theorem map_joinText {move : Segment → Segment}
    (literal : ∀ text, move (.literal text) = .literal text)
    (capture : ∀ value offset, ∃ place, move (.capture value offset) = .capture value place)
    (text : String) (segments : List Segment) :
    (joinText text segments).map move = joinText text (segments.map move) := by
  match segments with
  | [] => simp [joinText, literal]
  | .literal more :: rest => simp [joinText, literal]
  | .capture value offset :: rest =>
      obtain ⟨place, moved⟩ := capture value offset
      simp [joinText, literal, moved]

theorem length_joinText_le (text : String) (segments : List Segment) :
    (joinText text segments).length ≤ segments.length + 1 := by
  match segments with
  | [] => rfl
  | .literal _ :: rest => exact Nat.le_succ _
  | .capture _ _ :: rest => rfl

/-! ## Merged segments -/

theorem merged_nil : Merged [] := ⟨by simp, .nil⟩

theorem merged_literal_cons_iff {text : String} {rest : List Segment} :
    Merged (.literal text :: rest) ↔
      text ≠ "" ∧ (∀ more, rest.head? ≠ some (.literal more)) ∧ Merged rest := by
  constructor
  · intro merged
    obtain ⟨headApart, restApart⟩ := List.isChain_cons.mp merged.apart
    refine ⟨merged.solid text List.mem_cons_self, ?_, ?_⟩
    · intro more head
      have one := headApart (.literal more) head
      simp [Segment.capture?] at one
    · exact ⟨fun more member => merged.solid more (List.mem_cons_of_mem _ member), restApart⟩
  · rintro ⟨solid, headApart, merged⟩
    constructor
    · intro more member
      rcases List.mem_cons.mp member with equal | later
      · cases equal
        exact solid
      · exact merged.solid more later
    · refine List.isChain_cons.mpr ⟨?_, merged.apart⟩
      intro segment head
      cases segment with
      | literal more => exact (headApart more head).elim
      | capture value offset => exact .inr rfl

theorem merged_capture_cons_iff {value : Capture} {offset : Nat} {rest : List Segment} :
    Merged (.capture value offset :: rest) ↔ Merged rest := by
  constructor
  · intro merged
    exact ⟨fun text member => merged.solid text (List.mem_cons_of_mem _ member),
      merged.apart.tail⟩
  · intro merged
    constructor
    · intro text member
      rcases List.mem_cons.mp member with equal | later
      · cases equal
      · exact merged.solid text later
    · exact List.isChain_cons.mpr ⟨fun _ _ => .inl rfl, merged.apart⟩

theorem merged_joinText {text : String} {segments : List Segment} (solid : text ≠ "")
    (merged : Merged segments) : Merged (joinText text segments) := by
  match segments with
  | [] => exact merged_literal_cons_iff.mpr ⟨solid, by simp, merged_nil⟩
  | .literal more :: rest =>
      obtain ⟨_, headApart, restMerged⟩ := merged_literal_cons_iff.mp merged
      exact merged_literal_cons_iff.mpr ⟨by simp [solid], headApart, restMerged⟩
  | .capture value offset :: rest =>
      exact merged_literal_cons_iff.mpr ⟨solid, by simp, merged⟩

theorem merged_merge (segments : List Segment) : Merged (merge segments) := by
  induction segments with
  | nil => exact merged_nil
  | cons segment rest ih =>
      cases segment with
      | literal text =>
          rw [merge]
          split
          · exact ih
          · next solid => exact merged_joinText solid ih
      | capture value offset => exact merged_capture_cons_iff.mpr ih

theorem piecesOf_merge (segments : List Segment) :
    piecesOf (merge segments) = piecesOf segments := by
  induction segments with
  | nil => rfl
  | cons segment rest ih =>
      cases segment with
      | literal text =>
          rw [merge]
          split
          · next empty => simp [empty, ih, Segment.pieces]
          · rw [piecesOf_joinText, ih]
            rfl
      | capture value offset => rw [merge, piecesOf_cons, piecesOf_cons, ih]

theorem stops_piecesOf {rest : List Segment} (apart : ∀ more, rest.head? ≠ some (.literal more)) :
    Stops Piece.isChar (piecesOf rest) := by
  match rest with
  | [] => exact stops_nil _
  | .literal more :: _ => exact (apart more rfl).elim
  | .capture _ _ :: _ => exact stops_cons.mpr rfl

theorem isChar_of_mem_pieces {text : String} :
    ∀ piece ∈ (Segment.literal text).pieces, piece.isChar = true := by
  intro piece member
  obtain ⟨c, _, rfl⟩ := List.mem_map.mp member
  rfl

/-- Merged segments are determined by their pieces. -/
theorem eq_of_piecesOf_eq {first second : List Segment} (firstMerged : Merged first)
    (secondMerged : Merged second) (equal : piecesOf first = piecesOf second) : first = second := by
  induction first generalizing second with
  | nil =>
      match second with
      | [] => rfl
      | .literal text :: rest =>
          have solid := (merged_literal_cons_iff.mp secondMerged).1
          simp [Segment.pieces, solid] at equal
      | .capture value offset :: rest => simp [Segment.pieces] at equal
  | cons segment rest ih =>
      match segment, second with
      | .literal text, [] =>
          have solid := (merged_literal_cons_iff.mp firstMerged).1
          simp [Segment.pieces, solid] at equal
      | .capture value offset, [] => simp [Segment.pieces] at equal
      | .literal text, .literal other :: others =>
          obtain ⟨_, apart, restMerged⟩ := merged_literal_cons_iff.mp firstMerged
          obtain ⟨_, otherApart, othersMerged⟩ := merged_literal_cons_iff.mp secondMerged
          obtain ⟨chars, later⟩ := eq_of_run_append_eq isChar_of_mem_pieces isChar_of_mem_pieces
            (stops_piecesOf apart) (stops_piecesOf otherApart) equal
          have texts : text = other := by
            have injective : Function.Injective Piece.char := fun _ _ => Piece.char.inj
            exact String.toList_inj.mp (injective.list_map chars)
          rw [texts, ih restMerged othersMerged later]
      | .literal text, .capture value offset :: others =>
          have solid := (merged_literal_cons_iff.mp firstMerged).1
          obtain ⟨c, more, standing⟩ :=
            List.exists_cons_of_ne_nil (String.toList_eq_nil_iff.not.mpr solid)
          simp [Segment.pieces, standing] at equal
      | .capture value offset, .literal text :: others =>
          have solid := (merged_literal_cons_iff.mp secondMerged).1
          obtain ⟨c, more, standing⟩ :=
            List.exists_cons_of_ne_nil (String.toList_eq_nil_iff.not.mpr solid)
          simp [Segment.pieces, standing] at equal
      | .capture value offset, .capture other place :: others =>
          simp only [piecesOf_cons, Segment.pieces, List.cons_append, List.nil_append,
            List.cons.injEq, Piece.capture.injEq] at equal
          obtain ⟨⟨rfl, rfl⟩, later⟩ := equal
          rw [ih (merged_capture_cons_iff.mp firstMerged) (merged_capture_cons_iff.mp secondMerged)
            later]

theorem merge_of_merged {segments : List Segment} (merged : Merged segments) :
    merge segments = segments :=
  eq_of_piecesOf_eq (merged_merge segments) merged (piecesOf_merge segments)

/-! ## Segments of pieces -/

theorem segmentsOf_char (c : Char) (pieces : List Piece) :
    segmentsOf (.char c :: pieces) = joinText (String.singleton c) (segmentsOf pieces) := by
  rw [segmentsOf]
  cases segmentsOf pieces with
  | nil => rfl
  | cons segment rest => cases segment <;> rfl

theorem piecesOf_segmentsOf (pieces : List Piece) : piecesOf (segmentsOf pieces) = pieces := by
  induction pieces with
  | nil => rfl
  | cons piece rest ih =>
      cases piece with
      | char c => simp [segmentsOf_char, piecesOf_joinText, ih]
      | capture value offset => simp [segmentsOf, Segment.pieces, ih]

theorem merged_segmentsOf (pieces : List Piece) : Merged (segmentsOf pieces) := by
  induction pieces with
  | nil => exact merged_nil
  | cons piece rest ih =>
      cases piece with
      | char c =>
          rw [segmentsOf_char]
          exact merged_joinText (by simp) ih
      | capture value offset => exact merged_capture_cons_iff.mpr ih

theorem segmentsOf_piecesOf (segments : List Segment) :
    segmentsOf (piecesOf segments) = merge segments :=
  eq_of_piecesOf_eq (merged_segmentsOf _) (merged_merge segments)
    ((piecesOf_segmentsOf _).trans (piecesOf_merge segments).symm)

/-- Captures may be moved before or after characters become literals. -/
theorem map_segmentsOf {move : Segment → Segment} {movePiece : Piece → Piece}
    (literal : ∀ text, move (.literal text) = .literal text)
    (char : ∀ c, movePiece (.char c) = .char c)
    (capture : ∀ value offset, ∃ place, move (.capture value offset) = .capture value place ∧
      movePiece (.capture value offset) = .capture value place) (pieces : List Piece) :
    (segmentsOf pieces).map move = segmentsOf (pieces.map movePiece) := by
  induction pieces with
  | nil => rfl
  | cons piece rest ih =>
      cases piece with
      | char c =>
          have keeps (value : Capture) (offset : Nat) :
              ∃ place, move (.capture value offset) = .capture value place :=
            let ⟨place, moved, _⟩ := capture value offset
            ⟨place, moved⟩
          rw [segmentsOf_char, map_joinText literal keeps, ih, List.map_cons, char,
            segmentsOf_char]
      | capture value offset =>
          obtain ⟨place, moved, pieceMoved⟩ := capture value offset
          rw [segmentsOf, List.map_cons, moved, ih, List.map_cons, pieceMoved, segmentsOf]

theorem map_shape_segmentsOf (pieces : List Piece) :
    (segmentsOf pieces).map Segment.shape = segmentsOf (pieces.map Piece.shape) :=
  map_segmentsOf (fun _ => rfl) (fun _ => rfl) (fun _ _ => ⟨0, rfl, rfl⟩) pieces

/-- Reading does not move captures. -/
theorem filterMap_offset_piecesOf (segments : List Segment) :
    (piecesOf segments).filterMap Piece.offset? = segments.filterMap Segment.offset? := by
  induction segments with
  | nil => rfl
  | cons segment rest ih =>
      cases segment with
      | literal text =>
          have none : ((Segment.literal text).pieces).filterMap Piece.offset? = [] := by
            simp [Segment.pieces, List.filterMap_map, Function.comp_def, Piece.offset?]
          rw [piecesOf_cons, List.filterMap_append, none, ih]
          rfl
      | capture value offset =>
          rw [piecesOf_cons, List.filterMap_append, ih]
          rfl

end Template

end Unformat
