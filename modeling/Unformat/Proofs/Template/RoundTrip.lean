import Mathlib.Data.Nat.Digits.Defs
import Unformat.Proofs.Template.Acceptance

/-!
# Reading back a written template

Written segments are read back, up to the places of captures: empty literals disappear, and
neighbouring literals become one.
-/

namespace Unformat

/-- A capture that can be written: a number has no more digits than may be read, and a name is an
identifier. -/
structure Capture.Writable (capture : Capture) : Prop where
  slot : ∀ index, capture.slot = .number index →
    (Nat.toDigits 10 index).length ≤ Number.digitLimit
  rule : ∀ index, capture.rule = .number index →
    (Nat.toDigits 10 index).length ≤ Number.digitLimit
  name : ∀ name, capture.rule = .named name → Template.IsIdentifier name.toList

namespace Template

def Writable (segments : List Segment) : Prop :=
  ∀ value offset, .capture value offset ∈ segments → value.Writable

/-! ## Derivations of what is written -/

theorem isDigits_toDigits (number : Nat) : IsDigits (Nat.toDigits 10 number) :=
  ⟨Nat.toDigits_ne_nil, fun _ member => Nat.isDigit_of_mem_toDigits (by decide) (by decide) member⟩

theorem toList_toString (number : Nat) : (toString number).toList = Nat.toDigits 10 number := by
  rw [Nat.toString_eq_repr, Nat.toList_repr]

theorem exists_slotField {slot : SlotRef}
    (short : ∀ index, slot = .number index → (Nat.toDigits 10 index).length ≤ Number.digitLimit) :
    ∃ field, SlotField.Short field ∧ SlotField.text field = slot.text.toList ∧
      SlotField.value field = slot := by
  cases slot with
  | discard => exact ⟨some .discard, trivial, rfl, rfl⟩
  | next => exact ⟨none, trivial, rfl, rfl⟩
  | number index =>
      refine ⟨some (.number (Nat.toDigits 10 index) (isDigits_toDigits index)), short index rfl,
        ?_, ?_⟩
      · exact (toList_toString index).symm
      · rw [SlotField.value, Nat.ofDigitChars_ten_toDigits]

theorem exists_ruleField {rule : RuleRef} (given : rule ≠ .next)
    (short : ∀ index, rule = .number index → (Nat.toDigits 10 index).length ≤ Number.digitLimit)
    (name : ∀ name, rule = .named name → IsIdentifier name.toList) :
    ∃ field, RuleField.Short field ∧ RuleField.text field = rule.text.toList ∧
      RuleField.value field = rule := by
  cases rule with
  | next => exact (given rfl).elim
  | number index =>
      refine ⟨some (.number (Nat.toDigits 10 index) (isDigits_toDigits index)), short index rfl,
        ?_, ?_⟩
      · exact (toList_toString index).symm
      · rw [RuleField.value, Nat.ofDigitChars_ten_toDigits]
  | named word =>
      refine ⟨some (.name word.toList (name word rfl)), trivial, rfl, ?_⟩
      rw [RuleField.value, String.ofList_toList]

theorem exists_capturePart {capture : Capture} (writable : capture.Writable) :
    ∃ slot rule, (Part.capture slot rule).Short ∧
      (Part.capture slot rule).text = capture.text.toList ∧
      capture = ⟨SlotField.value slot, RuleField.value rule.join⟩ := by
  obtain ⟨slotRef, ruleRef⟩ := capture
  obtain ⟨slot, shortSlot, slotText, slotValue⟩ := exists_slotField writable.slot
  by_cases next : ruleRef = .next
  · subst next
    refine ⟨slot, none, ⟨shortSlot, trivial⟩, ?_, by rw [slotValue]; rfl⟩
    simp [Part.text, captureEnd, slotText, Capture.text]
  · obtain ⟨rule, shortRule, ruleText, ruleValue⟩ :=
      exists_ruleField next writable.rule writable.name
    refine ⟨slot, some rule, ⟨shortSlot, shortRule⟩, ?_, ?_⟩
    · have spelled : Capture.text ⟨slotRef, ruleRef⟩ =
          "\x7b" ++ slotRef.text ++ ":" ++ ruleRef.text ++ "\x7d" := by
        cases ruleRef with
        | next => exact (next rfl).elim
        | number index => rfl
        | named word => rfl
      simp [spelled, Part.text, captureEnd, slotText, ruleText]
    · rw [Option.join_some, slotValue, ruleValue]

theorem Writable.tail {segment : Segment} {rest : List Segment}
    (writable : Writable (segment :: rest)) : Writable rest :=
  fun value offset member => writable value offset (List.mem_cons_of_mem _ member)

theorem piecesFrom_chars (offset : Nat) (chars : List Char) :
    piecesFrom offset (chars.map .char) = chars.map .char := by
  induction chars generalizing offset with
  | nil => rfl
  | cons c chars ih => rw [List.map_cons, piecesFrom, ih]; rfl

theorem derived_chars (chars : List Char) :
    derived (chars.map .char) = chars.flatMap escapeChar := by
  rw [derived, List.flatMap_map]
  rfl

/-- What is written is derived, and the derivation says what was written. -/
theorem exists_derivation {segments : List Segment} (writable : Writable segments) (offset : Nat) :
    ∃ parts, (∀ part ∈ parts, part.Short) ∧ derived parts = (format segments).toList ∧
      (piecesFrom offset parts).map Piece.shape = (piecesOf segments).map Piece.shape := by
  induction segments generalizing offset with
  | nil => exact ⟨[], by simp, rfl, rfl⟩
  | cons segment rest ih =>
      have written : (format (segment :: rest)).toList =
          segment.text.toList ++ (format rest).toList := by
        simp [format]
      cases segment with
      | literal text =>
          obtain ⟨parts, short, derives, same⟩ :=
            ih writable.tail (offset + (derived (text.toList.map .char)).length)
          refine ⟨text.toList.map .char ++ parts, ?_, ?_, ?_⟩
          · intro part member
            rcases List.mem_append.mp member with char | later
            · obtain ⟨c, _, rfl⟩ := List.mem_map.mp char
              trivial
            · exact short part later
          · rw [derived_append, derived_chars, derives, written, Segment.text, escape,
              String.toList_ofList]
          · rw [piecesFrom_append, piecesFrom_chars, List.map_append, same, piecesOf_cons,
              List.map_append]
            rfl
      | capture value place =>
          obtain ⟨slot, rule, partShort, partText, rfl⟩ :=
            exists_capturePart (writable value place List.mem_cons_self)
          obtain ⟨parts, short, derives, same⟩ :=
            ih writable.tail (offset + (Part.capture slot rule).text.length)
          refine ⟨.capture slot rule :: parts, List.forall_mem_cons.mpr ⟨partShort, short⟩, ?_, ?_⟩
          · rw [derived_cons, partText, derives, written]
            rfl
          · rw [piecesFrom, List.map_cons, same]
            rfl

/-- Written segments are read back, neighbouring literals as one. -/
theorem exists_parse_format {segments : List Segment} (writable : Writable segments) :
    ∃ again, parse (format segments) = .ok again ∧
      again.map Segment.shape = (merge segments).map Segment.shape := by
  obtain ⟨parts, short, derives, same⟩ := exists_derivation writable 0
  refine ⟨_, parse_of_derived short derives, ?_⟩
  rw [map_shape_segmentsOf, same, ← map_shape_segmentsOf, segmentsOf_piecesOf]

/-! ## Segments that were read -/

theorem ofDigitChars_lt {digits : List Char} (isDigit : ∀ c ∈ digits, c.isDigit = true)
    (init : Nat) : Nat.ofDigitChars 10 digits init < (init + 1) * 10 ^ digits.length := by
  induction digits generalizing init with
  | nil => simp
  | cons c digits ih =>
      have bounds := Char.isDigit_iff_toNat.mp (isDigit c List.mem_cons_self)
      simp only [Char.reduceToNat] at bounds
      have later := ih (fun d member => isDigit d (List.mem_cons_of_mem _ member))
        (10 * init + (c.toNat - '0'.toNat))
      have digit : c.toNat - '0'.toNat ≤ 9 := by
        simp only [Char.reduceToNat]
        omega
      rw [Nat.ofDigitChars_cons]
      calc Nat.ofDigitChars 10 digits (10 * init + (c.toNat - '0'.toNat))
          < (10 * init + (c.toNat - '0'.toNat) + 1) * 10 ^ digits.length := later
        _ ≤ 10 * (init + 1) * 10 ^ digits.length := Nat.mul_le_mul_right _ (by omega)
        _ = (init + 1) * 10 ^ (c :: digits).length := by
            rw [List.length_cons, Nat.pow_succ]
            ring

theorem length_toDigits_le {digits : List Char} (isDigits : IsDigits digits) :
    (Nat.toDigits 10 (Nat.ofDigitChars 10 digits 0)).length ≤ digits.length := by
  have bound := ofDigitChars_lt isDigits.2 0
  rw [Nat.zero_add, Nat.one_mul] at bound
  exact Nat.toDigits_length 10 _ _ (List.length_pos_iff.mpr isDigits.1) bound

/-- What a short part says of a capture can be written. -/
theorem writable_of_short {slot : Option SlotField} {rule : Option RuleField}
    (shortSlot : SlotField.Short slot) (shortRule : RuleField.Short rule) :
    Capture.Writable ⟨SlotField.value slot, RuleField.value rule⟩ := by
  constructor
  · intro index number
    match slot with
    | none => cases number
    | some .discard => cases number
    | some (.number digits isDigits) =>
        cases number
        exact (length_toDigits_le isDigits).trans shortSlot
  · intro index number
    match rule with
    | none => cases number
    | some (.number digits isDigits) =>
        cases number
        exact (length_toDigits_le isDigits).trans shortRule
    | some (.name word isIdentifier) => cases number
  · intro name named
    match rule with
    | none => cases named
    | some (.number digits isDigits) => cases named
    | some (.name word isIdentifier) =>
        cases named
        rwa [String.toList_ofList]

theorem writable_and_merged_of_parse {template : String} {segments : List Segment}
    (read : parse template = .ok segments) : Writable segments ∧ Merged segments := by
  obtain ⟨parts, short, _, rfl⟩ := exists_parts_of_parse read
  refine ⟨?_, merged_segmentsOf _⟩
  intro value offset member
  have piece : .capture value offset ∈ piecesFrom 0 parts := by
    rw [← piecesOf_segmentsOf (piecesFrom 0 parts)]
    exact mem_piecesOf member
  obtain ⟨front, slot, rule, behind, rfl, rfl, _⟩ := exists_part_of_mem_piecesFrom piece
  obtain ⟨shortSlot, shortRule⟩ := short (.capture slot rule) (by simp)
  exact writable_of_short shortSlot shortRule

/-- Reading undoes writing: written segments are read back up to the places of captures, without
empty literals and with neighbouring literals as one. In particular, segments that were read are
read back as they are, and a text that was escaped is read as one literal. -/
theorem parse_format :
    (∀ segments, Writable segments → ∃ again, parse (format segments) = .ok again ∧
      again.map Segment.shape = (merge segments).map Segment.shape) ∧
    (∀ template segments, parse template = .ok segments →
      ∃ again, parse (format segments) = .ok again ∧
        again.map Segment.shape = segments.map Segment.shape) ∧
    ∀ text, parse (escape text) = .ok (if text = "" then [] else [.literal text]) := by
  refine ⟨fun segments writable => exists_parse_format writable, ?_, ?_⟩
  · intro template segments read
    obtain ⟨writable, merged⟩ := writable_and_merged_of_parse read
    have again := exists_parse_format writable
    rwa [merge_of_merged merged] at again
  · intro text
    have derives : derived (text.toList.map .char) = (escape text).toList := by
      rw [derived_chars, escape, String.toList_ofList]
    have literal : piecesFrom 0 (text.toList.map .char) = piecesOf [.literal text] := by
      rw [piecesFrom_chars, piecesOf_cons, piecesOf_nil, List.append_nil]
      rfl
    rw [parse_of_derived (by simp [Part.Short]) derives, literal, segmentsOf_piecesOf]
    rfl

/-- A literal that ends in a brace stands before a capture. -/
theorem parse_format_of_brace_before_capture :
    Writable [.literal "a\x7b", .capture ⟨.discard, .named "x"⟩ 0, .literal "", .literal "\x7d"] ∧
      ∃ again, parse "a\x7b\x7b\x7b_:x\x7d\x7d\x7d" = .ok again ∧
        again.map Segment.shape =
          [.literal "a\x7b", .capture ⟨.discard, .named "x"⟩ 0, .literal "\x7d"] := by
  have writable : Writable
      [.literal "a\x7b", .capture ⟨.discard, .named "x"⟩ 0, .literal "", .literal "\x7d"] := by
    intro value offset member
    simp only [List.mem_cons, reduceCtorEq, Segment.capture.injEq, List.not_mem_nil, or_false,
      false_or] at member
    obtain ⟨rfl, rfl⟩ := member
    refine ⟨by simp, by simp, ?_⟩
    rintro name named
    cases named
    decide
  exact ⟨writable, parse_format.1 _ writable⟩

end Template

end Unformat
