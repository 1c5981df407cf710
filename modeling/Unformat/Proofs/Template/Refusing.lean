import Unformat.Proofs.Template.Acceptance

/-!
# What is wrong with a template that is refused

A template is refused for a mistake, which has a code of the template phase, or because a number in
it has more digits than may be read.  The latter is so exactly when such a number stands in a
capture behind a front that the grammar derives, however the text goes on.
-/

namespace Unformat

/-- The failure is a fault with a code. -/
def TemplateFailure.isCoded : TemplateFailure → Bool
  | .malformed _ => true
  | .tooManyDigits _ => false

namespace Template

/-! ## Codes of mistakes -/

/-- A mistake, if it is one, has a code of the template phase. -/
def Stop.Coded : Stop → Prop
  | .mistake kind _ => kind.code.phase = .template
  | .tooManyDigits _ => True

/-- Whatever the result stops for has a code. -/
def StopsCoded {α : Type} (result : Except Stop α) : Prop :=
  ∀ stop, result = .error stop → stop.Coded

section Coded

variable {α β : Type}

theorem stopsCoded_ok (value : α) : StopsCoded (.ok value) := by
  rintro stop ⟨⟩

theorem stopsCoded_mistake {kind : TemplateMistake} (coded : kind.code.phase = .template)
    (position : Nat) : StopsCoded (α := α) (.error (.mistake kind position)) := by
  rintro stop ⟨⟩
  exact coded

theorem StopsCoded.bind {first : Except Stop α} {next : α → Except Stop β}
    (coded : StopsCoded first) (later : ∀ value, StopsCoded (next value)) :
    StopsCoded (first >>= next) := by
  cases first with
  | ok value => exact later value
  | error stop =>
      rintro other ⟨⟩
      exact coded stop rfl

theorem StopsCoded.map {result : Except Stop α} (coded : StopsCoded result) (change : α → β) :
    StopsCoded (result.map change) := by
  cases result with
  | ok value => exact stopsCoded_ok _
  | error stop =>
      rintro other ⟨⟩
      exact coded stop rfl

theorem stopsCoded_number (digits : List Char) : StopsCoded (number digits) := by
  unfold number
  split
  · exact stopsCoded_ok _
  · rintro stop ⟨⟩
    exact trivial

theorem stopsCoded_slotRef (field : List Char) (position : Nat) :
    StopsCoded (slotRef field position) := by
  unfold slotRef
  split_ifs
  · exact stopsCoded_ok _
  · exact stopsCoded_ok _
  · exact (stopsCoded_number field).map _
  · exact stopsCoded_mistake rfl position

theorem stopsCoded_ruleRef (field : List Char) (position : Nat) :
    StopsCoded (ruleRef field position) := by
  unfold ruleRef
  split_ifs
  · exact stopsCoded_ok _
  · exact stopsCoded_ok _
  · exact (stopsCoded_number field).map _
  · exact stopsCoded_mistake rfl position

theorem stopsCoded_close (start position : Nat) (text : List Char) :
    StopsCoded (close start position text) := by
  unfold close
  split
  · exact stopsCoded_mistake rfl start
  · exact stopsCoded_ok _
  · exact stopsCoded_mistake rfl position

theorem stopsCoded_readCapture (start : Nat) (text : List Char) :
    StopsCoded (readCapture start text) := by
  refine (stopsCoded_slotRef _ _).bind fun slot => ?_
  dsimp only
  split
  · exact (stopsCoded_ruleRef _ _).bind fun rule =>
      (stopsCoded_close _ _ _).bind fun rest => stopsCoded_ok _
  · exact (stopsCoded_close _ _ _).bind fun rest => stopsCoded_ok _

theorem stopsCoded_pieces (offset : Nat) (text : List Char) : StopsCoded (pieces offset text) := by
  fun_induction pieces offset text with
  | case1 offset => exact stopsCoded_ok _
  | case2 offset rest ih => exact ih.map _
  | case3 offset rest ih => exact ih.map _
  | case4 offset rest single => exact stopsCoded_mistake rfl offset
  | case5 offset body single stop found =>
      rintro other ⟨⟩
      exact stopsCoded_readCapture offset body stop found
  | case6 offset body single capture rest found ih => exact ih.map _
  | case7 offset c rest _ _ closing opening ih => exact ih.map _

end Coded

/-- The code of a mistake belongs to the template phase. -/
theorem phase_of_parse {template : String} {fault : TemplateFault}
    (refused : parse template = .error (.malformed fault)) :
    (Fault.code fault).phase = .template := by
  unfold parse at refused
  split at refused
  · cases refused
  · next kind position stopped =>
      cases refused
      exact stopsCoded_pieces 0 _ _ stopped
  · cases refused

/-! ## Numbers of too many digits -/

/-- The result stops at a number of too many digits. -/
def StopsAtNumber {α : Type} (result : Except Stop α) : Prop :=
  ∃ fault, result = .error (.tooManyDigits fault)

theorem StopsAtNumber.map {α β : Type} {result : Except Stop α} (stops : StopsAtNumber result)
    (change : α → β) : StopsAtNumber (result.map change) := by
  obtain ⟨fault, rfl⟩ := stops
  exact ⟨fault, rfl⟩

/-- A slot whose digits are too many stops the reading. -/
theorem stopsAtNumber_readCapture_of_slot {start : Nat} {slot : Option SlotField}
    (long : ¬ SlotField.Short slot) {behind : List Char} (ends : Stops isSlotChar behind) :
    StopsAtNumber (readCapture start (SlotField.text slot ++ behind)) := by
  obtain ⟨_, _, fault, read⟩ := SlotField.read_of_not_short long
  rw [readCapture, takeWhile_run isSlotChar_of_mem_text ends, slotRef_text, read]
  exact ⟨fault, rfl⟩

/-- A capture that has been derived stops the reading if a number in it is too long. -/
theorem stopsAtNumber_readCapture_of_part {slot : Option SlotField}
    {rule : Option (Option RuleField)} (long : ¬ (Part.capture slot rule).Short) (start : Nat)
    (behind : List Char) :
    StopsAtNumber (readCapture start (SlotField.text slot ++ (captureEnd rule ++ behind))) := by
  by_cases short : SlotField.Short slot
  · have longRule : ¬ RuleField.Short rule.join := fun shortRule => long ⟨short, shortRule⟩
    obtain ⟨_, _, fault, read⟩ := RuleField.read_of_not_short longRule
    rw [readCapture_of_standing, SlotField.read_of_short short, read]
    exact ⟨fault, rfl⟩
  · exact stopsAtNumber_readCapture_of_slot short stops_captureEnd

/-- A capture with a field of too many digits stops the reading. -/
theorem stopsAtNumber_readCapture (start : Nat) {body field : List Char}
    (standing : CaptureField body field) (digits : IsDigits field)
    (long : Number.digitLimit < field.length) : StopsAtNumber (readCapture start body) := by
  cases standing with
  | slot =>
      have split : body.takeWhile isSlotChar ++ body.dropWhile isSlotChar = body :=
        List.takeWhile_append_dropWhile
      rw [← split]
      have notShort : ¬ SlotField.Short (some (.number _ digits)) := Nat.not_le_of_lt long
      exact stopsAtNumber_readCapture_of_slot notShort (stops_dropWhile isSlotChar body)
  | @rule slot behind whole =>
      have colon : Stops isSlotChar (':' :: behind) := stops_cons.mpr (by decide)
      rw [whole]
      by_cases short : SlotField.Short slot
      · have notShort : ¬ RuleField.Short (some (.number _ digits)) := Nat.not_le_of_lt long
        obtain ⟨_, _, fault, read⟩ := RuleField.read_of_not_short notShort
        have field := ruleRef_text (some (.number _ digits))
          (start + 1 + (SlotField.text slot).length + 1)
        rw [readCapture, takeWhile_run isSlotChar_of_mem_text colon, slotRef_text,
          SlotField.read_of_short short, List.drop_left]
        simp only [bind, Except.bind]
        rw [show behind.takeWhile isIdentChar = RuleField.text (some (.number _ digits)) from rfl,
          field, read]
        exact ⟨fault, rfl⟩
      · exact stopsAtNumber_readCapture_of_slot short colon

theorem ne_brace_of_captureField {body field : List Char} (standing : CaptureField body field)
    (digits : IsDigits field) (more : List Char) : body ≠ '\x7b' :: more := by
  rintro rfl
  cases standing with
  | slot => exact digits.1 rfl
  | @rule slot behind whole =>
      cases slotText : SlotField.text slot with
      | nil => simp [slotText] at whole
      | cons first others =>
          have inside := @isSlotChar_of_mem_text slot first (by simp [slotText])
          rw [slotText] at whole
          rw [← List.head_eq_of_cons_eq whole] at inside
          exact absurd inside (by decide)

/-- Whatever has been derived before, reading comes to a field of too many digits, or to another
one before it. -/
theorem stopsAtNumber_pieces {body field : List Char} (standing : CaptureField body field)
    (digits : IsDigits field) (long : Number.digitLimit < field.length) (front : List Part)
    (offset : Nat) : StopsAtNumber (pieces offset (derived front ++ '\x7b' :: body)) := by
  induction front generalizing offset with
  | nil =>
      obtain ⟨fault, stops⟩ := stopsAtNumber_readCapture offset standing digits long
      refine ⟨fault, ?_⟩
      rw [derived_nil, List.nil_append,
        pieces.eq_5 _ _ (ne_brace_of_captureField standing digits), stops]
  | cons part front ih =>
      rw [derived_cons, List.append_assoc]
      by_cases short : part.Short
      · rw [pieces_part_append short]
        exact (ih _).map _
      · cases part with
        | char c => exact absurd trivial short
        | capture slot rule =>
            obtain ⟨fault, stops⟩ := stopsAtNumber_readCapture_of_part short offset
              (derived front ++ '\x7b' :: body)
            refine ⟨fault, ?_⟩
            simp only [Part.text, List.cons_append, List.append_assoc]
            rw [pieces.eq_5 _ _ fun _ brace => captureBody_ne_brace_cons brace, stops]

theorem exists_tooManyDigits_iff (template : String) :
    (∃ fault, parse template = .error (.tooManyDigits fault)) ↔
      ∃ field, DigitField template.toList field ∧ Number.digitLimit < field.length := by
  constructor
  · rintro ⟨fault, refused⟩
    have reads := reads_pieces 0 template.toList
    unfold parse at refused
    split at refused
    · cases refused
    · cases refused
    · next stopped =>
        rw [stopped] at reads
        cases reads with
        | stopped front short whole halts =>
            rw [← whole]
            exact digitField_of_halts halts
  · rintro ⟨field, ⟨front, body, whole, standing, digits⟩, long⟩
    obtain ⟨fault, stops⟩ := stopsAtNumber_pieces standing digits long front 0
    refine ⟨fault, ?_⟩
    rw [parse, whole, stops]

/-- A template that is one capture with too long a number for its slot. -/
theorem exists_tooManyDigits_of_slot {digits : List Char}
    (isDigits : ∀ c ∈ digits, c.isDigit = true) (long : Number.digitLimit < digits.length) :
    ∃ fault, parse (String.ofList ('\x7b' :: (digits ++ ['\x7d']))) =
      .error (.tooManyDigits fault) := by
  have solid : IsDigits digits := ⟨List.length_pos_iff.mp (Nat.zero_lt_of_lt long), isDigits⟩
  have slot : (digits ++ ['\x7d']).takeWhile isSlotChar = digits :=
    takeWhile_run (@isSlotChar_of_mem_text (some (.number digits solid)))
      (stops_cons.mpr (by decide))
  have standing : CaptureField (digits ++ ['\x7d']) digits := by
    have first : CaptureField _ ((digits ++ ['\x7d']).takeWhile isSlotChar) := .slot
    rwa [slot] at first
  rw [exists_tooManyDigits_iff, String.toList_ofList]
  exact ⟨digits, ⟨[], digits ++ ['\x7d'], rfl, standing, solid⟩, long⟩

end Template

end Unformat
