import Mathlib.Data.List.TakeWhile
import Unformat.Proofs.Template.Grammar

/-!
# Reading a template by its grammar

`Reads` says part by part what reading makes of a text: it follows a derivation as far as it goes
and stops at the end, at a closing brace that stands alone, or at an opening brace behind which no
capture can be read. What reading accepts, and where it reports a mistake, follows from that.
-/

namespace Unformat

namespace Template

/-! ## Fields -/

/-- The reading of a slot field. -/
def SlotField.read : Option SlotField → Except Stop SlotRef
  | some (.number digits _) => (Template.number digits).map .number
  | field => .ok (value field)

/-- The reading of a rule field. -/
def RuleField.read : Option RuleField → Except Stop RuleRef
  | some (.number digits _) => (Template.number digits).map .number
  | field => .ok (value field)

theorem number_of_short {digits : List Char} (short : digits.length ≤ Number.digitLimit) :
    Template.number digits = .ok (Nat.ofDigitChars 10 digits 0) := by
  rw [Template.number, Number.natural, if_neg (by omega)]

theorem number_of_long {digits : List Char} (long : Number.digitLimit < digits.length) :
    Template.number digits = .error (.tooManyDigits ⟨digits.length⟩) := by
  rw [Template.number, Number.natural, if_pos long]

theorem SlotField.read_of_short {slot : Option SlotField} (short : Short slot) :
    read slot = .ok (value slot) := by
  match slot with
  | none => rfl
  | some .discard => rfl
  | some (.number digits isDigits) =>
      rw [read, number_of_short short]
      rfl

theorem SlotField.read_of_not_short {slot : Option SlotField} (long : ¬ Short slot) :
    IsDigits (text slot) ∧ Number.digitLimit < (text slot).length ∧
      ∃ fault, read slot = .error (.tooManyDigits fault) := by
  match slot with
  | none => exact (long trivial).elim
  | some .discard => exact (long trivial).elim
  | some (.number digits isDigits) =>
      have more := Nat.lt_of_not_le long
      refine ⟨isDigits, more, ⟨digits.length⟩, ?_⟩
      rw [read, number_of_long more]
      rfl

theorem RuleField.read_of_short {rule : Option RuleField} (short : Short rule) :
    read rule = .ok (value rule) := by
  match rule with
  | none => rfl
  | some (.name word isIdentifier) => rfl
  | some (.number digits isDigits) =>
      rw [read, number_of_short short]
      rfl

theorem RuleField.read_of_not_short {rule : Option RuleField} (long : ¬ Short rule) :
    IsDigits (text rule) ∧ Number.digitLimit < (text rule).length ∧
      ∃ fault, read rule = .error (.tooManyDigits fault) := by
  match rule with
  | none => exact (long trivial).elim
  | some (.name word isIdentifier) => exact (long trivial).elim
  | some (.number digits isDigits) =>
      have more := Nat.lt_of_not_le long
      refine ⟨isDigits, more, ⟨digits.length⟩, ?_⟩
      rw [read, number_of_long more]
      rfl

theorem all_isDigit {digits : List Char} (isDigits : IsDigits digits) :
    digits.all Char.isDigit = true := List.all_eq_true.mpr isDigits.2

theorem slotRef_text (slot : Option SlotField) (position : Nat) :
    slotRef (SlotField.text slot) position = SlotField.read slot := by
  match slot with
  | none => rfl
  | some .discard => rfl
  | some (.number digits isDigits) =>
      rw [SlotField.text, slotRef, if_neg isDigits.ne_underscore, if_neg isDigits.1,
        if_pos (all_isDigit isDigits), SlotField.read]

theorem ruleRef_text (rule : Option RuleField) (position : Nat) :
    ruleRef (RuleField.text rule) position = RuleField.read rule := by
  match rule with
  | none => rfl
  | some (.name word isIdentifier) =>
      have starts : word.head?.any isIdentStart = true := by
        cases word with
        | nil => exact isIdentifier.elim
        | cons first others => simpa using isIdentifier.1
      rw [RuleField.text, ruleRef, if_neg isIdentifier.ne_nil, if_pos starts]
      rfl
  | some (.number digits isDigits) =>
      have starts : ¬ digits.head?.any isIdentStart = true := by
        cases digits with
        | nil => simp
        | cons first others =>
            have notStart := isIdentStart_of_isDigit (isDigits.2 first List.mem_cons_self)
            simp [notStart]
      rw [RuleField.text, ruleRef, if_neg isDigits.1, if_neg starts,
        if_pos (all_isDigit isDigits), RuleField.read]

theorem slotRef_cases (field : List Char) (position : Nat) :
    (∃ slot, SlotField.text slot = field) ∨
      field ≠ [] ∧ slotRef field position =
        .error (.mistake (.invalidPosition (String.ofList field)) position) := by
  by_cases underscore : field = ['_']
  · exact .inl ⟨some .discard, underscore.symm⟩
  by_cases empty : field = []
  · exact .inl ⟨none, empty.symm⟩
  by_cases digits : field.all Char.isDigit = true
  · exact .inl ⟨some (.number field ⟨empty, List.all_eq_true.mp digits⟩), rfl⟩
  · refine .inr ⟨empty, ?_⟩
    rw [slotRef, if_neg underscore, if_neg empty, if_neg digits]

theorem ruleRef_cases {field : List Char} (inside : ∀ c ∈ field, isIdentChar c = true)
    (position : Nat) :
    (∃ rule, RuleField.text rule = field) ∨
      field ≠ [] ∧ ruleRef field position =
        .error (.mistake (.invalidRule (String.ofList field)) position) := by
  by_cases empty : field = []
  · exact .inl ⟨none, empty.symm⟩
  by_cases starts : field.head?.any isIdentStart = true
  · have isIdentifier : IsIdentifier field := by
      cases field with
      | nil => exact (empty rfl).elim
      | cons first others =>
          exact ⟨by simpa using starts, fun c member => inside c (List.mem_cons_of_mem _ member)⟩
    exact .inl ⟨some (.name field isIdentifier), rfl⟩
  by_cases digits : field.all Char.isDigit = true
  · exact .inl ⟨some (.number field ⟨empty, List.all_eq_true.mp digits⟩), rfl⟩
  · refine .inr ⟨empty, ?_⟩
    rw [ruleRef, if_neg empty, if_neg starts, if_neg digits]

/-! ## Captures -/

/-- A field of what stands behind the opening brace of a capture. -/
inductive CaptureField (body : List Char) : List Char → Prop where
  | slot : CaptureField body (body.takeWhile isSlotChar)
  | rule {slot : Option SlotField} {behind : List Char} :
      body = SlotField.text slot ++ ':' :: behind →
      CaptureField body (behind.takeWhile isIdentChar)

/-- A mistake in a capture whose opening brace stands at `start`, with `length` characters of the
template behind it. -/
structure InCapture (start length : Nat) (kind : TemplateMistake) (position : Nat) : Prop where
  kind_ne : kind ≠ .strayClose
  start_le : start ≤ position
  le_end : position ≤ start + length

/-- What reading makes of the text behind the opening brace of a capture. -/
inductive CaptureReading (start : Nat) (body : List Char) :
    Except Stop (Capture × List Char) → Prop where
  | capture {slot : Option SlotField} (rule : Option (Option RuleField)) {behind : List Char} :
      body = SlotField.text slot ++ (captureEnd rule ++ behind) →
      SlotField.Short slot → RuleField.Short rule.join →
      CaptureReading start body
        (.ok (⟨SlotField.value slot, RuleField.value rule.join⟩, behind))
  | mistake {kind : TemplateMistake} {position : Nat} :
      InCapture start body.length kind position →
      CaptureReading start body (.error (.mistake kind position))
  | tooManyDigits {field : List Char} {fault : Number.TooManyDigits} :
      CaptureField body field → IsDigits field → Number.digitLimit < field.length →
      CaptureReading start body (.error (.tooManyDigits fault))

theorem close_cases {start position length : Nat} {behind : List Char}
    (started : start < position) (whole : position + behind.length = start + 1 + length) :
    (∃ rest, behind = '\x7d' :: rest) ∨
      ∃ kind place, close start position behind = .error (.mistake kind place) ∧
        InCapture start length kind place := by
  unfold close
  split
  · exact .inr ⟨_, _, rfl, by simp, le_rfl, by omega⟩
  · exact .inl ⟨_, rfl⟩
  · rw [List.length_cons] at whole
    exact .inr ⟨_, _, rfl, by simp, by omega, by omega⟩

/-- Reading a capture that stands in the text gives what it says, unless a number is too long. -/
theorem readCapture_of_standing (start : Nat) (slot : Option SlotField)
    (rule : Option (Option RuleField)) (behind : List Char) :
    readCapture start (SlotField.text slot ++ (captureEnd rule ++ behind)) = (do
      let slotRef ← SlotField.read slot
      let ruleRef ← RuleField.read rule.join
      return (⟨slotRef, ruleRef⟩, behind)) := by
  rw [readCapture, takeWhile_run isSlotChar_of_mem_text stops_captureEnd, slotRef_text,
    List.drop_left]
  congr 1
  funext slotRef
  cases rule with
  | none => rfl
  | some rule =>
      have closed : Stops isIdentChar ('\x7d' :: behind) := stops_cons.mpr (by decide)
      simp only [captureEnd, List.cons_append, List.append_assoc, List.nil_append,
        takeWhile_run isIdentChar_of_mem_text closed, ruleRef_text, List.drop_left]
      rfl

section Spec

variable {start : Nat} {slot : Option SlotField} {behind : List Char}

theorem captureReading_of_colon (short : SlotField.Short slot) :
    CaptureReading start (SlotField.text slot ++ ':' :: behind)
      (readCapture start (SlotField.text slot ++ ':' :: behind)) := by
  have colon : Stops isSlotChar (':' :: behind) := stops_cons.mpr (by decide)
  have split : behind.takeWhile isIdentChar ++ behind.dropWhile isIdentChar = behind :=
    List.takeWhile_append_dropWhile
  have length := congrArg List.length split
  rw [List.length_append] at length
  rw [readCapture, takeWhile_run isSlotChar_of_mem_text colon, slotRef_text,
    SlotField.read_of_short short, List.drop_left]
  simp only [bind, Except.bind, drop_length_takeWhile]
  rcases ruleRef_cases (fun c member => List.mem_takeWhile_imp member)
    (start + 1 + (SlotField.text slot).length + 1) with ⟨rule, ruleText⟩ | ⟨solid, wrong⟩
  · rw [← ruleText] at split length ⊢
    rw [ruleRef_text]
    by_cases shortRule : RuleField.Short rule
    · rw [RuleField.read_of_short shortRule]
      have started : start < start + 1 + (SlotField.text slot).length + 1 +
          (RuleField.text rule).length := by omega
      have whole : start + 1 + (SlotField.text slot).length + 1 + (RuleField.text rule).length +
          (behind.dropWhile isIdentChar).length =
            start + 1 + (SlotField.text slot ++ ':' :: behind).length := by
        simp only [List.length_append, List.length_cons]
        omega
      rcases close_cases started whole with ⟨rest, closed⟩ | ⟨kind, place, stops, inCapture⟩
      · rw [closed] at split ⊢
        exact .capture (some rule) (by simp [captureEnd, ← split]) short shortRule
      · simp only [stops]
        exact .mistake inCapture
    · obtain ⟨digits, long, fault, read⟩ := RuleField.read_of_not_short shortRule
      rw [read]
      rw [ruleText] at digits long
      exact .tooManyDigits (.rule rfl) digits long
  · rw [wrong]
    have positive := List.length_pos_iff.mpr solid
    exact .mistake ⟨by simp, by omega, by simp only [List.length_append, List.length_cons]; omega⟩

theorem captureReading_of_no_colon (short : SlotField.Short slot)
    (ends : Stops isSlotChar behind) (noColon : ∀ more, behind ≠ ':' :: more) :
    CaptureReading start (SlotField.text slot ++ behind)
      (readCapture start (SlotField.text slot ++ behind)) := by
  rw [readCapture, takeWhile_run isSlotChar_of_mem_text ends, slotRef_text,
    SlotField.read_of_short short, List.drop_left]
  simp only [bind, Except.bind]
  have started : start < start + 1 + (SlotField.text slot).length := by omega
  have whole : start + 1 + (SlotField.text slot).length + behind.length =
      start + 1 + (SlotField.text slot ++ behind).length := by
    rw [List.length_append, ← Nat.add_assoc]
  rcases close_cases started whole with ⟨rest, closed⟩ | ⟨kind, place, stops, inCapture⟩
  · subst closed
    exact .capture none rfl short trivial
  · simp only [stops]
    exact .mistake inCapture

theorem readCapture_of_short {rule : Option (Option RuleField)} (shortSlot : SlotField.Short slot)
    (shortRule : RuleField.Short rule.join) :
    readCapture start (SlotField.text slot ++ (captureEnd rule ++ behind)) =
      .ok (⟨SlotField.value slot, RuleField.value rule.join⟩, behind) := by
  rw [readCapture_of_standing, SlotField.read_of_short shortSlot,
    RuleField.read_of_short shortRule]
  rfl

/-- Reading finds no mistake in a capture that stands in the text. -/
theorem readCapture_ne_mistake {rule : Option (Option RuleField)} {kind : TemplateMistake}
    {position : Nat} :
    readCapture start (SlotField.text slot ++ (captureEnd rule ++ behind)) ≠
      .error (.mistake kind position) := by
  rw [readCapture_of_standing]
  by_cases shortSlot : SlotField.Short slot
  · rw [SlotField.read_of_short shortSlot]
    by_cases shortRule : RuleField.Short rule.join
    · rw [RuleField.read_of_short shortRule]
      simp [bind, Except.bind, pure, Except.pure]
    · obtain ⟨_, _, fault, read⟩ := RuleField.read_of_not_short shortRule
      simp [read, bind, Except.bind]
  · obtain ⟨_, _, fault, read⟩ := SlotField.read_of_not_short shortSlot
    simp [read, bind, Except.bind]

theorem captureReading_readCapture (start : Nat) (body : List Char) :
    CaptureReading start body (readCapture start body) := by
  have split : body.takeWhile isSlotChar ++ body.dropWhile isSlotChar = body :=
    List.takeWhile_append_dropWhile
  rcases slotRef_cases (body.takeWhile isSlotChar) (start + 1) with ⟨slot, slotText⟩ | ⟨solid, wrong⟩
  · by_cases short : SlotField.Short slot
    · rw [← slotText] at split
      have ends := stops_dropWhile isSlotChar body
      rw [← split]
      cases standing : body.dropWhile isSlotChar with
      | nil => exact captureReading_of_no_colon short (stops_nil _) (by simp)
      | cons c more =>
          rw [standing] at ends
          by_cases colon : c = ':'
          · subst colon
            exact captureReading_of_colon short
          · exact captureReading_of_no_colon short ends (by simp [colon])
    · obtain ⟨digits, long, fault, read⟩ := SlotField.read_of_not_short short
      rw [readCapture, ← slotText, slotRef_text, read]
      rw [slotText] at digits long
      exact .tooManyDigits .slot digits long
  · have positive := List.length_pos_iff.mpr solid
    have bound := (List.takeWhile_prefix isSlotChar (l := body)).length_le
    rw [readCapture, wrong]
    exact .mistake ⟨by simp, by omega, by omega⟩

end Spec

/-! ## Texts -/

/-- Reading stops at the beginning of a text that stands `offset` characters into its template. -/
inductive Halts (offset : Nat) : List Char → Stop → Prop where
  | strayClose {rest : List Char} :
      Stuck ('\x7d' :: rest) → Halts offset ('\x7d' :: rest) (.mistake .strayClose offset)
  | mistake {position : Nat} {body : List Char} {kind : TemplateMistake} :
      Stuck ('\x7b' :: body) → InCapture offset body.length kind position →
      Halts offset ('\x7b' :: body) (.mistake kind position)
  | tooManyDigits {body field : List Char} {fault : Number.TooManyDigits} :
      CaptureField body field → IsDigits field → Number.digitLimit < field.length →
      Halts offset ('\x7b' :: body) (.tooManyDigits fault)

/-- What reading makes of a text that stands `offset` characters into its template: it follows a
derivation to the end or to where it stops. -/
inductive Reads (offset : Nat) (text : List Char) : Except Stop (List Piece) → Prop where
  | whole (parts : List Part) :
      (∀ part ∈ parts, part.Short) → derived parts = text →
      Reads offset text (.ok (piecesFrom offset parts))
  | stopped (front : List Part) {behind : List Char} {stop : Stop} :
      (∀ part ∈ front, part.Short) → derived front ++ behind = text →
      Halts (offset + (derived front).length) behind stop →
      Reads offset text (.error stop)

theorem Reads.of_halts {offset : Nat} {text : List Char} {stop : Stop}
    (halts : Halts offset text stop) : Reads offset text (.error stop) :=
  .stopped [] (by simp) rfl halts

theorem Reads.part {offset : Nat} {rest : List Char} {result : Except Stop (List Piece)}
    (part : Part) (short : part.Short) (reads : Reads (offset + part.text.length) rest result) :
    Reads offset (part.text ++ rest) (result.map (part.piece offset :: ·)) := by
  cases reads with
  | whole parts allShort same =>
      exact .whole (part :: parts) (List.forall_mem_cons.mpr ⟨short, allShort⟩)
        (by rw [derived_cons, same])
  | @stopped front behind _ allShort same halts =>
      refine .stopped (part :: front) (List.forall_mem_cons.mpr ⟨short, allShort⟩)
        (by rw [derived_cons, List.append_assoc, same]) ?_
      rwa [derived_cons, List.length_append, ← Nat.add_assoc]

theorem pieces_char_append (c : Char) (offset : Nat) (rest : List Char) :
    pieces offset (escapeChar c ++ rest) =
      (pieces (offset + (escapeChar c).length) rest).map (.char c :: ·) := by
  by_cases opening : c = '\x7b'
  · subst opening
    exact pieces.eq_2 offset rest
  by_cases closing : c = '\x7d'
  · subst closing
    exact pieces.eq_3 offset rest
  · rw [escapeChar, if_neg (by simp [opening, closing])]
    exact pieces.eq_6 offset c rest (fun _ brace => (opening brace).elim)
      (fun _ brace => (closing brace).elim) closing opening

theorem pieces_part_append {part : Part} (short : part.Short) (offset : Nat) (rest : List Char) :
    pieces offset (part.text ++ rest) =
      (pieces (offset + part.text.length) rest).map (part.piece offset :: ·) := by
  cases part with
  | char c => exact pieces_char_append c offset rest
  | capture slot rule =>
      simp only [Part.text, List.cons_append, List.append_assoc]
      rw [pieces.eq_5 _ _ fun _ brace => captureBody_ne_brace_cons brace,
        readCapture_of_short short.1 short.2]
      simp only [Part.piece, List.length_append, List.length_cons]
      congr 2
      omega

/-- Reading passes over what has been derived. -/
theorem pieces_derived_append {parts : List Part} (short : ∀ part ∈ parts, part.Short)
    (offset : Nat) (rest : List Char) :
    pieces offset (derived parts ++ rest) =
      (pieces (offset + (derived parts).length) rest).map (piecesFrom offset parts ++ ·) := by
  induction parts generalizing offset with
  | nil =>
      cases result : pieces offset rest <;> simp [piecesFrom, result, Except.map]
  | cons part parts ih =>
      have later := ih (fun other member => short other (List.mem_cons_of_mem _ member))
        (offset + part.text.length)
      rw [derived_cons, List.append_assoc, pieces_part_append (short part List.mem_cons_self),
        later, List.length_append, ← Nat.add_assoc]
      cases pieces (offset + part.text.length + (derived parts).length) rest <;> rfl

theorem eq_of_escapeChar_append {c first : Char} {behind rest : List Char}
    (equal : escapeChar c ++ behind = first :: rest) : c = first := by
  obtain ⟨more, charText⟩ := exists_escapeChar_eq_cons c
  rw [charText] at equal
  exact List.head_eq_of_cons_eq equal

theorem stuck_of_single_close {rest : List Char} (single : ∀ more, rest = '\x7d' :: more → False) :
    Stuck ('\x7d' :: rest) := by
  rintro part ⟨behind, equal⟩
  cases part with
  | char c =>
      obtain rfl := eq_of_escapeChar_append equal
      exact single behind (List.tail_eq_of_cons_eq equal).symm
  | capture slot rule => simp [Part.text] at equal

theorem stuck_of_bad_capture {body : List Char} (single : ∀ more, body = '\x7b' :: more → False)
    {start position : Nat} {kind : TemplateMistake}
    (stops : readCapture start body = .error (.mistake kind position)) :
    Stuck ('\x7b' :: body) := by
  rintro part ⟨behind, equal⟩
  cases part with
  | char c =>
      obtain rfl := eq_of_escapeChar_append equal
      exact single behind (List.tail_eq_of_cons_eq equal).symm
  | capture slot rule =>
      simp only [Part.text, List.cons_append, List.append_assoc, List.cons.injEq,
        true_and] at equal
      rw [← equal] at stops
      exact readCapture_ne_mistake stops

/-- Reading follows a derivation until it stops. -/
theorem reads_pieces (offset : Nat) (text : List Char) :
    Reads offset text (pieces offset text) := by
  fun_induction pieces offset text with
  | case1 offset => exact .whole [] (by simp) rfl
  | case2 offset rest ih => exact Reads.part (.char '\x7b') trivial ih
  | case3 offset rest ih => exact Reads.part (.char '\x7d') trivial ih
  | case4 offset rest single => exact .of_halts (.strayClose (stuck_of_single_close single))
  | case5 offset body single stop found =>
      have reading := captureReading_readCapture offset body
      rw [found] at reading
      cases reading with
      | mistake inCapture =>
          exact .of_halts (.mistake (stuck_of_bad_capture single found) inCapture)
      | tooManyDigits standing digits long => exact .of_halts (.tooManyDigits standing digits long)
  | case6 offset body single capture rest found ih =>
      have reading := captureReading_readCapture offset body
      rw [found] at reading
      cases reading with
      | @capture slot rule _ standing shortSlot shortRule =>
          have passed : body.length + 1 - rest.length = (Part.capture slot rule).text.length := by
            simp only [standing, Part.text, List.length_append, List.length_cons]
            omega
          rw [passed] at ih ⊢
          have read := Reads.part (.capture slot rule) ⟨shortSlot, shortRule⟩ ih
          have whole : (Part.capture slot rule).text ++ rest = '\x7b' :: body := by
            simp only [standing, Part.text, List.cons_append, List.append_assoc]
          rwa [whole] at read
  | case7 offset c rest _ _ closing opening ih =>
      have once : (Part.char c).text = [c] :=
        if_neg fun brace => brace.elim opening closing
      have read : Reads offset ((Part.char c).text ++ rest)
          ((pieces (offset + 1) rest).map (.char c :: ·)) :=
        Reads.part (.char c) trivial (by rwa [once])
      rwa [once] at read

end Template

end Unformat
