import Mathlib.Data.List.Infix
import Unformat.Template.Format
import Unformat.Template.Parse

/-!
# The grammar of templates

A derivation of a template is a list of parts: characters, of which a brace is written twice, and
captures, whose slot and rule may be left out. A text has at most one derivation, and of two texts
that begin with a derivation and go on with no part, equal ones have equal derivations.
-/

namespace Unformat

namespace Template

/-! ## Fields -/

def IsDigits (field : List Char) : Prop := field ≠ [] ∧ ∀ c ∈ field, c.isDigit = true

def IsIdentifier : List Char → Prop
  | [] => False
  | first :: others => isIdentStart first = true ∧ ∀ c ∈ others, isIdentChar c = true

instance : DecidablePred IsIdentifier
  | [] => inferInstanceAs (Decidable False)
  | first :: others =>
      decidable_of_iff ((isIdentStart first && others.all isIdentChar) = true)
        (by rw [Bool.and_eq_true, List.all_eq_true]; rfl)

inductive SlotField where
  | discard
  | number (digits : List Char) (isDigits : IsDigits digits)

inductive RuleField where
  | number (digits : List Char) (isDigits : IsDigits digits)
  | name (word : List Char) (isIdentifier : IsIdentifier word)

namespace SlotField

def text : Option SlotField → List Char
  | none => []
  | some .discard => ['_']
  | some (.number digits _) => digits

/-- What a slot field says; an empty one leaves the slot to the order. -/
def value : Option SlotField → SlotRef
  | none => .next
  | some .discard => .discard
  | some (.number digits _) => .number (Nat.ofDigitChars 10 digits 0)

/-- A number in the field has no more digits than may be read. -/
def Short : Option SlotField → Prop
  | some (.number digits _) => digits.length ≤ Number.digitLimit
  | _ => True

end SlotField

namespace RuleField

def text : Option RuleField → List Char
  | none => []
  | some (.number digits _) => digits
  | some (.name word _) => word

/-- What a rule field says; an empty one leaves the rule to the order. -/
def value : Option RuleField → RuleRef
  | none => .next
  | some (.number digits _) => .number (Nat.ofDigitChars 10 digits 0)
  | some (.name word _) => .named (String.ofList word)

/-- A number in the field has no more digits than may be read. -/
def Short : Option RuleField → Prop
  | some (.number digits _) => digits.length ≤ Number.digitLimit
  | _ => True

end RuleField

/-! ## Derivations -/

/-- A part of a derivation. The rule of a capture may be left out together with its colon. -/
inductive Part where
  | char (c : Char)
  | capture (slot : Option SlotField) (rule : Option (Option RuleField))

/-- What follows the slot in a capture. -/
def captureEnd : Option (Option RuleField) → List Char
  | none => ['\x7d']
  | some rule => ':' :: (RuleField.text rule ++ ['\x7d'])

namespace Part

def text : Part → List Char
  | .char c => escapeChar c
  | .capture slot rule => '\x7b' :: (SlotField.text slot ++ captureEnd rule)

def Short : Part → Prop
  | .char _ => True
  | .capture slot rule => SlotField.Short slot ∧ RuleField.Short rule.join

/-- What a part says that stands `offset` characters into its template. -/
def piece (offset : Nat) : Part → Piece
  | .char c => .char c
  | .capture slot rule => .capture ⟨SlotField.value slot, RuleField.value rule.join⟩ offset

end Part

/-- The text that a derivation derives. -/
def derived (parts : List Part) : List Char := parts.flatMap Part.text

/-- What the parts of a derivation say, the first of which stands `offset` characters into the
template. -/
def piecesFrom (offset : Nat) : List Part → List Piece
  | [] => []
  | part :: rest => part.piece offset :: piecesFrom (offset + part.text.length) rest

@[simp] theorem derived_nil : derived [] = [] := rfl

@[simp] theorem derived_cons (part : Part) (rest : List Part) :
    derived (part :: rest) = part.text ++ derived rest := rfl

@[simp] theorem derived_append (front behind : List Part) :
    derived (front ++ behind) = derived front ++ derived behind := by
  simp [derived]

theorem piecesFrom_append (offset : Nat) (front behind : List Part) :
    piecesFrom offset (front ++ behind) =
      piecesFrom offset front ++ piecesFrom (offset + (derived front).length) behind := by
  induction front generalizing offset with
  | nil => rfl
  | cons part rest ih =>
      have shifted := ih (offset + part.text.length)
      simp [piecesFrom, shifted, Nat.add_assoc]

/-! ## Runs -/

section Runs

variable {α : Type} {continues : α → Bool}

/-- Nothing follows, or what follows does not go on with a run. -/
def Stops (continues : α → Bool) (behind : List α) : Prop :=
  ∀ item ∈ behind.head?, continues item = false

theorem stops_nil (continues : α → Bool) : Stops continues [] := by
  intro item member
  simp at member

theorem stops_cons {item : α} {behind : List α} :
    Stops continues (item :: behind) ↔ continues item = false := by
  simp [Stops]

theorem stops_dropWhile (continues : α → Bool) (items : List α) :
    Stops continues (items.dropWhile continues) := by
  intro item member
  have stopped := List.head?_dropWhile_not continues items
  rw [Option.mem_def.mp member] at stopped
  exact stopped

theorem takeWhile_run {run behind : List α} (inside : ∀ item ∈ run, continues item = true)
    (stops : Stops continues behind) : (run ++ behind).takeWhile continues = run := by
  rw [List.takeWhile_append_of_pos inside]
  cases behind with
  | nil => simp
  | cons item behind => simp [stops_cons.mp stops]

theorem dropWhile_run {run behind : List α} (inside : ∀ item ∈ run, continues item = true)
    (stops : Stops continues behind) : (run ++ behind).dropWhile continues = behind := by
  rw [List.dropWhile_append_of_pos inside]
  cases behind with
  | nil => rfl
  | cons item behind => simp [stops_cons.mp stops]

theorem drop_length_takeWhile (continues : α → Bool) (items : List α) :
    items.drop (items.takeWhile continues).length = items.dropWhile continues :=
  calc items.drop (items.takeWhile continues).length
      = (items.takeWhile continues ++ items.dropWhile continues).drop
          (items.takeWhile continues).length := by rw [List.takeWhile_append_dropWhile]
    _ = items.dropWhile continues := List.drop_left

/-- Where a run ends is seen from the text. -/
theorem eq_of_run_append_eq {first second firstBehind secondBehind : List α}
    (firstInside : ∀ item ∈ first, continues item = true)
    (secondInside : ∀ item ∈ second, continues item = true)
    (firstStops : Stops continues firstBehind) (secondStops : Stops continues secondBehind)
    (equal : first ++ firstBehind = second ++ secondBehind) :
    first = second ∧ firstBehind = secondBehind := by
  constructor
  · rw [← takeWhile_run firstInside firstStops, equal, takeWhile_run secondInside secondStops]
  · rw [← dropWhile_run firstInside firstStops, equal, dropWhile_run secondInside secondStops]

end Runs

/-! ## Characters of fields -/

theorem isIdentChar_of_isIdentStart {c : Char} (starts : isIdentStart c = true) :
    isIdentChar c = true := by
  simp [isIdentChar, starts]

theorem isAlpha_iff_toNat {c : Char} :
    c.isAlpha = true ↔ 65 ≤ c.toNat ∧ c.toNat ≤ 90 ∨ 97 ≤ c.toNat ∧ c.toNat ≤ 122 := by
  have whole : c.isAlpha = (decide (c.val ≥ 'A'.val ∧ c.val ≤ 'Z'.val) ||
      decide (c.val ≥ 'a'.val) && decide (c.val ≤ 'z'.val)) := rfl
  simp only [whole, Bool.or_eq_true, Bool.and_eq_true, decide_eq_true_eq, ge_iff_le,
    UInt32.le_iff_toNat_le]
  exact Iff.rfl

theorem isIdentStart_of_isDigit {c : Char} (digit : c.isDigit = true) :
    isIdentStart c = false := by
  have bounds := Char.isDigit_iff_toNat.mp digit
  simp only [Char.reduceToNat] at bounds
  have notAlpha : ¬ c.isAlpha = true := by
    rw [isAlpha_iff_toNat]
    omega
  have different : c ≠ '_' := by
    rintro rfl
    simp at digit
  simp [isIdentStart, notAlpha, different]

theorem IsIdentifier.isIdentChar {word : List Char} (identifier : IsIdentifier word) :
    ∀ c ∈ word, isIdentChar c = true := by
  cases word with
  | nil => exact identifier.elim
  | cons first others =>
      intro c member
      rcases List.mem_cons.mp member with rfl | later
      · exact isIdentChar_of_isIdentStart identifier.1
      · exact identifier.2 c later

theorem isSlotChar_of_mem_text {slot : Option SlotField} :
    ∀ c ∈ SlotField.text slot, isSlotChar c = true := by
  intro c member
  match slot with
  | none => simp [SlotField.text] at member
  | some .discard =>
      have underscore : c = '_' := by simpa [SlotField.text] using member
      simp [isSlotChar, underscore]
  | some (.number digits isDigits) => simp [isSlotChar, isDigits.2 c member]

theorem isIdentChar_of_mem_text {rule : Option RuleField} :
    ∀ c ∈ RuleField.text rule, isIdentChar c = true := by
  intro c member
  match rule with
  | none => simp [RuleField.text] at member
  | some (.number digits isDigits) => simp [isIdentChar, isDigits.2 c member]
  | some (.name word isIdentifier) => exact isIdentifier.isIdentChar c member

theorem stops_captureEnd {rule : Option (Option RuleField)} {behind : List Char} :
    Stops isSlotChar (captureEnd rule ++ behind) := by
  cases rule with
  | none => exact stops_cons.mpr (by decide)
  | some rule => exact stops_cons.mpr (by decide)

/-! ## One derivation for each text -/

theorem IsDigits.ne_underscore {digits : List Char} (isDigits : IsDigits digits) :
    digits ≠ ['_'] := by
  rintro rfl
  have digit := isDigits.2 '_' List.mem_cons_self
  simp at digit

theorem IsIdentifier.ne_nil {word : List Char} (isIdentifier : IsIdentifier word) :
    word ≠ [] := by
  rintro rfl
  exact isIdentifier

theorem IsDigits.ne_identifier {digits word : List Char} (isDigits : IsDigits digits)
    (isIdentifier : IsIdentifier word) : digits ≠ word := by
  rintro rfl
  cases digits with
  | nil => exact isIdentifier
  | cons first others =>
      have starts := isIdentStart_of_isDigit (isDigits.2 first List.mem_cons_self)
      rw [isIdentifier.1] at starts
      cases starts

theorem SlotField.text_injective {first second : Option SlotField}
    (equal : SlotField.text first = SlotField.text second) : first = second := by
  match first, second with
  | none, none => rfl
  | none, some (.number _ isDigits) => exact (isDigits.1 equal.symm).elim
  | some (.number _ isDigits), none => exact (isDigits.1 equal).elim
  | some .discard, some .discard => rfl
  | some .discard, some (.number _ isDigits) => exact (isDigits.ne_underscore equal.symm).elim
  | some (.number _ isDigits), some .discard => exact (isDigits.ne_underscore equal).elim
  | some (.number _ _), some (.number _ _) =>
      cases equal
      rfl

theorem RuleField.text_injective {first second : Option RuleField}
    (equal : RuleField.text first = RuleField.text second) : first = second := by
  match first, second with
  | none, none => rfl
  | none, some (.number _ isDigits) => exact (isDigits.1 equal.symm).elim
  | none, some (.name _ isIdentifier) => exact (isIdentifier.ne_nil equal.symm).elim
  | some (.number _ isDigits), none => exact (isDigits.1 equal).elim
  | some (.name _ isIdentifier), none => exact (isIdentifier.ne_nil equal).elim
  | some (.number _ _), some (.number _ _) =>
      cases equal
      rfl
  | some (.number _ isDigits), some (.name _ isIdentifier) =>
      exact (isDigits.ne_identifier isIdentifier equal).elim
  | some (.name _ isIdentifier), some (.number _ isDigits) =>
      exact (isDigits.ne_identifier isIdentifier equal.symm).elim
  | some (.name _ _), some (.name _ _) =>
      cases equal
      rfl

theorem captureEnd_append_inj {first second : Option (Option RuleField)}
    {firstBehind secondBehind : List Char}
    (equal : captureEnd first ++ firstBehind = captureEnd second ++ secondBehind) :
    first = second ∧ firstBehind = secondBehind := by
  match first, second with
  | none, none => simpa [captureEnd] using equal
  | none, some _ => simp [captureEnd] at equal
  | some _, none => simp [captureEnd] at equal
  | some first, some second =>
      simp only [captureEnd, List.cons_append, List.append_assoc, List.nil_append,
        List.cons.injEq, true_and] at equal
      have closed : ∀ behind, Stops isIdentChar ('\x7d' :: behind) := fun _ =>
        stops_cons.mpr (by decide)
      obtain ⟨texts, behind⟩ := eq_of_run_append_eq isIdentChar_of_mem_text
        isIdentChar_of_mem_text (closed _) (closed _) equal
      exact ⟨congrArg some (RuleField.text_injective texts), List.tail_eq_of_cons_eq behind⟩

theorem captureBody_append_inj {firstSlot secondSlot : Option SlotField}
    {firstRule secondRule : Option (Option RuleField)} {firstBehind secondBehind : List Char}
    (equal : SlotField.text firstSlot ++ (captureEnd firstRule ++ firstBehind) =
      SlotField.text secondSlot ++ (captureEnd secondRule ++ secondBehind)) :
    firstSlot = secondSlot ∧ firstRule = secondRule ∧ firstBehind = secondBehind := by
  obtain ⟨slots, ends⟩ := eq_of_run_append_eq isSlotChar_of_mem_text isSlotChar_of_mem_text
    stops_captureEnd stops_captureEnd equal
  exact ⟨SlotField.text_injective slots, captureEnd_append_inj ends⟩

/-- What follows the brace that opens a capture is no second one. -/
theorem captureBody_ne_brace_cons {slot : Option SlotField} {rule : Option (Option RuleField)}
    {behind more : List Char} :
    SlotField.text slot ++ (captureEnd rule ++ behind) ≠ '\x7b' :: more := by
  intro equal
  cases standing : SlotField.text slot with
  | nil => cases rule <;> simp [standing, captureEnd] at equal
  | cons first others =>
      have inside := @isSlotChar_of_mem_text slot first (by simp [standing])
      rw [standing] at equal
      rw [List.head_eq_of_cons_eq equal] at inside
      exact absurd inside (by decide)

theorem exists_escapeChar_eq_cons (c : Char) : ∃ more, escapeChar c = c :: more := by
  unfold escapeChar
  split
  · exact ⟨[c], rfl⟩
  · exact ⟨[], rfl⟩

theorem escapeChar_append_inj {first second : Char} {firstBehind secondBehind : List Char}
    (equal : escapeChar first ++ firstBehind = escapeChar second ++ secondBehind) :
    first = second ∧ firstBehind = secondBehind := by
  obtain ⟨firstMore, firstText⟩ := exists_escapeChar_eq_cons first
  obtain ⟨secondMore, secondText⟩ := exists_escapeChar_eq_cons second
  have same : first = second := by
    rw [firstText, secondText] at equal
    exact List.head_eq_of_cons_eq equal
  subst same
  exact ⟨rfl, List.append_cancel_left equal⟩

theorem Part.char_text_ne_capture_text {c : Char} {slot : Option SlotField}
    {rule : Option (Option RuleField)} {charBehind captureBehind : List Char} :
    (Part.char c).text ++ charBehind ≠ (Part.capture slot rule).text ++ captureBehind := by
  intro equal
  simp only [Part.text, List.cons_append, List.append_assoc] at equal
  obtain ⟨more, charText⟩ := exists_escapeChar_eq_cons c
  have brace : c = '\x7b' := by
    rw [charText] at equal
    exact List.head_eq_of_cons_eq equal
  rw [brace, escapeChar, if_pos (.inl rfl)] at equal
  exact captureBody_ne_brace_cons (List.tail_eq_of_cons_eq equal).symm

theorem Part.text_ne_nil (part : Part) : part.text ≠ [] := by
  cases part with
  | char c =>
      obtain ⟨more, charText⟩ := exists_escapeChar_eq_cons c
      simp [Part.text, charText]
  | capture slot rule => simp [Part.text]

/-- The first part of a text is seen from it. -/
theorem Part.text_append_inj {first second : Part} {firstBehind secondBehind : List Char}
    (equal : first.text ++ firstBehind = second.text ++ secondBehind) :
    first = second ∧ firstBehind = secondBehind := by
  match first, second with
  | .char first, .char second =>
      obtain ⟨rfl, behind⟩ := escapeChar_append_inj equal
      exact ⟨rfl, behind⟩
  | .char _, .capture _ _ => exact (Part.char_text_ne_capture_text equal).elim
  | .capture _ _, .char _ => exact (Part.char_text_ne_capture_text equal.symm).elim
  | .capture firstSlot firstRule, .capture secondSlot secondRule =>
      simp only [Part.text, List.cons_append, List.append_assoc, List.cons.injEq,
        true_and] at equal
      obtain ⟨rfl, rfl, behind⟩ := captureBody_append_inj equal
      exact ⟨rfl, behind⟩

/-- No part begins the text. -/
def Stuck (text : List Char) : Prop := ∀ part : Part, ¬ part.text <+: text

/-- A text that goes on with no part has been derived as far as it can be. -/
theorem eq_of_derived_eq_append {parts front : List Part} {behind : List Char}
    (equal : derived parts = derived front ++ behind) (stuck : Stuck behind) :
    parts = front ∧ behind = [] := by
  induction front generalizing parts with
  | nil =>
      cases parts with
      | nil => exact ⟨rfl, equal.symm⟩
      | cons part rest => exact (stuck part ⟨derived rest, equal⟩).elim
  | cons first front ih =>
      cases parts with
      | nil =>
          have empty : first.text = [] := by
            simp only [derived_nil, derived_cons, List.nil_eq, List.append_eq_nil_iff] at equal
            exact equal.1.1
          exact (first.text_ne_nil empty).elim
      | cons part rest =>
          rw [derived_cons, derived_cons, List.append_assoc] at equal
          obtain ⟨rfl, later⟩ := Part.text_append_inj equal
          obtain ⟨rfl, ended⟩ := ih later
          exact ⟨rfl, ended⟩

/-- A text has at most one derivation. -/
theorem derived_injective {parts others : List Part} (equal : derived parts = derived others) :
    parts = others := by
  have stuck : Stuck [] := by
    intro part begins
    exact part.text_ne_nil (List.prefix_nil.mp begins)
  have whole : derived parts = derived others ++ [] := by rw [List.append_nil, equal]
  exact (eq_of_derived_eq_append whole stuck).1

end Template

end Unformat
