import Mathlib.Data.List.TakeWhile
import Mathlib.Data.Nat.Digits.Defs
import Unformat.Proofs.Rule.Grammar

/-!
# What literals stand for

What is between the marks of a raw literal stands for itself.  In a quoted literal characters stand
for themselves, and escapes for what they call.  How far an escape goes may depend on what is behind
it: octal digits go on until three are there, and a carriage return takes a line feed along.  So an
escape is judged with the text behind it.  Reading gives a pattern exactly when the literal stands
for it.
-/

namespace Unformat

namespace Text.Quoted

open Template (Stops stops_nil stops_cons stops_dropWhile takeWhile_run drop_length_takeWhile)

/-- The number that octal digits write. -/
def octalNumber (digits : List Char) : Nat :=
  Nat.ofDigits 8 (digits.reverse.map fun digit => digit.toNat - '0'.toNat)

/-- The characters that call for something behind a backslash, octal digits aside. -/
def callers : List Char :=
  letters.map (·.1) ++ widths.map (·.1) ++ ['\'', '"', '\\', '\n', '\r', 'N']

section Standing

variable [CharacterTable]

/-- What is written behind a backslash, and the characters that it stands for when `rest` comes
next. -/
inductive Escape : (written stood rest : List Char) → Prop where
  | lettered {letter c : Char} {rest : List Char} (listed : (letter, c) ∈ letters) :
      Escape [letter] [c] rest
  | masked {c : Char} {rest : List Char} (special : IsMark c ∨ c = '\\') : Escape [c] [c] rest
  | lineFeed {rest : List Char} : Escape ['\n'] [] rest
  | bothEnds {rest : List Char} : Escape ['\r', '\n'] [] rest
  | carriageReturn {rest : List Char} (alone : rest.head? ≠ some '\n') : Escape ['\r'] [] rest
  | numeric {letter : Char} {width : Nat} {digits rest : List Char}
      (listed : (letter, width) ∈ widths) (enough : digits.length = width)
      (hex : ∀ digit ∈ digits, Hex.isDigit digit = true) (small : Hex.value digits < 0x110000) :
      Escape (letter :: digits) [CharacterTable.character (Hex.value digits)] rest
  | named {name rest : List Char} {c : Char} (closed : '\x7d' ∉ name)
      (known : CharacterTable.named? name = some c) :
      Escape ('N' :: '\x7b' :: (name ++ ['\x7d'])) [c] rest
  | octal {digits rest : List Char} (begun : digits ≠ []) (few : digits.length ≤ 3)
      (octal : ∀ digit ∈ digits, isOctal digit = true)
      (longest : digits.length = 3 ∨ Stops isOctal rest) :
      Escape digits [Char.ofNat (octalNumber digits)] rest
  | kept {c : Char} {rest : List Char} (uncalled : c ∉ callers) (notOctal : isOctal c = false)
      (notNul : c ≠ '\x00') : Escape [c] ['\\', c] rest

/-- The inside of a literal stands for a text. -/
inductive Stands : (inside text : List Char) → Prop where
  | nil : Stands [] []
  | plain {c : Char} {rest text : List Char} (notBackslash : c ≠ '\\')
      (whole : breaksLiteral c = false) (later : Stands rest text) : Stands (c :: rest) (c :: text)
  | escape {written stood rest text : List Char} (escape : Escape written stood rest)
      (later : Stands rest text) : Stands ('\\' :: (written ++ rest)) (stood ++ text)

end Standing

/-! ## Digits -/

theorem foldl_octal (digits : List Char) :
    digits.foldl (fun total digit => total * 8 + (digit.toNat - '0'.toNat)) 0 =
      octalNumber digits := by
  rw [octalNumber, Nat.ofDigits_eq_foldr, List.foldr_map, List.foldr_reverse]
  congr 1
  funext total digit
  simp only [Nat.cast_id]
  omega

/-- A text begins with a longest run of octal digits, three at most. -/
theorem exists_octal_run (limit : Nat) (text : List Char) :
    ∃ run rest, text = run ++ rest ∧ run.length ≤ limit ∧ (∀ c ∈ run, isOctal c = true) ∧
      (run.length = limit ∨ Stops isOctal rest) := by
  induction text generalizing limit with
  | nil => exact ⟨[], [], rfl, Nat.zero_le _, List.forall_mem_nil _, .inr (stops_nil _)⟩
  | cons c text ih =>
      cases limit with
      | zero => exact ⟨[], c :: text, rfl, Nat.le_refl _, List.forall_mem_nil _, .inl rfl⟩
      | succ limit =>
          cases octal : isOctal c with
          | false =>
              exact ⟨[], c :: text, rfl, Nat.zero_le _, List.forall_mem_nil _,
                .inr (stops_cons.mpr octal)⟩
          | true =>
              obtain ⟨run, rest, rfl, few, digits, longest⟩ := ih limit
              exact ⟨c :: run, rest, rfl, Nat.succ_le_succ few,
                List.forall_mem_cons.mpr ⟨octal, digits⟩, longest.imp_left (congrArg Nat.succ)⟩

theorem takeWhile_take_run {limit : Nat} {run rest : List Char} (few : run.length ≤ limit)
    (digits : ∀ c ∈ run, isOctal c = true) (longest : run.length = limit ∨ Stops isOctal rest) :
    ((run ++ rest).take limit).takeWhile isOctal = run := by
  have stops : Stops isOctal (rest.take (limit - run.length)) := by
    intro c member
    rcases longest with same | stops
    · simp [same] at member
    · rw [List.head?_take] at member
      split at member
      · cases member
      · exact stops c member
  rw [List.take_append, List.take_of_length_le few, takeWhile_run digits stops]

/-! ## One escape -/

variable [CharacterTable]

theorem numericCharacter?_eq_some_iff {width : Nat} {text rest : List Char} {c : Char} :
    numericCharacter? width text = some (c, rest) ↔
      ∃ digits, text = digits ++ rest ∧ digits.length = width ∧
        (∀ digit ∈ digits, Hex.isDigit digit = true) ∧ Hex.value digits < 0x110000 ∧
        c = CharacterTable.character (Hex.value digits) := by
  constructor
  · intro read
    unfold numericCharacter? at read
    dsimp only at read
    split at read
    · next valid =>
        cases read
        obtain ⟨enough, hex, small⟩ := valid
        exact ⟨text.take width, (List.take_append_drop width text).symm, enough,
          List.all_eq_true.mp hex, small, rfl⟩
    · cases read
  · rintro ⟨digits, rfl, rfl, hex, small, rfl⟩
    simp [numericCharacter?, List.all_eq_true.mpr hex, small]

theorem namedCharacter?_eq_some_iff {text rest : List Char} {c : Char} :
    namedCharacter? text = some (c, rest) ↔
      ∃ name, text = '\x7b' :: (name ++ '\x7d' :: rest) ∧ '\x7d' ∉ name ∧
        CharacterTable.named? name = some c := by
  constructor
  · intro read
    unfold namedCharacter? at read
    split at read
    · next text =>
        simp only [drop_length_takeWhile] at read
        split at read
        · next closing left behind =>
            obtain ⟨called, known, same⟩ := Option.map_eq_some_iff.mp read
            cases same
            have stopped : (closing != '\x7d') = false :=
              stops_dropWhile (· != '\x7d') text closing (by rw [behind]; rfl)
            obtain rfl : closing = '\x7d' := by simpa using stopped
            refine ⟨text.takeWhile (· != '\x7d'), ?_, ?_, known⟩
            · rw [← behind, List.takeWhile_append_dropWhile]
            · intro member
              simpa using List.mem_takeWhile_imp member
        · cases read
    · cases read
  · rintro ⟨name, rfl, closed, known⟩
    have inside : ∀ c ∈ name, (c != '\x7d') = true := by
      intro c member
      exact bne_iff_ne.mpr fun same => closed (same ▸ member)
    have front : (name ++ '\x7d' :: rest).takeWhile (· != '\x7d') = name :=
      takeWhile_run inside (stops_cons.mpr (by simp))
    simp only [namedCharacter?, front, List.drop_left, known, Option.map_some]

theorem escaped?_of_notMem {c : Char} (uncalled : c ∉ callers) (rest : List Char) :
    escaped? (c :: rest) =
      if isOctal c then
        let digits := ((c :: rest).take 3).takeWhile isOctal
        some ([Char.ofNat (octalNumber digits)], (c :: rest).drop digits.length)
      else if c.toNat = 0 then none
      else some (['\\', c], rest) := by
  have other (d : Char) (member : d ∈ callers) : c ≠ d := fun same => uncalled (same ▸ member)
  rw [escaped?.eq_19]
  · simp only [foldl_octal]
  all_goals
    first
      | exact other _ (by decide)
      | exact fun _ same => absurd same (other _ (by decide))

omit [CharacterTable] in
theorem notMem_callers_of_isOctal {c : Char} (octal : isOctal c = true) : c ∉ callers := by
  have none : callers.all (fun caller => !isOctal caller) := by decide
  intro member
  have digit := List.all_eq_true.mp none c member
  rw [octal] at digit
  cases digit

theorem escaped?_octal {digits rest : List Char} (begun : digits ≠ []) (few : digits.length ≤ 3)
    (octal : ∀ digit ∈ digits, isOctal digit = true)
    (longest : digits.length = 3 ∨ Stops isOctal rest) :
    escaped? (digits ++ rest) = some ([Char.ofNat (octalNumber digits)], rest) := by
  obtain ⟨c, others, rfl⟩ := List.exists_cons_of_ne_nil begun
  have first : isOctal c = true := octal c List.mem_cons_self
  have run := takeWhile_take_run few octal longest
  rw [List.cons_append] at run ⊢
  rw [escaped?_of_notMem (notMem_callers_of_isOctal first), if_pos first, run]
  simp

/-- What stands behind a backslash is read as the escape says. -/
theorem escaped?_of_escape {written stood rest : List Char} (escape : Escape written stood rest) :
    escaped? (written ++ rest) = some (stood, rest) := by
  cases escape with
  | lettered listed => exact escaped?_lettered listed rest
  | masked special =>
      rcases special with isMark | rfl
      · exact escaped?_masked isMark (.inl rfl) rest
      · rfl
  | lineFeed => rfl
  | bothEnds => rfl
  | carriageReturn alone =>
      cases rest with
      | nil => rfl
      | cons c rest =>
          have other : c ≠ '\n' := fun same => alone (by rw [same]; rfl)
          exact escaped?.eq_13 (c :: rest) fun _ same => other (List.head_eq_of_cons_eq same)
  | @numeric letter width digits _ listed enough hex small =>
      have read : numericCharacter? width (digits ++ rest) = some (_, rest) :=
        numericCharacter?_eq_some_iff.mpr ⟨digits, rfl, enough, hex, small, rfl⟩
      rw [List.cons_append, escaped?_numeric listed, read]
      rfl
  | @named name _ c closed known =>
      have read : namedCharacter? ('\x7b' :: (name ++ '\x7d' :: rest)) = some (c, rest) :=
        namedCharacter?_eq_some_iff.mpr ⟨name, rfl, closed, known⟩
      have whole : ('N' :: '\x7b' :: (name ++ ['\x7d'])) ++ rest =
          'N' :: '\x7b' :: (name ++ '\x7d' :: rest) := by
        simp
      rw [whole, escaped?, read]
      rfl
  | octal begun few octal longest => exact escaped?_octal begun few octal longest
  | @kept c _ uncalled notOctal notNul =>
      have positive : c.toNat ≠ 0 := fun zero => notNul (Char.toNat_inj.mp zero)
      rw [List.singleton_append, escaped?_of_notMem uncalled, notOctal]
      simp [positive]

/-- What is read of a text that begins with an escape is that escape. -/
theorem Escape.exists_of_read {written stood rest text read left : List Char}
    (escape : Escape written stood rest) (front : text = written ++ rest)
    (taken : escaped? text = some (read, left)) :
    ∃ written, text = written ++ left ∧ Escape written read left := by
  subst front
  cases taken.symm.trans (escaped?_of_escape escape)
  exact ⟨written, rfl, escape⟩

/-- What is read behind a backslash is what an escape stands for. -/
theorem exists_escape_of_caller {c : Char} (called : c ∈ callers) {text stood rest : List Char}
    (read : escaped? (c :: text) = some (stood, rest)) :
    ∃ written, c :: text = written ++ rest ∧ Escape written stood rest := by
  have forms : (∃ stands, (c, stands) ∈ letters) ∨ (∃ width, (c, width) ∈ widths) ∨
      (IsMark c ∨ c = '\\') ∨ c = '\n' ∨ c = '\r' ∨ c = 'N' := by
    rw [callers, List.append_assoc, List.mem_append, List.mem_append, List.mem_map,
      List.mem_map] at called
    rcases called with ⟨⟨_, stands⟩, listed, rfl⟩ | ⟨⟨_, width⟩, listed, rfl⟩ | other
    · exact .inl ⟨stands, listed⟩
    · exact .inr (.inl ⟨width, listed⟩)
    · exact .inr (.inr (by simpa [IsMark, or_assoc] using other))
  rcases forms with ⟨stands, listed⟩ | ⟨width, listed⟩ | special | rfl | rfl | rfl
  · exact (Escape.lettered listed).exists_of_read rfl read
  · rw [escaped?_numeric listed] at read
    obtain ⟨⟨stands, left⟩, found, same⟩ := Option.map_eq_some_iff.mp read
    cases same
    obtain ⟨digits, rfl, enough, hex, small, rfl⟩ := numericCharacter?_eq_some_iff.mp found
    exact ⟨c :: digits, rfl, .numeric listed enough hex small⟩
  · exact (Escape.masked special).exists_of_read rfl read
  · exact Escape.lineFeed.exists_of_read rfl read
  · by_cases feed : text.head? = some '\n'
    · obtain ⟨behind, rfl⟩ := List.head?_eq_some_iff.mp feed
      exact Escape.bothEnds.exists_of_read rfl read
    · exact (Escape.carriageReturn feed).exists_of_read rfl read
  · obtain ⟨⟨stands, left⟩, found, same⟩ := Option.map_eq_some_iff.mp read
    cases same
    obtain ⟨name, rfl, closed, known⟩ := namedCharacter?_eq_some_iff.mp found
    exact ⟨'N' :: '\x7b' :: (name ++ ['\x7d']), by simp, .named closed known⟩

theorem exists_escape_of_octal {c : Char} (octal : isOctal c = true)
    {text stood rest : List Char} (read : escaped? (c :: text) = some (stood, rest)) :
    ∃ written, c :: text = written ++ rest ∧ Escape written stood rest := by
  obtain ⟨run, behind, split, few, digits, longest⟩ := exists_octal_run 3 (c :: text)
  have begun : run ≠ [] := by
    rintro rfl
    rw [List.nil_append] at split
    subst split
    rcases longest with none | stops
    · cases none
    · rw [stops_cons.mp stops] at octal
      cases octal
  exact (Escape.octal begun few digits longest).exists_of_read split read

/-- What is read of a text behind a backslash is the escape in front of it. -/
theorem escaped?_eq_some_iff {text stood rest : List Char} :
    escaped? text = some (stood, rest) ↔
      ∃ written, text = written ++ rest ∧ Escape written stood rest := by
  constructor
  · intro read
    cases text with
    | nil => cases read
    | cons c text =>
        by_cases called : c ∈ callers
        · exact exists_escape_of_caller called read
        cases octal : isOctal c with
        | true => exact exists_escape_of_octal octal read
        | false =>
            by_cases nul : c = '\x00'
            · subst nul
              cases read
            · exact (Escape.kept called octal nul).exists_of_read rfl read
  · rintro ⟨written, rfl, escape⟩
    exact escaped?_of_escape escape

/-! ## The inside of a literal -/

theorem unescapeWithin_eq_some_iff {steps : Nat} {inside text : List Char}
    (enough : inside.length ≤ steps) :
    unescapeWithin steps inside = some text ↔ Stands inside text := by
  induction steps generalizing inside text with
  | zero =>
      obtain rfl := List.length_eq_zero_iff.mp (Nat.le_zero.mp enough)
      constructor
      · intro read
        cases read
        exact .nil
      · rintro ⟨⟩
        rfl
  | succ steps ih =>
      constructor
      · intro read
        cases inside with
        | nil =>
            cases read
            exact .nil
        | cons c rest =>
            have within : rest.length ≤ steps := Nat.le_of_succ_le_succ enough
            by_cases escapes : c = '\\'
            · subst escapes
              rw [unescapeWithin] at read
              obtain ⟨⟨stood, left⟩, taken, read⟩ := Option.bind_eq_some_iff.mp read
              obtain ⟨later, readLater, same⟩ := Option.bind_eq_some_iff.mp read
              cases same
              obtain ⟨written, rfl, escape⟩ := escaped?_eq_some_iff.mp taken
              rw [List.length_append] at within
              exact .escape escape ((ih (by omega)).mp readLater)
            · rw [unescapeWithin.eq_4 steps c rest escapes] at read
              split at read
              · cases read
              · next whole =>
                  obtain ⟨later, readLater, rfl⟩ := Option.map_eq_some_iff.mp read
                  exact .plain escapes (by simpa using whole) ((ih within).mp readLater)
      · intro stands
        cases stands with
        | nil => rfl
        | plain notBackslash whole later =>
            rw [unescapeWithin.eq_4 _ _ _ notBackslash, whole,
              (ih (Nat.le_of_succ_le_succ enough)).mpr later]
            rfl
        | @escape written stood rest _ escape later =>
            have within := Nat.le_of_succ_le_succ enough
            rw [List.length_append] at within
            rw [unescapeWithin, escaped?_of_escape escape]
            simp [(ih (by omega : rest.length ≤ steps)).mpr later]

/-- The inside of a literal is read as a text exactly when it stands for it. -/
theorem unescape?_eq_some_iff {inside text : List Char} :
    unescape? inside = some text ↔ Stands inside text :=
  unescapeWithin_eq_some_iff (Nat.le_refl _)

end Text.Quoted

/-! ## Literals -/

namespace ListText.Marked

open Text (CharacterTable)
open Text.Quoted (IsMark Stands unescape?_eq_some_iff)

variable [CharacterTable]

/-- A literal stands for a text. -/
inductive StandsFor : Marked → List Char → Prop where
  | raw {letter mark : Char} {text : List Char} {isLetter : letter = 'r' ∨ letter = 'R'}
      {isMark : IsMark mark} {within : mark ∉ text} :
      StandsFor (.raw letter mark text isLetter isMark within) text
  | quoted {mark : Char} {inside text : List Char} {isMark : IsMark mark}
      {within : Inside mark inside} (stands : Stands inside text) :
      StandsFor (.quoted mark inside isMark within) text

/-- The pattern of a literal is the one that it stands for, if there is one. -/
theorem value?_eq_some_iff {literal : Marked} {pattern : String} :
    literal.literal.value? = some pattern ↔ literal.StandsFor pattern.toList := by
  cases literal with
  | raw letter mark text isLetter isMark within =>
      constructor
      · intro value
        cases value
        rw [String.toList_ofList]
        exact .raw
      · intro stands
        cases stands
        rw [literal, Literal.value?, String.ofList_toList]
  | quoted mark inside isMark within =>
      rw [literal, Literal.value?, Option.map_eq_some_iff]
      constructor
      · rintro ⟨text, read, rfl⟩
        rw [String.toList_ofList]
        exact .quoted (unescape?_eq_some_iff.mp read)
      · rintro ⟨⟩
        next stands => exact ⟨_, unescape?_eq_some_iff.mpr stands, String.ofList_toList⟩

end ListText.Marked

end Unformat
