import Unformat.Proofs.Json.Numerals
import Unformat.Proofs.Text.Joined
import Unformat.Proofs.Text.Quoted

/-!
# Values as JSON texts

A value is written in visible ASCII.  When every double in it is finite, the text is standard JSON
and stands for the value; with a special double anywhere in the value it is not JSON.
-/

namespace Unformat

/-- The double is neither an infinity nor not-a-number. -/
def Binary64.IsFinite : Binary64 → Prop
  | .finite _ _ _ => True
  | _ => False

namespace Json

open Text (Hex.fixed Hex.isDigit)

/-! ## What a value stands for -/

mutual

/-- What a value stands for. A double stands for the decimal that it is written as. -/
def meaning : Json → Document
  | .null => .null
  | .bool value => .bool value
  | .int value => .number value 0
  | .real value =>
      .number (numeralValue (realText value).toList).1 (numeralValue (realText value).toList).2
  | .text value => .text (value.toList.flatMap unitsOf)
  | .array items => .array (meanings items)
  | .object members => .object (memberMeanings members)

def meanings : List Json → List Document
  | [] => []
  | item :: items => meaning item :: meanings items

def memberMeanings : List (String × Json) → List (List Nat × Document)
  | [] => []
  | (key, value) :: members => (key.toList.flatMap unitsOf, meaning value) :: memberMeanings members

end

theorem meanings_eq (items : List Json) : meanings items = items.map meaning := by
  induction items with
  | nil => rfl
  | cons item items ih => rw [meanings, ih, List.map_cons]

/-- What a member of an object stands for. -/
def memberMeaning (named : String × Json) : List Nat × Document :=
  (named.1.toList.flatMap unitsOf, named.2.meaning)

theorem memberMeanings_eq (members : List (String × Json)) :
    memberMeanings members = members.map memberMeaning := by
  induction members with
  | nil => rfl
  | cons named members ih => rw [memberMeanings, ih, List.map_cons, memberMeaning]

/-- Every double in the value is such. -/
inductive EachReal (holds : Binary64 → Prop) : Json → Prop
  | null : EachReal holds .null
  | bool (value : Bool) : EachReal holds (.bool value)
  | int (value : Int) : EachReal holds (.int value)
  | real {value : Binary64} (here : holds value) : EachReal holds (.real value)
  | text (value : String) : EachReal holds (.text value)
  | array {items : List Json} (each : ∀ item ∈ items, EachReal holds item) :
      EachReal holds (.array items)
  | object {members : List (String × Json)} (each : ∀ named ∈ members, EachReal holds named.2) :
      EachReal holds (.object members)

theorem EachReal.and {first second both : Binary64 → Prop}
    (into : ∀ {value}, first value → second value → both value) {json : Json}
    (one : json.EachReal first) (other : json.EachReal second) : json.EachReal both := by
  induction one with
  | null => exact .null
  | bool value => exact .bool value
  | int value => exact .int value
  | text value => exact .text value
  | real here =>
      cases other with
      | real also => exact .real (into here also)
  | array each ih =>
      cases other with
      | array also => exact .array fun item member => ih item member (also item member)
  | object each ih =>
      cases other with
      | object also => exact .object fun named member => ih named member (also named member)

/-! ## Characters -/

/-- A visible character of ASCII, or a space. -/
def isVisible (c : Char) : Bool := ' ' ≤ c && c ≤ '~'

theorem isVisible_of_isNumeric {c : Char} (numeric : isNumeric c = true) : isVisible c = true := by
  simp only [isNumeric, Bool.or_eq_true, decide_eq_true_eq] at numeric
  rcases numeric with ((((digit | rfl) | rfl) | rfl) | rfl) | rfl
  · simp only [Char.isDigit, Bool.and_eq_true, decide_eq_true_eq] at digit
    simp only [isVisible, Bool.and_eq_true, decide_eq_true_eq]
    exact ⟨UInt32.le_trans (by decide : ' '.val ≤ '0'.val) digit.1,
      UInt32.le_trans digit.2 (by decide : '9'.val ≤ '~'.val)⟩
  all_goals rfl

theorem toList_quote (text : String) :
    (quote text).toList = '"' :: (text.toList.flatMap escapeChar ++ ['"']) := by
  rw [quote, String.toList_ofList]
  rfl

theorem renderItems_eq (items : List Json) : renderItems items = items.map render := by
  induction items with
  | nil => rfl
  | cons item items ih => rw [renderItems, ih, List.map_cons]

theorem toList_render_array (items : List Json) : (render (.array items)).toList =
    '[' :: ([',', ' '].intercalate (items.map fun item => (render item).toList) ++ [']']) := by
  rw [render, renderItems_eq, String.toList_append, String.toList_append, String.toList_intercalate,
    List.map_map]
  rfl

/-- The text of a member of an object. -/
def memberText (named : String × Json) : List Char :=
  (quote named.1).toList ++ ':' :: ' ' :: (render named.2).toList

theorem memberText_eq (named : String × Json) : memberText named =
    '"' :: (named.1.toList.flatMap escapeChar ++ '"' :: ':' :: ' ' :: (render named.2).toList) := by
  rw [memberText, toList_quote]
  simp

theorem toList_render_object (members : List (String × Json)) : (render (.object members)).toList =
    '\x7b' :: ([',', ' '].intercalate (members.map memberText) ++ ['\x7d']) := by
  have texts : (renderMembers members).map String.toList = members.map memberText := by
    induction members with
    | nil => rfl
    | cons named members ih =>
        rw [renderMembers, List.map_cons, List.map_cons, ih, memberText]
        simp
  rw [render, String.toList_append, String.toList_append, String.toList_intercalate, texts]
  rfl

/-! ## Strings -/

theorem spells_unitEscape {unit : Nat} (small : unit < 0x10000) {text rest : List Char}
    {units : List Nat} (later : Spells text units rest) :
    Spells (unitEscape unit ++ text) (unit :: units) rest := by
  have each : ∀ d ∈ Hex.fixed 4 unit, Hex.isDigit d = true := by
    intro d member
    obtain ⟨digit, less, rfl⟩ := Text.Hex.exists_digit_of_mem_fixed member
    simp [Hex.isDigit, Text.Hex.digitValue?_digitChar digit less]
  have spells := Spells.unit (Text.Hex.length_fixed 4 unit) each later
  rwa [Text.Hex.value_fixed small] at spells

theorem spells_escapeChar (c : Char) {text rest : List Char} {units : List Nat}
    (later : Spells text units rest) :
    Spells (escapeChar c ++ text) (unitsOf c ++ units) rest := by
  unfold escapeChar
  split
  · next special =>
      rcases special with rfl | rfl
      · exact .letter (by decide) later
      · exact .letter (by decide) later
  iterate 5
    split
    · next same =>
        subst same
        exact .letter (by decide) later
  next special _ _ _ _ _ =>
    obtain ⟨noQuote, noBackslash⟩ := not_or.mp special
    split
    · next visible => exact .plain visible.1 noQuote noBackslash later
    split
    · next small =>
        rw [unitsOf, if_pos small]
        exact spells_unitEscape small later
    · next large =>
        have bound : c.toNat < 0x110000 := by
          have valid : c.toNat < 0xD800 ∨ 0xDFFF < c.toNat ∧ c.toNat < 0x110000 := c.valid
          omega
        rw [unitsOf, if_neg large, List.append_assoc]
        exact spells_unitEscape (by omega) (spells_unitEscape (by omega) later)

theorem spells_flatMap (text rest : List Char) :
    Spells (text.flatMap escapeChar ++ '"' :: rest) (text.flatMap unitsOf) rest := by
  induction text with
  | nil => exact .close rest
  | cons c text ih =>
      rw [List.flatMap_cons, List.flatMap_cons, List.append_assoc]
      exact spells_escapeChar c ih

/-! ## Brackets -/

section Brackets

variable {α β : Type} {entry : List Char → β → List Char → Prop} {close : Char}
  {word : α → List Char}

theorem entries_of_words {value : α → β} {items : List α}
    (each : ∀ item ∈ items, ∀ rest, entry (word item ++ rest) (value item) rest)
    (rest : List Char) :
    Entries entry close ((items.map word).flatMap ([',', ' '] ++ ·) ++ close :: rest)
      (items.map value) rest := by
  induction items with
  | nil => exact .close (.here _)
  | cons item items ih =>
      obtain ⟨here, others⟩ := List.forall_mem_cons.mp each
      rw [List.map_cons, List.map_cons, List.flatMap_cons, List.append_assoc, List.append_assoc]
      exact .more (.here _) (.blank rfl (.here _)) (here _) (ih others)

/-- Words with a comma and a space between each two are listed. -/
theorem listed_of_words {value : α → β} {items : List α}
    (each : ∀ item ∈ items, ∀ rest, entry (word item ++ rest) (value item) rest)
    (rest : List Char) :
    Listed entry close ([',', ' '].intercalate (items.map word) ++ close :: rest)
      (items.map value) rest := by
  cases items with
  | nil => exact .empty (.here _)
  | cons item items =>
      obtain ⟨here, others⟩ := List.forall_mem_cons.mp each
      rw [List.map_cons, List.map_cons, intercalate_cons_eq, List.append_assoc]
      exact .solid (.here _) (here _) (entries_of_words others rest)

end Brackets

/-! ## Values -/

/-- The text of the double is a numeral. -/
def WritesNumeral (double : Binary64) : Prop := Numeral (realText double).toList

theorem begins_mono_of_each {α : Type} {word : α → List Char} {value : α → Document}
    {items : List α} (each : ∀ item ∈ items, ∃ depth, ∀ rest,
      Begins depth (word item ++ rest) (value item) rest) :
    ∃ depth, ∀ item ∈ items, ∀ rest, Begins depth (word item ++ rest) (value item) rest := by
  induction items with
  | nil => exact ⟨0, nofun⟩
  | cons item items ih =>
      obtain ⟨here, others⟩ := List.forall_mem_cons.mp each
      obtain ⟨depth, begins⟩ := here
      obtain ⟨otherDepth, othersBegin⟩ := ih others
      refine ⟨max depth otherDepth, List.forall_mem_cons.mpr ⟨fun rest => ?_, ?_⟩⟩
      · exact (begins rest).mono (Nat.le_max_left _ _)
      · exact fun other member rest => (othersBegin other member rest).mono (Nat.le_max_right _ _)

theorem member_of_begins {inner : List Char → Document → List Char → Prop}
    {named : String × Json}
    (begins : ∀ rest, inner ((render named.2).toList ++ rest) named.2.meaning rest)
    (rest : List Char) : Member inner (memberText named ++ rest) (memberMeaning named) rest := by
  rw [memberText_eq]
  simp only [List.cons_append, List.append_assoc]
  exact .member (spells_flatMap _ _) (.here _) (.blank rfl (.here _)) (begins rest)

/-- Where the text of a value stands, the value begins, whatever is behind. -/
theorem EachReal.begins {json : Json} (written : json.EachReal WritesNumeral) :
    ∃ depth, ∀ rest, Begins depth ((render json).toList ++ rest) json.meaning rest := by
  induction written with
  | null => exact ⟨0, fun rest => .null rest⟩
  | bool value =>
      cases value with
      | true => exact ⟨0, fun rest => .true rest⟩
      | false => exact ⟨0, fun rest => .false rest⟩
  | int value =>
      refine ⟨0, fun rest => ?_⟩
      have number : Begins 0 (decimal value ++ rest) (.number (numeralValue (decimal value)).1
          (numeralValue (decimal value)).2) rest := .number rfl (numeral_decimal value)
      rwa [numeralValue_decimal] at number
  | real isNumeral => exact ⟨0, fun rest => .number rfl isNumeral⟩
  | text value =>
      refine ⟨0, fun rest => ?_⟩
      rw [render, toList_quote]
      simp only [List.cons_append, List.append_assoc, List.nil_append]
      exact .text (spells_flatMap _ _)
  | array each ih =>
      obtain ⟨depth, items⟩ := begins_mono_of_each ih
      refine ⟨depth + 1, fun rest => ?_⟩
      rw [toList_render_array, meaning, meanings_eq]
      simp only [List.cons_append, List.append_assoc, List.nil_append]
      exact .array (listed_of_words items rest)
  | object each ih =>
      obtain ⟨depth, members⟩ := begins_mono_of_each ih
      refine ⟨depth + 1, fun rest => ?_⟩
      rw [toList_render_object, meaning, memberMeanings_eq]
      simp only [List.cons_append, List.append_assoc, List.nil_append]
      exact .object (listed_of_words
        (fun named member => member_of_begins (members named member)) rest)

/-! ## Special doubles -/

/-- The first character of the text of a value. -/
def leads (c : Char) : Bool := opens c || c = 'N' || c = 'I'

theorem not_blank_of_leads {c : Char} (first : leads c = true) : isBlank c = false := by
  simp only [leads, Bool.or_eq_true, decide_eq_true_eq] at first
  rcases first with (opening | rfl) | rfl
  · exact not_blank_of_opens opening
  all_goals rfl

theorem ne_of_leads {c close : Char} (first : leads c = true) (closing : closes close) :
    close ≠ c := by
  rintro rfl
  rcases closing with rfl | rfl <;> cases first

section Brackets

variable {α β : Type} {entry : List Char → β → List Char → Prop} {close : Char}
  {word : α → List Char} {good : α → Prop}

/-- What stands behind an entry in brackets. -/
theorem ends_of_words (closing : closes close) (words : List (List Char)) (rest : List Char) :
    Ends (words.flatMap ([',', ' '] ++ ·) ++ close :: rest) := by
  cases words with
  | nil =>
      rintro c ⟨⟩
      rcases closing with rfl | rfl <;> rfl
  | cons word words =>
      rintro c ⟨⟩
      rfl

/-- Behind blanks, the entry is where the word is. -/
theorem Unambiguous.eq_of_skips (unambiguous : Unambiguous entry)
    {text first spelled rest left : List Char} {value : β}
    (front : ∃ c more, spelled = c :: more ∧ leads c = true) (skips : Skips text first)
    (toWord : Skips text (spelled ++ rest)) (here : entry first value left) :
    first = spelled ++ rest := by
  obtain ⟨c, more, standing, leading⟩ := front
  obtain ⟨d, also, rfl, opening⟩ := unambiguous.front here
  exact skips.unique toWord (by simpa using not_blank_of_opens opening)
    (by simpa [standing] using not_blank_of_leads leading)

theorem each_of_entries (unambiguous : Unambiguous entry) (closing : closes close)
    {items : List α}
    (step : ∀ item ∈ items, ∀ {rest value left}, entry (word item ++ rest) value left → Ends rest →
      Ends left → good item ∧ rest = left)
    (front : ∀ item ∈ items, ∃ c more, word item = c :: more ∧ leads c = true)
    {values : List β} {rest left : List Char}
    (entries : Entries entry close
      ((items.map word).flatMap ([',', ' '] ++ ·) ++ close :: rest) values left) :
    ∀ item ∈ items, good item := by
  induction items generalizing values with
  | nil => exact nofun
  | cons item items ih =>
      obtain ⟨stepHere, stepOthers⟩ := List.forall_mem_cons.mp step
      obtain ⟨frontHere, frontOthers⟩ := List.forall_mem_cons.mp front
      rw [List.map_cons, List.flatMap_cons, List.append_assoc, List.append_assoc] at entries
      cases entries with
      | close skips =>
          exact (comma_ne_of_closes closing
            (skips.unique_cons (.here _) (not_blank_of_closes closing) rfl).1).elim
      | more comma skips here others =>
          obtain ⟨_, rfl⟩ := comma.unique_cons (.here _) rfl rfl
          rw [unambiguous.eq_of_skips frontHere skips (.blank rfl (.here _)) here] at here
          obtain ⟨isGood, rfl⟩ := stepHere here (ends_of_words closing _ _) (others.ends closing)
          exact List.forall_mem_cons.mpr ⟨isGood, ih stepOthers frontOthers others⟩

theorem each_of_listed (unambiguous : Unambiguous entry) (closing : closes close)
    {items : List α}
    (step : ∀ item ∈ items, ∀ {rest value left}, entry (word item ++ rest) value left → Ends rest →
      Ends left → good item ∧ rest = left)
    (front : ∀ item ∈ items, ∃ c more, word item = c :: more ∧ leads c = true)
    {values : List β} {rest left : List Char}
    (listed : Listed entry close
      ([',', ' '].intercalate (items.map word) ++ close :: rest) values left) :
    ∀ item ∈ items, good item := by
  cases items with
  | nil => exact nofun
  | cons item items =>
      obtain ⟨stepHere, stepOthers⟩ := List.forall_mem_cons.mp step
      obtain ⟨frontHere, frontOthers⟩ := List.forall_mem_cons.mp front
      rw [List.map_cons, intercalate_cons_eq, List.append_assoc] at listed
      cases listed with
      | empty skips =>
          obtain ⟨c, more, standing, leading⟩ := frontHere
          rw [standing] at skips
          exact (ne_of_leads leading closing (skips.unique_cons (.here _)
            (not_blank_of_closes closing) (not_blank_of_leads leading)).1).elim
      | solid skips here others =>
          rw [unambiguous.eq_of_skips frontHere skips (.here _) here] at here
          obtain ⟨isGood, rfl⟩ := stepHere here (ends_of_words closing _ _) (others.ends closing)
          exact List.forall_mem_cons.mpr
            ⟨isGood, each_of_entries unambiguous closing stepOthers frontOthers others⟩

end Brackets

theorem writesNumeral_of_finite {double : Binary64} (inRange : double.InRange)
    (finite : double.IsFinite) : WritesNumeral double := by
  cases double with
  | nan | infinite => exact finite.elim
  | finite => exact Binary64.numeral_text inRange

/-- No value begins with the name of a special double. -/
theorem isFinite_of_begins {double : Binary64} {depth : Nat} {document : Document}
    {rest left : List Char}
    (begins : Begins depth ((realText double).toList ++ rest) document left) : double.IsFinite := by
  have other {c : Char} {more : List Char} (begins : Begins depth (c :: more) document left) :
      opens c = true := by
    obtain ⟨d, also, standing, opening⟩ := (unambiguous_begins depth).front begins
    obtain ⟨rfl, _⟩ := List.cons.inj standing
    exact opening
  cases double with
  | finite => trivial
  | nan => cases other begins
  | infinite negative =>
      cases negative with
      | false => cases other begins
      | true =>
          obtain ⟨inner, found, _⟩ := begins.exists_inner
          have form : Form inner ('-' :: 'I' :: ("nfinity".toList ++ rest)) document left := found
          cases form with
          | number standing isNumeral =>
              exact (isNumeral.not_minus_standing (by decide) standing).elim

theorem exists_leads {json : Json} (held : json.EachReal Binary64.InRange) :
    ∃ c more, (render json).toList = c :: more ∧ leads c = true := by
  have numeral {word : List Char} (isNumeral : Numeral word) :
      ∃ c more, word = c :: more ∧ leads c = true := by
    obtain ⟨c, more, rfl, first⟩ := isNumeral.front
    exact ⟨c, more, rfl, by rcases first with digit | rfl <;> simp [leads, opens, *]⟩
  cases held with
  | null => exact ⟨_, _, rfl, rfl⟩
  | bool value => cases value <;> exact ⟨_, _, rfl, rfl⟩
  | int value => exact numeral (numeral_decimal value)
  | @real double inRange =>
      cases double with
      | nan => exact ⟨_, _, rfl, rfl⟩
      | infinite negative => cases negative <;> exact ⟨_, _, rfl, rfl⟩
      | finite => exact numeral (Binary64.numeral_text inRange)
  | text value => exact ⟨_, _, toList_quote value, rfl⟩
  | array => exact ⟨_, _, toList_render_array _, rfl⟩
  | object => exact ⟨_, _, toList_render_object _, rfl⟩

/-- A value whose doubles are finite ends where its text ends. -/
theorem EachReal.ends_of_begins {json : Json} (held : json.EachReal Binary64.InRange)
    (finite : json.EachReal Binary64.IsFinite) {depth : Nat} {document : Document}
    {rest left : List Char} (begins : Begins depth ((render json).toList ++ rest) document left)
    (ends : Ends rest) (otherEnds : Ends left) : rest = left := by
  obtain ⟨_, alone⟩ := (held.and writesNumeral_of_finite finite).begins
  exact ((alone rest).unique begins ends otherEnds).2

/-- Where a value is read from a text, the doubles in it are finite. -/
theorem EachReal.isFinite_of_begins {json : Json} (held : json.EachReal Binary64.InRange)
    {depth : Nat} {document : Document} {rest left : List Char}
    (begins : Begins depth ((render json).toList ++ rest) document left) (ends : Ends rest)
    (otherEnds : Ends left) : json.EachReal Binary64.IsFinite := by
  induction held generalizing depth document rest left with
  | null => exact .null
  | bool value => exact .bool value
  | int value => exact .int value
  | text value => exact .text value
  | real inRange => exact .real (Json.isFinite_of_begins begins)
  | @array items each ih =>
      obtain ⟨inner, form, unambiguous, deeper⟩ := begins.exists_inner
      rw [toList_render_array] at form
      simp only [List.cons_append, List.append_assoc, List.nil_append] at form
      refine .array ?_
      cases form with
      | number standing isNumeral => exact (isNumeral.not_standing (by decide) standing).elim
      | array listed =>
          refine each_of_listed unambiguous (.inl rfl) (fun item member => ?_)
            (fun item member => exists_leads (each item member)) listed
          intro rest value left here ends otherEnds
          obtain ⟨depth, begins⟩ := deeper here
          have finite := ih item member begins ends otherEnds
          exact ⟨finite, (each item member).ends_of_begins finite begins ends otherEnds⟩
  | @object members each ih =>
      obtain ⟨inner, form, unambiguous, deeper⟩ := begins.exists_inner
      rw [toList_render_object] at form
      simp only [List.cons_append, List.append_assoc, List.nil_append] at form
      refine .object ?_
      cases form with
      | number standing isNumeral => exact (isNumeral.not_standing (by decide) standing).elim
      | object listed =>
          refine each_of_listed (unambiguous_member unambiguous) (.inr rfl)
            (fun named member => ?_) (fun named _ => ⟨_, _, memberText_eq named, rfl⟩) listed
          intro rest value left isMember ends otherEnds
          rw [memberText_eq] at isMember
          simp only [List.cons_append, List.append_assoc] at isMember
          obtain ⟨key, colon, front, here⟩ := isMember
          obtain ⟨_, rfl⟩ := key.unique (spells_flatMap _ _)
          obtain ⟨_, rfl⟩ := colon.unique_cons (.here _) rfl rfl
          rw [unambiguous.eq_of_skips (exists_leads (each named member)) front
            (.blank rfl (.here _)) here] at here
          obtain ⟨depth, begins⟩ := deeper here
          have finite := ih named member begins ends otherEnds
          exact ⟨finite, (each named member).ends_of_begins finite begins ends otherEnds⟩

/-! ## Whole texts -/

variable {json : Json}

/-- The text of a value whose doubles are finite stands for the value. -/
theorem denotes_render (held : json.EachReal Binary64.InRange)
    (finite : json.EachReal Binary64.IsFinite) : Denotes (render json).toList json.meaning := by
  obtain ⟨depth, begins⟩ := (held.and writesNumeral_of_finite finite).begins
  have whole := begins []
  rw [List.append_nil] at whole
  exact ⟨depth, _, [], .here _, whole, .here _⟩

/-- The text of a value is standard JSON if and only if every double in it is finite. -/
theorem valid_render_iff (held : json.EachReal Binary64.InRange) :
    Valid (render json).toList ↔ json.EachReal Binary64.IsFinite := by
  constructor
  · rintro ⟨document, depth, first, rest, front, begins, behind⟩
    have toWord : Skips (render json).toList ((render json).toList ++ []) := by
      rw [List.append_nil]
      exact .here _
    rw [(unambiguous_begins depth).eq_of_skips (exists_leads held) front toWord begins] at begins
    exact held.isFinite_of_begins begins nofun (behind.ends nofun)
  · exact fun finite => ⟨_, denotes_render held finite⟩

/-! ## One line -/

theorem isVisible_of_mem_unitEscape {unit : Nat} :
    ∀ c ∈ unitEscape unit, isVisible c = true := by
  have all : ∀ digit < 16, isVisible (Nat.digitChar digit) = true := by decide
  refine List.forall_mem_cons.mpr ⟨rfl, List.forall_mem_cons.mpr ⟨rfl, fun c member => ?_⟩⟩
  obtain ⟨digit, small, rfl⟩ := Text.Hex.exists_digit_of_mem_fixed member
  exact all digit small

theorem isVisible_of_mem_escapeChar (c : Char) : ∀ d ∈ escapeChar c, isVisible d = true := by
  unfold escapeChar
  split
  · next special => rcases special with rfl | rfl <;> exact List.all_eq_true.mp rfl
  iterate 5
    split
    · exact List.all_eq_true.mp rfl
  split
  · next visible =>
      rintro d member
      obtain rfl := List.mem_singleton.mp member
      simpa [isVisible] using visible
  split
  · exact isVisible_of_mem_unitEscape
  · exact List.forall_mem_append.mpr ⟨isVisible_of_mem_unitEscape, isVisible_of_mem_unitEscape⟩

theorem isVisible_of_mem_quote (text : String) : ∀ c ∈ (quote text).toList, isVisible c = true := by
  rw [toList_quote]
  refine List.forall_mem_cons.mpr ⟨rfl, List.forall_mem_append.mpr
    ⟨fun c member => ?_, List.all_eq_true.mp rfl⟩⟩
  obtain ⟨d, _, inside⟩ := List.mem_flatMap.mp member
  exact isVisible_of_mem_escapeChar d c inside

theorem isVisible_of_mem_listed {words : List (List Char)}
    (each : ∀ word ∈ words, ∀ c ∈ word, isVisible c = true) :
    ∀ c ∈ [',', ' '].intercalate words, isVisible c = true := by
  intro c member
  rcases mem_intercalate member with between | ⟨word, wordMember, inside⟩
  · have all : ∀ c ∈ [',', ' '], isVisible c = true := List.all_eq_true.mp rfl
    exact all c between
  · exact each word wordMember c inside

theorem Numeral.isVisible {numeral : List Char} (isNumeral : Numeral numeral) :
    ∀ c ∈ numeral, isVisible c = true :=
  fun c member => isVisible_of_isNumeric (isNumeral.isNumeric c member)

/-- A value is written in visible ASCII. -/
theorem isVisible_of_mem_render (held : json.EachReal Binary64.InRange) :
    ∀ c ∈ (render json).toList, isVisible c = true := by
  induction held with
  | null => exact List.all_eq_true.mp rfl
  | bool value => cases value <;> exact List.all_eq_true.mp rfl
  | int value => exact (numeral_decimal value).isVisible
  | @real double inRange =>
      cases double with
      | nan => exact List.all_eq_true.mp rfl
      | infinite negative => cases negative <;> exact List.all_eq_true.mp rfl
      | finite => exact (Binary64.numeral_text inRange).isVisible
  | text value => exact isVisible_of_mem_quote value
  | array each ih =>
      rw [toList_render_array]
      refine List.forall_mem_cons.mpr ⟨rfl, List.forall_mem_append.mpr
        ⟨isVisible_of_mem_listed ?_, List.all_eq_true.mp rfl⟩⟩
      exact List.forall_mem_map.mpr ih
  | object each ih =>
      rw [toList_render_object]
      refine List.forall_mem_cons.mpr ⟨rfl, List.forall_mem_append.mpr
        ⟨isVisible_of_mem_listed ?_, List.all_eq_true.mp rfl⟩⟩
      refine List.forall_mem_map.mpr fun named member => ?_
      rw [memberText]
      exact List.forall_mem_append.mpr ⟨isVisible_of_mem_quote named.1, List.forall_mem_cons.mpr
        ⟨rfl, List.forall_mem_cons.mpr ⟨rfl, ih named member⟩⟩⟩

/-! ## Reading strings back -/

/-- The characters that UTF-16 units spell, if the surrogates among them stand in pairs. -/
def charactersOf? : List Nat → Option (List Char)
  | [] => some []
  | unit :: rest =>
      if unit < 0xD800 ∨ 0xE000 ≤ unit then (charactersOf? rest).map (Char.ofNat unit :: ·)
      else match rest with
        | low :: rest =>
            if unit < 0xDC00 ∧ 0xDC00 ≤ low ∧ low < 0xE000 then
              (charactersOf? rest).map
                (Char.ofNat (0x10000 + (unit - 0xD800) * 0x400 + (low - 0xDC00)) :: ·)
            else none
        | [] => none

/-- The units of a text spell the text. -/
theorem charactersOf?_units (text : List Char) :
    charactersOf? (text.flatMap unitsOf) = some text := by
  induction text with
  | nil => rfl
  | cons c text ih =>
      have valid : c.toNat < 0xD800 ∨ 0xDFFF < c.toNat ∧ c.toNat < 0x110000 := c.valid
      rw [List.flatMap_cons, unitsOf]
      split
      · next small =>
          rw [List.singleton_append, charactersOf?.eq_def]
          dsimp only
          rw [if_pos (by omega), ih, Char.ofNat_toNat]
          rfl
      · next large =>
          rw [List.cons_append, List.cons_append, List.nil_append, charactersOf?.eq_def]
          dsimp only
          rw [if_neg (by omega), if_pos (by omega), ih]
          have joined : 0x10000 + (0xD800 + (c.toNat - 0x10000) / 0x400 - 0xD800) * 0x400 +
              (0xDC00 + (c.toNat - 0x10000) % 0x400 - 0xDC00) = c.toNat := by
            omega
          rw [joined, Char.ofNat_toNat]
          rfl

end Json

end Unformat
