import Unformat.Json
import Unformat.Number.Numeral

/-!
# Standard JSON

The grammar of JSON texts, and what they stand for: a number is a mantissa times a power of ten, and
a string is a sequence of UTF-16 units, which need not make up characters.  A judgement says what a
text begins with and what is behind that.  No text stands for two things.
-/

namespace Unformat.Json

open Text (Hex.isDigit Hex.value)

/-- What a JSON text stands for. A number is `mantissa · 10 ^ exponent`, and strings are sequences
of UTF-16 units. -/
inductive Document where
  | null
  | bool (value : Bool)
  | number (mantissa exponent : Int)
  | text (units : List Nat)
  | array (items : List Document)
  | object (members : List (List Nat × Document))

/-! ## Space -/

def isBlank (c : Char) : Bool := c = ' ' || c = '\t' || c = '\n' || c = '\r'

/-- A text begins with blanks, any number of them, and the rest is behind these. -/
inductive Skips : List Char → List Char → Prop
  | here (text : List Char) : Skips text text
  | blank {c : Char} {text rest : List Char} (blank : isBlank c = true) (later : Skips text rest) :
      Skips (c :: text) rest

/-! ## Numbers -/

/-- A zero alone, or digits that begin with another one. -/
inductive WholePart : List Char → Prop
  | zero : WholePart ['0']
  | digits {c : Char} {others : List Char} (first : c.isDigit = true) (nonzero : c ≠ '0')
      (each : ∀ d ∈ others, d.isDigit = true) : WholePart (c :: others)

inductive FractionPart : List Char → Prop
  | none : FractionPart []
  | digits {digits : List Char} (solid : digits ≠ []) (each : ∀ d ∈ digits, d.isDigit = true) :
      FractionPart ('.' :: digits)

inductive ExponentPart : List Char → Prop
  | none : ExponentPart []
  | digits {mark : Char} {sign digits : List Char} (marks : mark = 'e' ∨ mark = 'E')
      (signs : sign = [] ∨ sign = ['+'] ∨ sign = ['-']) (solid : digits ≠ [])
      (each : ∀ d ∈ digits, d.isDigit = true) : ExponentPart (mark :: (sign ++ digits))

inductive Numeral : List Char → Prop
  | parts {sign whole fraction exponent : List Char} (signs : sign = [] ∨ sign = ['-'])
      (isWhole : WholePart whole) (isFraction : FractionPart fraction)
      (isExponent : ExponentPart exponent) : Numeral (sign ++ (whole ++ (fraction ++ exponent)))

/-- The mantissa and the power of ten that a numeral denotes: its digits without the point, and its
exponent less the number of digits behind the point. -/
def numeralValue (numeral : List Char) : Int × Int :=
  let (negative, size) := Number.splitSign numeral
  let whole := size.takeWhile Char.isDigit
  let rest := size.drop whole.length
  let fraction := match rest with
    | '.' :: rest => rest.takeWhile Char.isDigit
    | _ => []
  let rest := match rest with
    | '.' :: rest => rest.drop fraction.length
    | rest => rest
  (Number.signed negative (Nat.ofDigitChars 10 (whole ++ fraction) 0),
    (Number.exponent? rest).getD 0 - fraction.length)

/-! ## Strings -/

/-- The UTF-16 units of a character: one, or two surrogates. -/
def unitsOf (c : Char) : List Nat :=
  if c.toNat < 0x10000 then [c.toNat]
  else
    let offset := c.toNat - 0x10000
    [0xD800 + offset / 0x400, 0xDC00 + offset % 0x400]

/-- The letters that may follow a backslash alone, with the units that they stand for. -/
def letters : List (Char × Nat) :=
  [('"', 0x22), ('\\', 0x5C), ('/', 0x2F), ('b', 0x08), ('f', 0x0C), ('n', 0x0A), ('r', 0x0D),
    ('t', 0x09)]

/-- A text begins with the inside of a string and its closing quote. -/
inductive Spells : List Char → List Nat → List Char → Prop
  | close (rest : List Char) : Spells ('"' :: rest) [] rest
  | plain {c : Char} {text rest : List Char} {units : List Nat} (visible : ' ' ≤ c)
      (noQuote : c ≠ '"') (noBackslash : c ≠ '\\') (later : Spells text units rest) :
      Spells (c :: text) (unitsOf c ++ units) rest
  | letter {letter : Char} {unit : Nat} {text rest : List Char} {units : List Nat}
      (listed : (letter, unit) ∈ letters) (later : Spells text units rest) :
      Spells ('\\' :: letter :: text) (unit :: units) rest
  | unit {digits text rest : List Char} {units : List Nat} (four : digits.length = 4)
      (each : ∀ d ∈ digits, Hex.isDigit d = true) (later : Spells text units rest) :
      Spells ('\\' :: 'u' :: (digits ++ text)) (Hex.value digits :: units) rest

/-! ## Brackets -/

section Brackets

variable {α : Type}

/-- Behind an entry, a text goes on with further entries, each behind a comma, and the closing
bracket. -/
inductive Entries (entry : List Char → α → List Char → Prop) (close : Char) :
    List Char → List α → List Char → Prop
  | close {text rest : List Char} (skips : Skips text (close :: rest)) :
      Entries entry close text [] rest
  | more {text next first behind rest : List Char} {value : α} {values : List α}
      (comma : Skips text (',' :: next)) (front : Skips next first)
      (here : entry first value behind) (others : Entries entry close behind values rest) :
      Entries entry close text (value :: values) rest

/-- Behind the opening bracket, a text begins with entries and the closing bracket. -/
inductive Listed (entry : List Char → α → List Char → Prop) (close : Char) :
    List Char → List α → List Char → Prop
  | empty {text rest : List Char} (skips : Skips text (close :: rest)) :
      Listed entry close text [] rest
  | solid {text first behind rest : List Char} {value : α} {values : List α}
      (front : Skips text first) (here : entry first value behind)
      (others : Entries entry close behind values rest) :
      Listed entry close text (value :: values) rest

end Brackets

/-- A text begins with a name, a colon and a value. -/
inductive Member (value : List Char → Document → List Char → Prop) :
    List Char → List Nat × Document → List Char → Prop
  | member {text behind next first rest : List Char} {name : List Nat} {document : Document}
      (key : Spells text name behind) (colon : Skips behind (':' :: next))
      (front : Skips next first) (here : value first document rest) :
      Member value ('"' :: text) (name, document) rest

/-! ## Values -/

/-- A text begins with a value, in which `inner` says what the values in brackets are. -/
inductive Form (inner : List Char → Document → List Char → Prop) :
    List Char → Document → List Char → Prop
  | null (rest : List Char) : Form inner ('n' :: 'u' :: 'l' :: 'l' :: rest) .null rest
  | true (rest : List Char) : Form inner ('t' :: 'r' :: 'u' :: 'e' :: rest) (.bool true) rest
  | false (rest : List Char) :
      Form inner ('f' :: 'a' :: 'l' :: 's' :: 'e' :: rest) (.bool false) rest
  | number {text numeral rest : List Char} (standing : text = numeral ++ rest)
      (isNumeral : Numeral numeral) :
      Form inner text (.number (numeralValue numeral).1 (numeralValue numeral).2) rest
  | text {text rest : List Char} {units : List Nat} (spells : Spells text units rest) :
      Form inner ('"' :: text) (.text units) rest
  | array {text rest : List Char} {items : List Document}
      (listed : Listed inner ']' text items rest) :
      Form inner ('[' :: text) (.array items) rest
  | object {text rest : List Char} {members : List (List Nat × Document)}
      (listed : Listed (Member inner) '\x7d' text members rest) :
      Form inner ('\x7b' :: text) (.object members) rest

/-- A text begins with a value in which no more than so many brackets are nested. -/
def Begins : Nat → List Char → Document → List Char → Prop
  | 0 => Form fun _ _ _ => False
  | depth + 1 => Form (Begins depth)

/-- A JSON text: a value, with blanks around it. -/
def Denotes (text : List Char) (document : Document) : Prop :=
  ∃ depth first rest, Skips text first ∧ Begins depth first document rest ∧ Skips rest []

/-- The text is standard JSON. -/
def Valid (text : List Char) : Prop := ∃ document, Denotes text document

/-! ## What is behind a value -/

/-- The characters of numerals. -/
def isNumeric (c : Char) : Bool :=
  c.isDigit || c = '.' || c = 'e' || c = 'E' || c = '+' || c = '-'

/-- No numeral goes on into the text. -/
def Ends (text : List Char) : Prop := ∀ c ∈ text.head?, isNumeric c = false

theorem Skips.eq_dropWhile {text rest : List Char} (skips : Skips text rest)
    (stops : ∀ c ∈ rest.head?, isBlank c = false) : rest = text.dropWhile isBlank := by
  induction skips with
  | here text =>
      cases text with
      | nil => rfl
      | cons c text => rw [List.dropWhile_cons_of_neg (by simp [stops c rfl])]
  | blank blank later ih => rw [List.dropWhile_cons_of_pos blank, ih stops]

theorem Skips.unique {text rest other : List Char} (first : Skips text rest)
    (second : Skips text other) (stops : ∀ c ∈ rest.head?, isBlank c = false)
    (otherStops : ∀ c ∈ other.head?, isBlank c = false) : rest = other :=
  (first.eq_dropWhile stops).trans (second.eq_dropWhile otherStops).symm

/-- In front of a text with blanks before it, a numeral is at its end. -/
theorem Skips.ends {text rest : List Char} (skips : Skips text rest) (ends : Ends rest) :
    Ends text := by
  cases skips with
  | here => exact ends
  | blank blank =>
      rintro c ⟨⟩
      simp only [isBlank, Bool.or_eq_true, decide_eq_true_eq] at blank
      rcases blank with ((rfl | rfl) | rfl) | rfl <;> rfl

/-! ## One meaning -/

/-- The first character of a value. -/
def opens (c : Char) : Bool :=
  c.isDigit || c = '-' || c = '"' || c = '[' || c = '\x7b' || c = 'n' || c = 't' || c = 'f'

/-- What an entry begins with is one thing only, and it begins neither with a blank nor with a
character that may stand where an entry may. -/
structure Unambiguous {α : Type} (entry : List Char → α → List Char → Prop) : Prop where
  unique : ∀ {text value rest other left}, entry text value rest → entry text other left →
    Ends rest → Ends left → value = other ∧ rest = left
  front : ∀ {text value rest}, entry text value rest → ∃ c more, text = c :: more ∧ opens c = true

theorem not_blank_of_opens {c : Char} (first : opens c = true) : isBlank c = false := by
  simp only [opens, Bool.or_eq_true, decide_eq_true_eq] at first
  rcases first with ((((((digit | rfl) | rfl) | rfl) | rfl) | rfl) | rfl) | rfl
  · cases blank : isBlank c with
    | false => rfl
    | true =>
        simp only [isBlank, Bool.or_eq_true, decide_eq_true_eq] at blank
        rcases blank with ((rfl | rfl) | rfl) | rfl <;> cases digit
  all_goals rfl

theorem unit_unique {letter : Char} {unit other : Nat} (listed : (letter, unit) ∈ letters)
    (otherListed : (letter, other) ∈ letters) : unit = other := by
  have found : ∀ entry ∈ letters, letters.lookup entry.1 = some entry.2 := by decide
  exact Option.some.inj ((found _ listed).symm.trans (found _ otherListed))

theorem not_mem_letters (unit : Nat) : ('u', unit) ∉ letters := by
  have others : ∀ entry ∈ letters, entry.1 ≠ 'u' := by decide
  exact fun listed => others _ listed rfl

theorem Spells.unique {text rest left : List Char} {units others : List Nat}
    (first : Spells text units rest) (second : Spells text others left) :
    units = others ∧ rest = left := by
  induction first generalizing others with
  | close =>
      cases second with
      | close => exact ⟨rfl, rfl⟩
      | plain _ noQuote => exact (noQuote rfl).elim
  | plain visible noQuote noBackslash later ih =>
      cases second with
      | close => exact (noQuote rfl).elim
      | plain _ _ _ also =>
          obtain ⟨rfl, rfl⟩ := ih also
          exact ⟨rfl, rfl⟩
      | letter | unit => exact (noBackslash rfl).elim
  | letter listed later ih =>
      cases second with
      | plain _ _ noBackslash => exact (noBackslash rfl).elim
      | letter otherListed also =>
          obtain rfl := unit_unique listed otherListed
          obtain ⟨rfl, rfl⟩ := ih also
          exact ⟨rfl, rfl⟩
      | unit => exact (not_mem_letters _ listed).elim
  | @unit digits text rest units four each later ih =>
      generalize standing : digits ++ text = whole at second
      cases second with
      | plain _ _ noBackslash => exact (noBackslash rfl).elim
      | letter listed => exact (not_mem_letters _ listed).elim
      | unit otherFour _ also =>
          obtain ⟨rfl, rfl⟩ := List.append_inj standing (four.trans otherFour.symm)
          obtain ⟨rfl, rfl⟩ := ih also
          exact ⟨rfl, rfl⟩

/-! ### Numerals -/

theorem isNumeric_of_isDigit {c : Char} (digit : c.isDigit = true) : isNumeric c = true := by
  simp [isNumeric, digit]

theorem Numeral.isNumeric {numeral : List Char} (isNumeral : Numeral numeral) :
    ∀ c ∈ numeral, isNumeric c = true := by
  obtain ⟨signs, isWhole, isFraction, isExponent⟩ := isNumeral
  simp only [List.forall_mem_append]
  refine ⟨?_, ?_, ?_, ?_⟩
  · rcases signs with rfl | rfl <;> exact List.all_eq_true.mp rfl
  · cases isWhole with
    | zero => exact List.all_eq_true.mp rfl
    | digits first _ each =>
        exact List.forall_mem_cons.mpr ⟨isNumeric_of_isDigit first,
          fun c member => isNumeric_of_isDigit (each c member)⟩
  · cases isFraction with
    | none => exact List.forall_mem_nil _
    | digits _ each =>
        exact List.forall_mem_cons.mpr ⟨rfl, fun c member => isNumeric_of_isDigit (each c member)⟩
  · cases isExponent with
    | none => exact List.forall_mem_nil _
    | digits marks signs _ each =>
        refine List.forall_mem_cons.mpr ⟨?_, List.forall_mem_append.mpr ⟨?_, ?_⟩⟩
        · rcases marks with rfl | rfl <;> rfl
        · rcases signs with rfl | rfl | rfl <;> exact List.all_eq_true.mp rfl
        · exact fun c member => isNumeric_of_isDigit (each c member)

/-- A numeral takes all characters that may belong to it. -/
theorem Numeral.eq_takeWhile {numeral rest : List Char} (isNumeral : Numeral numeral)
    (ends : Ends rest) : numeral = (numeral ++ rest).takeWhile Json.isNumeric := by
  rw [List.takeWhile_append_of_pos isNumeral.isNumeric]
  cases rest with
  | nil => simp
  | cons c rest => rw [List.takeWhile_cons_of_neg (by simp [ends c rfl]), List.append_nil]

theorem Numeral.unique {numeral other rest left : List Char} (isNumeral : Numeral numeral)
    (otherNumeral : Numeral other) (ends : Ends rest) (otherEnds : Ends left)
    (same : numeral ++ rest = other ++ left) : numeral = other ∧ rest = left := by
  have words : numeral = other := by
    rw [isNumeral.eq_takeWhile ends, same, ← otherNumeral.eq_takeWhile otherEnds]
  subst words
  exact ⟨rfl, List.append_cancel_left same⟩

theorem WholePart.front {whole : List Char} (isWhole : WholePart whole) :
    ∃ c more, whole = c :: more ∧ c.isDigit = true := by
  cases isWhole with
  | zero => exact ⟨'0', [], rfl, rfl⟩
  | digits first => exact ⟨_, _, rfl, first⟩

theorem Numeral.front {numeral : List Char} (isNumeral : Numeral numeral) :
    ∃ c more, numeral = c :: more ∧ (c.isDigit = true ∨ c = '-') := by
  obtain ⟨signs, isWhole, _, _⟩ := isNumeral
  obtain ⟨c, more, rfl, digit⟩ := isWhole.front
  rcases signs with rfl | rfl
  · exact ⟨c, _, rfl, .inl digit⟩
  · exact ⟨'-', _, rfl, .inr rfl⟩

/-- Only a numeral begins with a digit or a minus sign. -/
theorem Numeral.not_standing {numeral rest more : List Char} {c : Char}
    (isNumeral : Numeral numeral) (other : c.isDigit = false ∧ c ≠ '-') :
    c :: more ≠ numeral ++ rest := by
  intro standing
  obtain ⟨d, digits, rfl, first⟩ := isNumeral.front
  obtain ⟨rfl, _⟩ := List.cons.inj standing
  rcases first with digit | minus
  · simp [other.1] at digit
  · exact other.2 minus

/-- Behind a minus sign, a numeral goes on with a digit. -/
theorem Numeral.not_minus_standing {numeral rest more : List Char} {c : Char}
    (isNumeral : Numeral numeral) (other : c.isDigit = false) :
    '-' :: c :: more ≠ numeral ++ rest := by
  obtain ⟨signs, isWhole, _, _⟩ := isNumeral
  obtain ⟨d, digits, rfl, digit⟩ := isWhole.front
  intro standing
  rcases signs with rfl | rfl
  · obtain ⟨rfl, _⟩ := List.cons.inj standing
    cases digit
  · obtain ⟨rfl, _⟩ := List.cons.inj (List.cons.inj standing).2
    rw [other] at digit
    cases digit

/-! ### Brackets -/

section Brackets

variable {α : Type} {entry : List Char → α → List Char → Prop} {close : Char}

/-- The characters that close brackets. -/
def closes (close : Char) : Prop := close = ']' ∨ close = '\x7d'

theorem Entries.ends (closing : closes close) {text rest : List Char} {values : List α}
    (entries : Entries entry close text values rest) : Ends text := by
  cases entries with
  | close skips =>
      refine skips.ends ?_
      rintro c ⟨⟩
      rcases closing with rfl | rfl <;> rfl
  | more comma =>
      refine comma.ends ?_
      rintro c ⟨⟩
      rfl

/-- Blanks end at a character that is none. -/
theorem Skips.unique_cons {text rest left : List Char} {c d : Char}
    (first : Skips text (c :: rest)) (second : Skips text (d :: left))
    (stops : isBlank c = false) (otherStops : isBlank d = false) : c = d ∧ rest = left :=
  List.cons.inj (first.unique second (by simpa using stops) (by simpa using otherStops))

theorem not_blank_of_closes (closing : closes close) : isBlank close = false := by
  rcases closing with rfl | rfl <;> rfl

theorem not_opens_of_closes (closing : closes close) : opens close = false := by
  rcases closing with rfl | rfl <;> rfl

theorem comma_ne_of_closes (closing : closes close) : close ≠ ',' := by
  rcases closing with rfl | rfl <;> decide

/-- An entry does not begin where its bracket closes. -/
theorem Unambiguous.not_closed (unambiguous : Unambiguous entry) (closing : closes close)
    {text rest first behind : List Char} {value : α} (skips : Skips text (close :: rest))
    (front : Skips text first) (here : entry first value behind) : False := by
  obtain ⟨c, more, rfl, opening⟩ := unambiguous.front here
  obtain ⟨rfl, _⟩ := skips.unique_cons front (not_blank_of_closes closing)
    (not_blank_of_opens opening)
  rw [not_opens_of_closes closing] at opening
  cases opening

theorem Unambiguous.skips_unique (unambiguous : Unambiguous entry) {text first other behind left :
    List Char} {value otherValue : α} (front : Skips text first) (otherFront : Skips text other)
    (here : entry first value behind) (otherHere : entry other otherValue left) :
    first = other := by
  obtain ⟨c, more, rfl, opening⟩ := unambiguous.front here
  obtain ⟨d, others, rfl, otherOpening⟩ := unambiguous.front otherHere
  exact front.unique otherFront (by simpa using not_blank_of_opens opening)
    (by simpa using not_blank_of_opens otherOpening)

theorem Entries.unique (unambiguous : Unambiguous entry) (closing : closes close)
    {text rest left : List Char} {values others : List α}
    (first : Entries entry close text values rest)
    (second : Entries entry close text others left) : values = others ∧ rest = left := by
  induction first generalizing others with
  | close skips =>
      cases second with
      | close also =>
          exact ⟨rfl, (skips.unique_cons also (not_blank_of_closes closing)
            (not_blank_of_closes closing)).2⟩
      | more comma =>
          exact (comma_ne_of_closes closing (skips.unique_cons comma (not_blank_of_closes closing)
            rfl).1).elim
  | more comma front here entries ih =>
      cases second with
      | close skips =>
          exact (comma_ne_of_closes closing (skips.unique_cons comma (not_blank_of_closes closing)
            rfl).1).elim
      | more otherComma otherFront otherHere otherEntries =>
          obtain ⟨_, rfl⟩ := comma.unique_cons otherComma rfl rfl
          obtain rfl := unambiguous.skips_unique front otherFront here otherHere
          obtain ⟨rfl, rfl⟩ := unambiguous.unique here otherHere (entries.ends closing)
            (otherEntries.ends closing)
          obtain ⟨rfl, rfl⟩ := ih otherEntries
          exact ⟨rfl, rfl⟩

theorem Listed.unique (unambiguous : Unambiguous entry) (closing : closes close)
    {text rest left : List Char} {values others : List α}
    (first : Listed entry close text values rest)
    (second : Listed entry close text others left) : values = others ∧ rest = left := by
  cases first with
  | empty skips =>
      cases second with
      | empty also =>
          exact ⟨rfl, (skips.unique_cons also (not_blank_of_closes closing)
            (not_blank_of_closes closing)).2⟩
      | solid front here => exact (unambiguous.not_closed closing skips front here).elim
  | solid front here entries =>
      cases second with
      | empty skips => exact (unambiguous.not_closed closing skips front here).elim
      | solid otherFront otherHere otherEntries =>
          obtain rfl := unambiguous.skips_unique front otherFront here otherHere
          obtain ⟨rfl, rfl⟩ := unambiguous.unique here otherHere (entries.ends closing)
            (otherEntries.ends closing)
          obtain ⟨rfl, rfl⟩ := entries.unique unambiguous closing otherEntries
          exact ⟨rfl, rfl⟩

end Brackets

/-! ### Values -/

variable {inner : List Char → Document → List Char → Prop}

theorem unambiguous_member (unambiguous : Unambiguous inner) : Unambiguous (Member inner) where
  unique := by
    rintro text value rest other left ⟨key, colon, front, here⟩ ⟨otherKey, otherColon, otherFront,
      otherHere⟩ ends otherEnds
    obtain ⟨rfl, rfl⟩ := key.unique otherKey
    obtain ⟨_, rfl⟩ := colon.unique_cons otherColon rfl rfl
    obtain rfl := unambiguous.skips_unique front otherFront here otherHere
    obtain ⟨rfl, rfl⟩ := unambiguous.unique here otherHere ends otherEnds
    exact ⟨rfl, rfl⟩
  front := by
    rintro text value rest ⟨⟩
    exact ⟨'"', _, rfl, rfl⟩

theorem unambiguous_form (unambiguous : Unambiguous inner) : Unambiguous (Form inner) where
  unique := by
    intro text value rest other left first second ends otherEnds
    cases first with
    | number standing isNumeral =>
        cases second with
        | number otherStanding otherNumeral =>
            obtain ⟨rfl, rfl⟩ := isNumeral.unique otherNumeral ends otherEnds
              (standing.symm.trans otherStanding)
            exact ⟨rfl, rfl⟩
        | null | true | false | text | array | object =>
            exact (isNumeral.not_standing (by decide) standing).elim
    | null =>
        cases second with
        | null => exact ⟨rfl, rfl⟩
        | number standing isNumeral => exact (isNumeral.not_standing (by decide) standing).elim
    | true =>
        cases second with
        | true => exact ⟨rfl, rfl⟩
        | number standing isNumeral => exact (isNumeral.not_standing (by decide) standing).elim
    | false =>
        cases second with
        | false => exact ⟨rfl, rfl⟩
        | number standing isNumeral => exact (isNumeral.not_standing (by decide) standing).elim
    | text spells =>
        cases second with
        | text also =>
            obtain ⟨rfl, rfl⟩ := spells.unique also
            exact ⟨rfl, rfl⟩
        | number standing isNumeral => exact (isNumeral.not_standing (by decide) standing).elim
    | array listed =>
        cases second with
        | array also =>
            obtain ⟨rfl, rfl⟩ := listed.unique unambiguous (.inl rfl) also
            exact ⟨rfl, rfl⟩
        | number standing isNumeral => exact (isNumeral.not_standing (by decide) standing).elim
    | object listed =>
        cases second with
        | object also =>
            obtain ⟨rfl, rfl⟩ := listed.unique (unambiguous_member unambiguous) (.inr rfl) also
            exact ⟨rfl, rfl⟩
        | number standing isNumeral => exact (isNumeral.not_standing (by decide) standing).elim
  front := by
    intro text value rest form
    cases form with
    | number standing isNumeral =>
        obtain ⟨c, more, rfl, first⟩ := isNumeral.front
        exact ⟨c, _, standing, by rcases first with digit | rfl <;> simp [opens, *]⟩
    | null | true | false | text | array | object => exact ⟨_, _, rfl, rfl⟩

theorem unambiguous_begins (depth : Nat) : Unambiguous (Begins depth) := by
  induction depth with
  | zero => exact unambiguous_form ⟨fun none => none.elim, fun none => none.elim⟩
  | succ depth ih => exact unambiguous_form ih

/-! ### Depth -/

section Depth

variable {α : Type} {entry wider : List Char → α → List Char → Prop} {close : Char}

theorem Entries.imp (into : ∀ {text value rest}, entry text value rest → wider text value rest)
    {text rest : List Char} {values : List α} (entries : Entries entry close text values rest) :
    Entries wider close text values rest := by
  induction entries with
  | close skips => exact .close skips
  | more comma front here _ ih => exact .more comma front (into here) ih

theorem Listed.imp (into : ∀ {text value rest}, entry text value rest → wider text value rest)
    {text rest : List Char} {values : List α} (listed : Listed entry close text values rest) :
    Listed wider close text values rest := by
  cases listed with
  | empty skips => exact .empty skips
  | solid front here others => exact .solid front (into here) (others.imp into)

variable {outer : List Char → Document → List Char → Prop}

theorem Member.imp (into : ∀ {text value rest}, inner text value rest → outer text value rest)
    {text rest : List Char} {named : List Nat × Document}
    (isMember : Member inner text named rest) : Member outer text named rest := by
  obtain ⟨key, colon, front, here⟩ := isMember
  exact ⟨key, colon, front, into here⟩

theorem Form.imp (into : ∀ {text value rest}, inner text value rest → outer text value rest)
    {text rest : List Char} {value : Document} (form : Form inner text value rest) :
    Form outer text value rest := by
  cases form with
  | null => exact .null _
  | true => exact .true _
  | false => exact .false _
  | number standing isNumeral => exact .number standing isNumeral
  | text spells => exact .text spells
  | array listed => exact .array (listed.imp into)
  | object listed => exact .object (listed.imp fun isMember => isMember.imp into)

theorem Begins.succ {depth : Nat} {text rest : List Char} {value : Document}
    (begins : Begins depth text value rest) : Begins (depth + 1) text value rest := by
  induction depth generalizing text value rest with
  | zero => exact Form.imp (fun none => none.elim) begins
  | succ depth ih => exact Form.imp ih begins

theorem Begins.mono {depth other : Nat} (le : depth ≤ other) {text rest : List Char}
    {value : Document} (begins : Begins depth text value rest) : Begins other text value rest := by
  induction le with
  | refl => exact begins
  | step _ ih => exact ih.succ

/-- A value is in one of the forms, and the values in its brackets are less deep. -/
theorem Begins.exists_inner {depth : Nat} {text rest : List Char} {value : Document}
    (begins : Begins depth text value rest) :
    ∃ inner, Form inner text value rest ∧ Unambiguous inner ∧
      ∀ {text value rest}, inner text value rest → ∃ depth, Begins depth text value rest := by
  cases depth with
  | zero =>
      exact ⟨_, begins, ⟨fun none => none.elim, fun none => none.elim⟩, fun none => none.elim⟩
  | succ depth => exact ⟨_, begins, unambiguous_begins depth, fun inside => ⟨depth, inside⟩⟩

end Depth

/-- A text begins with one value at most that ends where a value may end. -/
theorem Begins.unique {depth other : Nat} {text rest left : List Char} {value otherValue : Document}
    (first : Begins depth text value rest) (second : Begins other text otherValue left)
    (ends : Ends rest) (otherEnds : Ends left) : value = otherValue ∧ rest = left :=
  (unambiguous_begins (max depth other)).unique (first.mono (Nat.le_max_left _ _))
    (second.mono (Nat.le_max_right _ _)) ends otherEnds

/-- A JSON text stands for one thing. -/
theorem Denotes.unique {text : List Char} {document other : Document}
    (first : Denotes text document) (second : Denotes text other) : document = other := by
  obtain ⟨depth, front, rest, skips, begins, last⟩ := first
  obtain ⟨otherDepth, otherFront, left, otherSkips, otherBegins, otherLast⟩ := second
  obtain rfl : front = otherFront :=
    (unambiguous_begins (max depth otherDepth)).skips_unique skips otherSkips
      (begins.mono (Nat.le_max_left _ _)) (otherBegins.mono (Nat.le_max_right _ _))
  exact (begins.unique otherBegins (last.ends nofun) (otherLast.ends nofun)).1

end Unformat.Json
