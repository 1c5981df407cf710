import Unformat.Proofs.Number.Numerals
import Unformat.Proofs.Pattern.Defaults
import Unformat.Proofs.Pattern.Stopping
import Unformat.Proofs.Plan.Compiling
import Unformat.Proofs.Scan.Converting
import Unformat.Proofs.ScanType.Equality
import Unformat.Proofs.ScanType.Naming

/-!
# Integer types

The default pattern of an integer type matches exactly the numerals that its conversion reads, and
the conversion refuses none of them but those whose integer is not of the kind.
-/

namespace Unformat

open Pattern

namespace DefaultPattern

variable {signed : Bool} {text : List Char}

/-- The signs that integers may have. -/
def signOf (signed : Bool) : CharTest := if signed then sign else .char '+'

/-- The default pattern of integers, signed or not. -/
def integer (signed : Bool) : Pattern := numeral (signOf signed)

theorem not_digit_of_signOf {c : Char} (holds : (signOf signed).holds c) :
    digit.holds c = false := by
  cases signed with
  | true => exact not_digit_of_sign holds
  | false => exact not_digit_of_plus holds

theorem isNumeral_of_describes (described : Describes (integer signed) text) :
    IsNumeral signed text := by
  obtain ⟨signs, digits, rfl, signsDescribed, digitsDescribed⟩ := described
  obtain ⟨passes, solid⟩ := describes_run_iff.mp digitsDescribed
  rcases describes_optional_iff.mp signsDescribed with rfl | ⟨c, holds, rfl⟩
  · exact .bare passes solid
  cases signed with
  | true =>
      rcases holds_sign_iff.mp holds with rfl | rfl
      · exact .plus passes solid
      · exact .minus rfl passes solid
  | false =>
      obtain rfl : c = '+' := by simpa [signOf, CharTest.holds] using holds
      exact .plus passes solid

theorem matchesAll_integer (isNumeral : IsNumeral signed text) :
    MatchesAll (integer signed) text := by
  have taken {signs digits : List Char} (signsDescribed : Describes (optional (signOf signed)) signs)
      (passes : ∀ c ∈ digits, c.isDigit = true) (solid : digits ≠ []) :
      MatchesAll (integer signed) (signs ++ digits) := by
    apply matchesAll_of_takes
    have stops : ∀ c ∈ ([] : List Char).head?, digit.holds c = false := by simp
    simpa [integer] using takes_numeral (fun _ => not_digit_of_signOf) signsDescribed passes solid stops
  have afterSign {c : Char} {digits : List Char} (holds : (signOf signed).holds c)
      (passes : ∀ c ∈ digits, c.isDigit = true) (solid : digits ≠ []) :
      MatchesAll (integer signed) (c :: digits) :=
    taken (describes_optional_iff.mpr (.inr ⟨c, holds, rfl⟩)) passes solid
  cases isNumeral with
  | bare passes solid => exact taken (describes_optional_iff.mpr (.inl rfl)) passes solid
  | plus passes solid => exact afterSign (by cases signed <;> rfl) passes solid
  | minus allowed passes solid => exact afterSign (by rw [allowed]; rfl) passes solid

theorem matchesAll_integer_iff : MatchesAll (integer signed) text ↔ IsNumeral signed text :=
  ⟨fun all => isNumeral_of_describes (all.describes rfl), matchesAll_integer⟩

end DefaultPattern

/-! ## The registered types -/

namespace IntegerKind

/-- The widths in bits, with what they add to a name. -/
def widths : List (Nat × String) :=
  [(8, "8"), (16, "16"), (32, "32"), (64, "64"), (128, "128"), (64, "size")]

/-- How the name of a type with a width begins. -/
def stem (signed nonzero : Bool) : String :=
  match signed, nonzero with
  | true, false => "i"
  | false, false => "u"
  | true, true => "NonZeroI"
  | false, true => "NonZeroU"

/-- The names of integer types and the integers that they stand for. -/
inductive Named : String → IntegerKind → Prop
  | sized {bits : Nat} {suffix : String} (width : (bits, suffix) ∈ widths)
      (signed nonzero : Bool) :
      Named (stem signed nonzero ++ suffix) ⟨signed, some bits, nonzero⟩
  | int : Named "int" ⟨true, none, false⟩
  | uint : Named "uint" ⟨false, none, false⟩

variable {name : String} {kind : IntegerKind}

def type (name : String) (kind : IntegerKind) : ScanType :=
  .ofIntegers name kind.signed kind.bits kind.nonzero

theorem Named.find? (named : Named name kind) :
    Registry.builtin.find? (.name name) = some (type name kind) := by
  have sized : ∀ width ∈ widths, ∀ signed nonzero,
      Registry.builtin.find? (.name (stem signed nonzero ++ width.2)) =
        some (type (stem signed nonzero ++ width.2) ⟨signed, some width.1, nonzero⟩) := by
    decide +kernel
  cases named with
  | sized width signed nonzero => exact sized _ width signed nonzero
  | int => decide +kernel
  | uint => decide +kernel

theorem named_of_mem_integers {registered : ScanType} (member : registered ∈ ScanType.integers) :
    ∃ kind, Named registered.name kind ∧ registered = type registered.name kind := by
  have parted : ScanType.integers =
      (widths.flatMap fun width => ScanType.integersOfWidth width.1 width.2) ++
        [type "int" ⟨true, none, false⟩, type "uint" ⟨false, none, false⟩] := rfl
  rw [parted, List.mem_append, List.mem_flatMap, List.mem_pair] at member
  rcases member with ⟨⟨bits, suffix⟩, width, member⟩ | rfl | rfl
  · simp only [ScanType.integersOfWidth, List.mem_cons, List.not_mem_nil, or_false] at member
    rcases member with rfl | rfl | rfl | rfl
    · exact ⟨_, .sized width true false, rfl⟩
    · exact ⟨_, .sized width false false, rfl⟩
    · exact ⟨_, .sized width true true, rfl⟩
    · exact ⟨_, .sized width false true, rfl⟩
  · exact ⟨_, .int, rfl⟩
  · exact ⟨_, .uint, rfl⟩

/-- Every registered type that converts to integers is one of these. -/
theorem named_of_find? {designator : Designator} {registered : ScanType}
    (found : Registry.builtin.find? designator = some registered)
    (converts : registered.conversion = .integer kind) :
    Named registered.name kind ∧ registered = type registered.name kind := by
  have all : ∀ entry ∈ Registry.builtin.entries, entry.2 ∈ ScanType.integers ∨
      entry.2 ∈ [.boolean, .character, .string, .real, .ipv4, .ipv6, .address, .path, .systemText,
        .socket, .socketV4, .socketV6] := by
    decide +kernel
  rcases all _ (Registry.mem_entries_of_find? found) with integer | other
  · obtain ⟨other, named, same⟩ := named_of_mem_integers integer
    have conversion : registered.conversion = .integer other := congrArg ScanType.conversion same
    cases converts.symm.trans conversion
    exact ⟨named, same⟩
  · simp only [List.mem_cons, List.not_mem_nil, or_false] at other
    rcases other with rfl | rfl | rfl | rfl | rfl | rfl | rfl | rfl | rfl | rfl | rfl | rfl <;>
      cases converts

theorem Named.bits_le (named : Named name kind) : ∀ bits ∈ kind.bits, bits ≤ 128 := by
  have bounded : ∀ width ∈ widths, width.1 ≤ 128 := by decide
  cases named with
  | sized width signed nonzero => simpa using bounded _ width
  | int => simp
  | uint => simp

theorem natAbs_le_of_holds {bits : Nat} {number : Int} (sized : kind.bits = some bits)
    (holds : kind.Holds number) : number.natAbs ≤ 2 ^ bits := by
  obtain ⟨range, _⟩ := holds
  have half : 2 ^ (bits - 1) ≤ 2 ^ bits := Nat.pow_le_pow_right (by decide) (Nat.sub_le _ _)
  have cast (exponent : Nat) : ((2 ^ exponent : Nat) : Int) = 2 ^ exponent := by simp
  cases signed : kind.signed <;> rw [signed, sized] at range <;> simp only [← cast] at range <;>
    omega

/-- Numbers of the kind have few digits, where the kind has a width. -/
theorem Named.decimalDigits_le (named : Named name kind) {bits : Nat} {number : Int}
    (sized : kind.bits = some bits) (holds : kind.Holds number) :
    (decimalDigits number).length ≤ Number.digitLimit := by
  have size : number.natAbs < 10 ^ 39 := by
    calc number.natAbs ≤ 2 ^ bits := natAbs_le_of_holds sized holds
      _ ≤ 2 ^ 128 := Nat.pow_le_pow_right (by decide) (named.bits_le bits sized)
      _ < 10 ^ 39 := by decide
  calc (decimalDigits number).length ≤ 39 :=
        (Nat.length_toDigits_le_iff (by decide) (by decide)).mpr size
    _ ≤ Number.digitLimit := by decide

/-! ## What the types read -/

open Scan (outcome runSegment)

/-- A type reads the integers of a kind, where its pattern can be read as `pattern`. -/
structure ReadBy (kind : IntegerKind) (type : ScanType) (pattern : Pattern) : Prop where
  /-- A text converts exactly when the pattern matches all of it and its value is of the kind, and
  then to that value. -/
  converts : ∀ text result, text.countP Char.isDigit ≤ Number.digitLimit →
    (type.conversion.apply text = .ok result ↔
      MatchesAll pattern text ∧ kind.Holds (numeralValue text) ∧
        result = .int (numeralValue text))
  refuses : ∀ text, text.countP Char.isDigit ≤ Number.digitLimit →
    ¬ (MatchesAll pattern text ∧ kind.Holds (numeralValue text)) →
      ∃ reason, type.conversion.apply text = .error reason
  rereads : ∀ number, kind.Holds number →
    (kind.bits = none → (decimalDigits number).length ≤ Number.digitLimit) →
      type.conversion.apply (decimal number) = .ok (.int number)
  /-- Where the default rule of the type stops a run for a text that does not convert, the text is
  a numeral whose value is not of the kind. -/
  stops : ∀ (plan : Plan) (compiled : CompiledPlan) (slot : Option Nat) (index : Nat)
      (reader after : Reader) (diagnostic : Diagnostic ScanFault) (text typeName : String)
      (reason : ConversionFault),
    plan.compile = .ok compiled → plan.rules[index]? = some (.default type) →
      outcome (runSegment compiled (.capture slot index)) reader =
        (.error (.fault diagnostic), after) →
      diagnostic.fault = .unconvertible text typeName reason →
      text.toList.countP Char.isDigit ≤ Number.digitLimit →
        MatchesAll pattern text.toList ∧ ¬ kind.Holds (numeralValue text.toList)

theorem apply_type_eq_ok_iff {text : List Char} {result : Value}
    (short : text.countP Char.isDigit ≤ Number.digitLimit) :
    (type name kind).conversion.apply text = .ok result ↔
      MatchesAll (DefaultPattern.integer kind.signed) text ∧ kind.Holds (numeralValue text) ∧
        result = .int (numeralValue text) := by
  have unfolded : (type name kind).conversion.apply text = (kind.parse text).map .int := rfl
  rw [unfolded, DefaultPattern.matchesAll_integer_iff]
  constructor
  · intro converted
    cases parsed : kind.parse text with
    | error reason =>
        rw [parsed] at converted
        cases converted
    | ok number =>
        rw [parsed] at converted
        cases converted
        obtain ⟨isNumeral, holds, rfl⟩ := (parse_eq_ok_iff short).mp parsed
        exact ⟨isNumeral, holds, rfl⟩
  · rintro ⟨isNumeral, holds, rfl⟩
    rw [(parse_eq_ok_iff short).mpr ⟨isNumeral, holds, rfl⟩]
    rfl

theorem exists_error_of_apply_type {text : List Char}
    (short : text.countP Char.isDigit ≤ Number.digitLimit)
    (other : ¬ (MatchesAll (DefaultPattern.integer kind.signed) text ∧
      kind.Holds (numeralValue text))) :
    ∃ reason, (type name kind).conversion.apply text = .error reason := by
  cases converted : (type name kind).conversion.apply text with
  | error reason => exact ⟨reason, rfl⟩
  | ok result =>
      obtain ⟨all, holds, _⟩ := (apply_type_eq_ok_iff short).mp converted
      exact absurd ⟨all, holds⟩ other

theorem compile_pattern (signed : Bool) :
    Pattern.compile (if signed then DefaultPattern.signed else DefaultPattern.unsigned) =
      .ok (DefaultPattern.integer signed) := by
  cases signed with
  | true => exact DefaultPattern.compile_signed
  | false => exact DefaultPattern.compile_unsigned

/-- What the default rule of an integer type takes is a numeral. -/
theorem matchesAll_of_refused {plan : Plan} {compiled : CompiledPlan} {slot : Option Nat}
    {index : Nat} {text typeName : String} {reason : ConversionFault}
    (compiles : plan.compile = .ok compiled)
    (found : plan.rules[index]? = some (.default (type name kind)))
    (refused : Scan.Refused compiled [.capture slot index] text typeName reason) :
    MatchesAll (DefaultPattern.integer kind.signed) text.toList ∧
      (type name kind).conversion.apply text.toList = .error reason := by
  have reads : Plan.ReadsAs (.default (type name kind)) (DefaultPattern.integer kind.signed) :=
    compile_pattern kind.signed
  have runs := Plan.matcher_of_compile compiles found reads
  have same := (Plan.compileRules_of_compile compiles).2
  cases refused with
  | @capture _ _ rule other taken _ member ruleFound typed takenBy refused =>
      obtain ⟨rfl, rfl⟩ : _ = slot ∧ _ = index := by simpa using member
      rw [same, found] at ruleFound
      cases ruleFound
      cases typed
      rw [runs] at takenBy
      have isNumeral := DefaultPattern.isNumeral_of_describes (takenBy.describes rfl)
      rw [String.toList_ofList]
      exact ⟨DefaultPattern.matchesAll_integer isNumeral, refused⟩

/-- The integer types are registered under their names, and each reads the integers of its kind:
exactly the texts that its default pattern matches as a whole and whose value is of the kind. -/
theorem Named.exists_readBy (named : Named name kind) :
    ∃ type source pattern, Registry.builtin.find? (.name name) = some type ∧
      type.defaultPattern = some source ∧ Pattern.compile source = .ok pattern ∧
        kind.ReadBy type pattern := by
  refine ⟨_, _, _, named.find?, rfl, compile_pattern kind.signed, ?_, ?_, ?_, ?_⟩
  · exact fun text result short => apply_type_eq_ok_iff short
  · exact fun text short other => exists_error_of_apply_type short other
  · intro number holds short
    have digits : (decimalDigits number).length ≤ Number.digitLimit := by
      cases sized : kind.bits with
      | none => exact short sized
      | some bits => exact named.decimalDigits_le sized holds
    have parsed := parse_decimal (contains_iff_holds.mpr holds) digits
    have unfolded : (type name kind).conversion.apply (decimal number) =
        (kind.parse (decimal number)).map .int := rfl
    rw [unfolded, parsed]
    rfl
  · intro plan compiled slot index reader after diagnostic text typeName reason compiles found
      stopped unconvertible short
    have refused := (Scan.confined_runSegment (.capture slot index)).refuses _ _ _ _ _ _ stopped
      unconvertible
    obtain ⟨all, error⟩ := matchesAll_of_refused compiles found refused
    refine ⟨all, ?_⟩
    intro holds
    rw [(apply_type_eq_ok_iff short).mpr ⟨all, holds, rfl⟩] at error
    cases error

theorem exists_readBy_nonZeroI8 :
    Named "NonZeroI8" ⟨true, some 8, true⟩ ∧
      ∃ type source pattern, Registry.builtin.find? (.name "NonZeroI8") = some type ∧
        type.defaultPattern = some source ∧ Pattern.compile source = .ok pattern ∧
          ReadBy ⟨true, some 8, true⟩ type pattern :=
  have named : Named "NonZeroI8" ⟨true, some 8, true⟩ :=
    .sized (by decide : (8, "8") ∈ widths) true true
  ⟨named, named.exists_readBy⟩

end IntegerKind

end Unformat
