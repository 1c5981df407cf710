import Unformat.Proofs.Number.RealNumerals
import Unformat.Proofs.Scan.Converting
import Unformat.Proofs.Scan.Interrupted
import Unformat.Proofs.ScanType.Equality
import Unformat.ScanType.Registry

/-!
# Default patterns that agree with their conversions

What the default patterns of truth values, characters and words take converts, whatever the reader
brings.  So does what the default pattern of doubles takes, but for infinity spelled with the dotted
capital letter, and a run under such rules stops for no other text that does not convert.
-/

namespace Unformat

open Pattern
open DefaultPattern (DottedInfinity)
open Scan (outcome execute matchPattern TakenBy)
open Text (Utf8.encode)

namespace ScanType

/-- Truth values, characters, words and doubles, under all that they are called by. -/
def basicTypes : List (Designator × ScanType) :=
  [(.name "bool", boolean), (.kind .bool, boolean), (.name "char", character),
    (.name "String", string), (.name "str", string), (.kind .str, string), (.name "f64", real),
    (.name "f32", real), (.name "float", real), (.kind .float, real)]

theorem find?_of_mem_basicTypes {designator : Designator} {type : ScanType}
    (member : (designator, type) ∈ basicTypes) :
    Registry.builtin.find? designator = some type := by
  have all : ∀ entry ∈ basicTypes, Registry.builtin.find? entry.1 = some entry.2 := by
    decide +kernel
  exact all _ member

/-- The texts that the pattern describes convert, apart from dotted infinities among the doubles. -/
structure Agrees (type : ScanType) (source : String) (pattern : Pattern) : Prop where
  given : type.defaultPattern = some source
  compiles : Pattern.compile source = .ok pattern
  plain : pattern.plain
  converts_iff : ∀ {text}, Describes pattern text →
    ((type.conversion.apply text).isOk = true ↔ ¬ (type = real ∧ DottedInfinity text))

theorem eq_of_describes_spelled {word text : List Char}
    (described : Describes (DefaultPattern.spelled word) text) : text = word := by
  match word with
  | [] => exact described
  | [c] => exact describes_one_char_iff.mp described
  | c :: d :: word =>
      obtain ⟨_, behind, rfl, first, rest⟩ := described
      rw [describes_one_char_iff.mp first, eq_of_describes_spelled rest]
      rfl

theorem agrees_of_converts {type : ScanType} {source : String} {pattern : Pattern}
    (given : type.defaultPattern = some source) (compiles : Pattern.compile source = .ok pattern)
    (plain : pattern.plain) (other : type ≠ real)
    (converts : ∀ text, Describes pattern text → (type.conversion.apply text).isOk = true) :
    Agrees type source pattern where
  given := given
  compiles := compiles
  plain := plain
  converts_iff := fun described => iff_of_true (converts _ described) fun dotted => other dotted.1

theorem agrees_boolean : Agrees boolean DefaultPattern.boolean DefaultPattern.truthValue := by
  apply agrees_of_converts rfl DefaultPattern.compile_boolean rfl (by decide)
  rintro text (spelled | spelled) <;> rw [eq_of_describes_spelled spelled] <;> rfl

theorem agrees_character : Agrees character DefaultPattern.character (.one .notLineFeed) := by
  apply agrees_of_converts rfl DefaultPattern.compile_character rfl (by decide)
  rintro text ⟨c, _, rfl⟩
  rfl

theorem agrees_string :
    Agrees string DefaultPattern.word (DefaultPattern.run (.property .word)) :=
  agrees_of_converts rfl DefaultPattern.compile_word rfl (by decide) fun _ _ => rfl

theorem agrees_real : Agrees real DefaultPattern.real DefaultPattern.number where
  given := rfl
  compiles := DefaultPattern.compile_real
  plain := rfl
  converts_iff := by
    intro text described
    have unfolded : real.conversion.apply text = Conversion.parseReal text := rfl
    rw [unfolded, DefaultPattern.parseReal_isOk_iff described]
    simp

theorem exists_agrees {designator : Designator} {type : ScanType}
    (member : (designator, type) ∈ basicTypes) : ∃ source pattern, Agrees type source pattern := by
  have all : ∀ entry ∈ basicTypes,
      entry.2 = boolean ∨ entry.2 = character ∨ entry.2 = string ∨ entry.2 = real := by
    decide
  rcases all _ member with rfl | rfl | rfl | rfl
  · exact ⟨_, _, agrees_boolean⟩
  · exact ⟨_, _, agrees_character⟩
  · exact ⟨_, _, agrees_string⟩
  · exact ⟨_, _, agrees_real⟩

/-- What a default rule of such a type refuses is a dotted infinity. -/
theorem dottedInfinity_of_refused {plan : Plan} {compiled : CompiledPlan} {text typeName : String}
    {reason : ConversionFault} (compiles : plan.compile = .ok compiled)
    (basic : ∀ rule ∈ plan.rules, ∃ designator type, (designator, type) ∈ basicTypes ∧
      rule = .default type)
    (refused : Scan.Refused compiled plan.segments text typeName reason) :
    typeName = real.name ∧ DottedInfinity text.toList := by
  have same := (Plan.compileRules_of_compile compiles).2
  cases refused with
  | @capture slot index rule type taken _ member found typed takenBy refused =>
      rw [same] at found
      obtain ⟨designator, other, listed, rfl⟩ := basic rule (List.mem_of_getElem? found)
      cases typed
      obtain ⟨source, pattern, agrees⟩ := exists_agrees listed
      have reads : Plan.ReadsAs (.default type) pattern := by
        rw [Plan.ReadsAs, Rule.pattern?, agrees.given]
        exact agrees.compiles
      rw [Plan.matcher_of_compile compiles found reads] at takenBy
      have converts := agrees.converts_iff (takenBy.describes agrees.plain)
      rw [refused] at converts
      have dotted : type = real ∧ DottedInfinity taken := by
        by_contra other
        cases converts.mpr other
      rw [String.toList_ofList, dotted.1]
      exact ⟨rfl, dotted.2⟩

/-- What the default pattern of truth values, characters, words or doubles takes, over any reader,
converts unless it spells infinity as a double with the dotted capital letter; and a run whose rules
are the default rules of these types stops for no other text that does not convert. -/
theorem basic_types_convert (reader : Reader) :
    (∀ designator type, (designator, type) ∈ basicTypes →
      Registry.builtin.find? designator = some type ∧
        ∃ source pattern, type.defaultPattern = some source ∧
          Pattern.compile source = .ok pattern ∧
            ∀ taken after,
              outcome (matchPattern pattern.run source) reader = (.ok taken, after) →
                ((∃ value, type.conversion.apply taken = .ok value) ↔
                  ¬ (type = real ∧ DottedInfinity taken))) ∧
    ∀ (plan : Plan) (compiled : CompiledPlan) (after : Reader) (diagnostic : Diagnostic ScanFault)
        (text typeName : String) (reason : ConversionFault),
      plan.compile = .ok compiled →
      (∀ rule ∈ plan.rules, ∃ designator type, (designator, type) ∈ basicTypes ∧
        rule = .default type) →
      outcome (execute (.ok compiled)) reader = (.error (.fault diagnostic), after) →
      diagnostic.fault = .unconvertible text typeName reason →
        typeName = real.name ∧ DottedInfinity text.toList := by
  constructor
  · intro designator type member
    obtain ⟨source, pattern, agrees⟩ := exists_agrees member
    refine ⟨find?_of_mem_basicTypes member, source, pattern, agrees.given, agrees.compiles, ?_⟩
    intro taken after matched
    have confined : Scan.Confined (fun _ _ _ => True) (TakenBy pattern.run)
        (matchPattern pattern.run source) := Scan.confined_matchPattern _ _
    have takenBy : TakenBy pattern.run taken := confined.yields _ _ _ matched
    rw [← agrees.converts_iff (takenBy.describes agrees.plain)]
    cases type.conversion.apply taken with
    | ok value => simp [Except.isOk, Except.toBool]
    | error reason => simp [Except.isOk, Except.toBool]
  · intro plan compiled after diagnostic text typeName reason compiles basic stopped unconvertible
    have refused := Scan.refused_of_outcome_execute stopped unconvertible
    rw [(Plan.compileRules_of_compile compiles).2] at refused
    exact dottedInfinity_of_refused compiles basic refused

/-- The default pattern of doubles takes a dotted infinity, which does not convert. -/
theorem dotted_infinity_taken :
    let text := ['İ', 'n', 'f']
    let reader := Reader.ofChunks [Utf8.encode text]
    (Registry.builtin.find? (.name "f64") = some real ∧
      real.defaultPattern = some DefaultPattern.real ∧
      Pattern.compile DefaultPattern.real = .ok DefaultPattern.number) ∧
    (outcome (matchPattern DefaultPattern.number.run DefaultPattern.real) reader).1 = .ok text ∧
    real.conversion.apply text = .error (.notReal "İnf") ∧
    (outcome (execute (Plan.single real).compile) reader).1 =
      .error (.fault (.of (.unconvertible "İnf" "f64" (.notReal "İnf")))) := by
  refine ⟨⟨by decide +kernel, rfl, DefaultPattern.compile_real⟩, ?_, ?_, ?_⟩
  · decide +kernel
  · decide +kernel
  · rw [Scan.compile_single rfl DefaultPattern.compile_real]
    decide +kernel

end ScanType

end Unformat
