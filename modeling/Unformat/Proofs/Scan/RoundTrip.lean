import Unformat.Proofs.Number.Decimal
import Unformat.Proofs.Plan.Fitting
import Unformat.Proofs.Scan.Chunking
import Unformat.Proofs.Scan.Slots
import Unformat.Proofs.ScanType.Equality

/-!
# Scanning what was written

Values written in the places of the captures, with the literals between them, are scanned back
into their slots, when every capture ends at a literal that cannot go on with its token, or at the
end.
-/

namespace Unformat

open Pattern (Cursor run_of_takes)
open Text (isWord Utf8.encode Utf8.decode)

/-! ## Tokens -/

namespace Value

/-- The text of a value that a token type reads back. -/
def token : Value → List Char
  | .bool value => (toString value).toList
  | .int number => decimal number
  | .text word => word.toList
  | other => other.plain.toList

end Value

/-- Nothing follows, or what follows does not begin with a character of a word. -/
def EndsWord (behind : List Char) : Prop := ∀ c ∈ behind.head?, isWord c = false

namespace ScanType

def written : List ScanType := boolean :: string :: integers

/-- The values of a type that can be written: truth values, words, and integers of the kind with no
more digits than may be read. -/
def Writes (type : ScanType) (value : Value) : Prop :=
  match type.conversion, value with
  | .boolean, .bool _ => True
  | .text, .text word => word.toList ≠ [] ∧ ∀ c ∈ word.toList, isWord c = true
  | .integer kind, .int number =>
      kind.Contains number ∧ (decimalDigits number).length ≤ Number.digitLimit
  | _, _ => False

/-- The default pattern of the type matches a written value up to its end, and the conversion gives
the value back. -/
structure ReadsBack (type : ScanType) (value : Value) (pattern : Pattern) : Prop where
  readsAs : Plan.ReadsAs (.default type) pattern
  matches_token : ∀ behind, EndsWord behind →
    pattern.run (value.token ++ behind) = .matched value.token.length
  converts : type.conversion.apply value.token = .ok value

theorem mem_tokens_of_mem_written {type : ScanType} (member : type ∈ written) : type ∈ tokens := by
  simp only [written, tokens, List.mem_cons] at member ⊢
  tauto

end ScanType

theorem run_numeral_decimal {sign : CharTest} {number : Int} {behind : List Char}
    (apart : ∀ c, sign.holds c → DefaultPattern.digit.holds c = false)
    (negative : number < 0 → sign.holds '-') (ends : EndsWord behind) :
    (DefaultPattern.numeral sign).run (decimal number ++ behind) =
      .matched (decimal number).length := by
  have digits : ∀ c ∈ decimalDigits number, DefaultPattern.digit.holds c = true :=
    fun c member => isDigit_of_mem_decimalDigits member
  have stops : ∀ c ∈ behind.head?, DefaultPattern.digit.holds c = false :=
    fun c member => DefaultPattern.not_digit_of_not_word (ends c member)
  have taken (signs : List Char) (signed : (DefaultPattern.optional sign).Describes signs) :=
    DefaultPattern.takes_numeral apart signed digits (decimalDigits_ne_nil number) stops
  apply run_of_takes
  by_cases neg : number < 0
  · rw [decimal_of_neg neg]
    exact taken ['-'] (DefaultPattern.describes_optional_iff.mpr (.inr ⟨_, negative neg, rfl⟩))
  · rw [decimal_of_nonneg (by omega)]
    exact taken [] (DefaultPattern.describes_optional_iff.mpr (.inl rfl))

namespace ScanType

theorem readsBack_integer {name : String} {signed : Bool} {bits : Option Nat} {nonzero : Bool}
    {number : Int} (contains : (IntegerKind.mk signed bits nonzero).Contains number)
    (short : (decimalDigits number).length ≤ Number.digitLimit) :
    ∃ pattern, ReadsBack (ofIntegers name signed bits nonzero) (.int number) pattern := by
  have converts : (IntegerKind.mk signed bits nonzero).parse (decimal number) = .ok number :=
    IntegerKind.parse_decimal contains short
  have converted : (ofIntegers name signed bits nonzero).conversion.apply
      (Value.int number).token = .ok (.int number) := by
    simp [ofIntegers, Conversion.apply, Value.token, converts, Except.map]
  cases signed with
  | true =>
      refine ⟨_, DefaultPattern.compile_signed, fun behind ends => ?_, converted⟩
      exact run_numeral_decimal (fun _ => DefaultPattern.not_digit_of_sign) (fun _ => rfl) ends
  | false =>
      refine ⟨_, DefaultPattern.compile_unsigned, fun behind ends => ?_, converted⟩
      refine run_numeral_decimal ?_ ?_ ends
      · exact fun _ => DefaultPattern.not_digit_of_plus
      · intro neg
        simpa using contains.signed_of_neg neg

/-- Every value that a type can write is read back. -/
theorem exists_readsBack {type : ScanType} {value : Value} (member : type ∈ written)
    (writes : type.Writes value) : ∃ pattern, type.ReadsBack value pattern := by
  rcases List.mem_cons.mp member with rfl | member
  · cases value with
    | bool value =>
        refine ⟨_, DefaultPattern.compile_boolean, fun behind _ => ?_, ?_⟩
        · exact DefaultPattern.run_truthValue value behind
        · cases value <;> rfl
    | _ => exact writes.elim
  rcases List.mem_cons.mp member with rfl | member
  · cases value with
    | text word =>
        refine ⟨_, DefaultPattern.compile_word, fun behind ends => ?_, ?_⟩
        · exact DefaultPattern.run_run writes.2 writes.1 ends
        · simp [string, Conversion.apply, Value.token]
    | _ => exact writes.elim
  obtain ⟨name, signed, bits, nonzero, rfl⟩ := exists_of_mem_integers member
  cases value with
  | int number => exact readsBack_integer writes.1 writes.2
  | _ => exact writes.elim

end ScanType

/-! ## Segments -/

/-- What stands behind a capture: nothing, or a literal that begins with no character of a word. -/
def EndsToken : List PlanSegment → Prop
  | [] => True
  | .literal text :: _ => text.toList ≠ [] ∧ EndsWord text.toList
  | .capture _ _ :: _ => False

/-- Every capture ends at the end or at a literal that cannot go on with a word. -/
def Separated : List PlanSegment → Prop
  | [] => True
  | .literal _ :: rest => Separated rest
  | .capture _ _ :: rest => EndsToken rest ∧ Separated rest

section Segments

variable (assigned : Nat → Value)

/-- The text of segments, of which the first is the `place`-th, with the values assigned to the
places of the captures. -/
def textFrom : Nat → List PlanSegment → List Char
  | _, [] => []
  | place, .literal text :: rest => text.toList ++ textFrom (place + 1) rest
  | place, .capture _ _ :: rest => (assigned place).token ++ textFrom (place + 1) rest

/-- The values of the captures with a slot, in the order of the segments. -/
def outputsFrom : Nat → List PlanSegment → List (Nat × Value)
  | _, [] => []
  | place, .literal _ :: rest => outputsFrom (place + 1) rest
  | place, .capture slot _ :: rest =>
      (slot.map fun slot => (slot, assigned place)).toList ++ outputsFrom (place + 1) rest

variable {assigned}

theorem endsWord_textFrom {rest : List PlanSegment} (ends : EndsToken rest) (place : Nat) :
    EndsWord (textFrom assigned place rest) := by
  match rest with
  | [] => simp [EndsWord, textFrom]
  | .literal text :: rest =>
      obtain ⟨solid, ends⟩ := ends
      obtain ⟨c, more, standing⟩ := List.exists_cons_of_ne_nil solid
      simpa [EndsWord, textFrom, standing] using ends

theorem mem_outputsFrom {rest : List PlanSegment} {place offset slot rule : Nat}
    (standing : rest[offset]? = some (.capture (some slot) rule)) :
    (slot, assigned (place + offset)) ∈ outputsFrom assigned place rest := by
  induction rest generalizing place offset with
  | nil => simp at standing
  | cons segment rest ih =>
      cases offset with
      | zero =>
          obtain rfl : segment = .capture (some slot) rule := by simpa using standing
          simp [outputsFrom]
      | succ offset =>
          have later := @ih (place + 1) offset (by simpa using standing)
          rw [Nat.add_right_comm, Nat.add_assoc] at later
          cases segment with
          | literal text => exact later
          | capture slot rule => exact List.mem_append_right _ later

theorem slots_outputsFrom (rest : List PlanSegment) (place : Nat) :
    (outputsFrom assigned place rest).map Prod.fst =
      (rest.filterMap fun
        | .literal _ => none
        | .capture slot rule => some (slot, rule)).filterMap Prod.fst := by
  induction rest generalizing place with
  | nil => rfl
  | cons segment rest ih =>
      cases segment with
      | literal text => simpa [outputsFrom] using ih (place + 1)
      | capture slot rule => cases slot <;> simpa [outputsFrom] using ih (place + 1)

end Segments

namespace Whole

theorem behind_of_standing {stream : Stream} {text more : List Char}
    (standing : stream.remaining = Utf8.encode (text ++ more)) :
    behind stream text = ⟨Utf8.encode more, stream.offset + (Utf8.encode text).length⟩ := by
  simp [behind, standing]

theorem matchRemaining_of_standing {stream : Stream} {literal : String} {text more : List Char}
    (standing : stream.remaining = Utf8.encode (text ++ more)) :
    matchRemaining literal text stream =
      .ok ((), ⟨Utf8.encode more, stream.offset + (Utf8.encode text).length⟩) := by
  rw [← behind_of_standing standing]
  unfold matchRemaining
  rw [standing, Text.Utf8.decode_encode]
  simp

theorem matchPattern_of_matched {matcher : Matcher} {pattern : String} {stream : Stream}
    {word more : List Char} (standing : stream.remaining = Utf8.encode (word ++ more))
    (matched : matcher (word ++ more) = .matched word.length) :
    matchPattern matcher pattern stream =
      .ok (word, ⟨Utf8.encode more, stream.offset + (Utf8.encode word).length⟩) := by
  rw [← behind_of_standing standing]
  unfold matchPattern
  rw [standing, Text.Utf8.decode_encode]
  simp [matched]

variable {compiled : CompiledPlan}

theorem runSegments_cons_of_ok {segment : PlanSegment} {rest : List PlanSegment}
    {stream middle last : Stream} {first others : List (Nat × Value)}
    (here : runSegment compiled segment stream = .ok (first, middle))
    (later : runSegments compiled rest middle = .ok (others, last)) :
    runSegments compiled (segment :: rest) stream = .ok (first ++ others, last) := by
  simp [runSegments, bind, here, later, value]

theorem runSegment_literal_of_standing {stream : Stream} {text : String} {more : List Char}
    (standing : stream.remaining = Utf8.encode (text.toList ++ more)) :
    runSegment compiled (.literal text) stream =
      .ok ([], ⟨Utf8.encode more, stream.offset + (Utf8.encode text.toList).length⟩) := by
  simp [runSegment, bind, matchRemaining_of_standing standing, value]

theorem runSegment_capture_of_readsBack {slot : Option Nat} {rule : Nat} {stream : Stream}
    {type : ScanType} {pattern : Pattern} {written : Value} {more : List Char}
    (found : compiled.plan.rules[rule]? = some (.default type))
    (matcher : compiled.matcher rule = pattern.run)
    (readsBack : type.ReadsBack written pattern) (ends : EndsWord more)
    (standing : stream.remaining = Utf8.encode (written.token ++ more)) :
    runSegment compiled (.capture slot rule) stream =
      .ok ((slot.map fun slot => (slot, written)).toList,
        ⟨Utf8.encode more, stream.offset + (Utf8.encode written.token).length⟩) := by
  have matched : compiled.matcher rule (written.token ++ more) =
      .matched written.token.length := by
    rw [matcher, readsBack.matches_token more ends]
  have converted : convert (.default type) written.token = value (some written) := by
    simp [convert, Rule.type?, readsBack.converts]
  simp only [runSegment, found, bind, matchPattern_of_matched standing matched, converted, value]
  cases slot <;> rfl

/-- Written segments are scanned back, and nothing remains. -/
theorem runSegments_of_written {assigned : Nat → Value} {rest : List PlanSegment} {place : Nat}
    {stream : Stream} (separated : Separated rest)
    (reads : ∀ offset slot rule, rest[offset]? = some (.capture slot rule) →
      ∃ type pattern, compiled.plan.rules[rule]? = some (.default type) ∧
        compiled.matcher rule = pattern.run ∧
          type.ReadsBack (assigned (place + offset)) pattern)
    (standing : stream.remaining = Utf8.encode (textFrom assigned place rest)) :
    runSegments compiled rest stream =
      .ok (outputsFrom assigned place rest,
        ⟨[], stream.offset + (Utf8.encode (textFrom assigned place rest)).length⟩) := by
  induction rest generalizing place stream with
  | nil =>
      obtain ⟨remaining, offset⟩ := stream
      obtain rfl : remaining = [] := standing
      rfl
  | cons segment rest ih =>
      have later : ∀ offset slot rule, rest[offset]? = some (.capture slot rule) →
          ∃ type pattern, compiled.plan.rules[rule]? = some (.default type) ∧
            compiled.matcher rule = pattern.run ∧
              type.ReadsBack (assigned (place + 1 + offset)) pattern := by
        intro offset slot rule found
        have here := reads (offset + 1) slot rule (by simpa using found)
        rwa [Nat.add_comm offset, ← Nat.add_assoc] at here
      let behind (text : List Char) : Stream :=
        ⟨Utf8.encode (textFrom assigned (place + 1) rest),
          stream.offset + (Utf8.encode text).length⟩
      cases segment with
      | literal text =>
          have others := @ih (place + 1) (behind text.toList) separated later rfl
          rw [runSegments_cons_of_ok (runSegment_literal_of_standing standing) others]
          simp [behind, outputsFrom, textFrom, Nat.add_assoc]
      | capture slot rule =>
          obtain ⟨ends, separated⟩ := separated
          obtain ⟨type, pattern, found, matcher, readsBack⟩ := reads 0 slot rule (by simp)
          have others := @ih (place + 1) (behind (assigned place).token) separated later rfl
          rw [runSegments_cons_of_ok (runSegment_capture_of_readsBack found matcher readsBack
            (endsWord_textFrom ends (place + 1)) standing) others]
          simp [behind, outputsFrom, textFrom, Nat.add_assoc]

/-- A whole written plan is scanned back into its slots. -/
theorem run_of_written {assigned : Nat → Value} {stream : Stream}
    (slotted : compiled.plan.WellSlotted) (separated : Separated compiled.plan.segments)
    (reads : ∀ place slot rule, compiled.plan.segments[place]? = some (.capture slot rule) →
      ∃ type pattern, compiled.plan.rules[rule]? = some (.default type) ∧
        compiled.matcher rule = pattern.run ∧ type.ReadsBack (assigned place) pattern)
    (standing : stream.remaining = Utf8.encode (textFrom assigned 0 compiled.plan.segments)) :
    ∃ values, run compiled stream = .ok (values, ⟨[], stream.offset + stream.remaining.length⟩) ∧
      values.length = compiled.plan.arity ∧
        ∀ place slot rule, compiled.plan.segments[place]? = some (.capture (some slot) rule) →
          values[slot]? = some (assigned place) := by
  have ran := runSegments_of_written separated (by simpa using reads) standing
  have taken : (outputsFrom assigned 0 compiled.plan.segments).map Prod.fst =
      compiled.plan.slots := slots_outputsFrom _ _
  have count : (outputsFrom assigned 0 compiled.plan.segments).length =
      compiled.plan.slots.length := by
    rw [← taken, List.length_map]
  have nodup := slotted.nodup
  have initial := slotted.initial
  rw [← taken] at nodup initial
  rw [List.length_map] at initial
  obtain ⟨length, entries⟩ := Scan.bySlot_getElem? nodup initial
  refine ⟨Scan.bySlot (outputsFrom assigned 0 compiled.plan.segments), ?_, ?_, ?_⟩
  · rw [run, bind, ran, standing]
    rfl
  · rw [length, count, slotted.arity_eq]
  · intro place slot rule found
    have member := @mem_outputsFrom assigned _ 0 place slot rule found
    rw [Nat.zero_add] at member
    exact entries slot _ member

end Whole

/-! ## Plans -/

namespace Plan

/-- The text that a plan describes when values are assigned to the places of its captures. -/
def textOf (plan : Plan) (assigned : Nat → Value) : List Char :=
  textFrom assigned 0 plan.segments

/-- Every capture is assigned a value that the type of its rule can write. -/
def Assigns (plan : Plan) (assigned : Nat → Value) : Prop :=
  ∀ (place rule : Nat) (slot : Option Nat) (type : ScanType),
    plan.segments[place]? = some (.capture slot rule) → plan.rules[rule]? = some (.default type) →
      type.Writes (assigned place)

/-- Every rule of the plan is the default rule of a type whose values are written as words. -/
def OfWritten (plan : Plan) : Prop :=
  ∀ rule ∈ plan.rules, ∃ type ∈ ScanType.written, rule = .default type

theorem OfWritten.ofTokens {plan : Plan} (ofWritten : plan.OfWritten) : plan.OfTokens := by
  intro rule member
  obtain ⟨type, written, rfl⟩ := ofWritten rule member
  exact ⟨type, ScanType.mem_tokens_of_mem_written written, rfl⟩

theorem OfWritten.exists_readsBack {plan : Plan} (ofWritten : plan.OfWritten)
    {assigned : Nat → Value} (assigns : plan.Assigns assigned) {place rule : Nat}
    {slot : Option Nat} (standing : plan.segments[place]? = some (.capture slot rule))
    (below : rule < plan.rules.length) :
    ∃ type pattern, plan.rules[rule]? = some (.default type) ∧
      type.ReadsBack (assigned place) pattern := by
  obtain ⟨type, written, given⟩ := ofWritten _ (List.getElem_mem below)
  have found : plan.rules[rule]? = some (.default type) := by
    rw [List.getElem?_eq_getElem below, given]
  obtain ⟨pattern, readsBack⟩ :=
    ScanType.exists_readsBack written (assigns place rule slot type standing found)
  exact ⟨type, pattern, found, readsBack⟩

end Plan

/-- Scanning undoes writing: over the text of values assigned to the captures of a bound plan,
whose types can write them and whose captures are separated, a run succeeds however the text is
cut, yields the value of every slot at its place and no more, and consumes all of the text. -/
theorem execute_of_written {segments : List Segment} {rules : RuleList} {template : String}
    {plan : Plan} (bound : Plan.bind segments rules template = .ok plan)
    (ofWritten : plan.OfWritten) (separated : Separated plan.segments) {assigned : Nat → Value}
    (assigns : plan.Assigns assigned) {chunks : List (List UInt8)}
    (cuts : Cuts (Utf8.encode (plan.textOf assigned)) chunks) :
    ∃ values after, Scan.outcome (Scan.execute plan.compile) (.ofChunks chunks) =
        (.ok values, after) ∧
      values.length = plan.arity ∧
        (∀ place slot rule, plan.segments[place]? = some (.capture (some slot) rule) →
          values[slot]? = some (assigned place)) ∧
          after.remaining = [] ∧ after.consumed = (Utf8.encode (plan.textOf assigned)).length := by
  have slotted := Plan.wellSlotted_of_bind bound
  obtain ⟨compiled, compiles, rfl, conclusive, matchers⟩ := ofWritten.ofTokens.compile
  have standing := Reader.remaining_ofChunks cuts
  have reads : ∀ place slot rule, compiled.plan.segments[place]? = some (.capture slot rule) →
      ∃ (type : ScanType) (pattern : Pattern),
        compiled.plan.rules[rule]? = some (Rule.default type) ∧
          compiled.matcher rule = pattern.run ∧ type.ReadsBack (assigned place) pattern := by
    intro place slot rule found
    have below := slotted.rule_lt slot rule (List.mem_of_getElem? found)
    obtain ⟨type, pattern, given, readsBack⟩ := ofWritten.exists_readsBack assigns found below
    exact ⟨type, pattern, given, matchers rule _ pattern given readsBack.readsAs, readsBack⟩
  have front : (Reader.ofChunks chunks).stream.remaining =
      Utf8.encode (textFrom assigned 0 compiled.plan.segments) := standing
  obtain ⟨values, whole, length, entries⟩ := Whole.run_of_written slotted separated reads front
  have came := Whole.agrees_run conclusive _ (Reader.flowing_ofChunks cuts)
  simp only [whole] at came
  obtain ⟨after, done, _, stream⟩ := came
  refine ⟨values, after, by rw [compiles]; exact done, length, entries,
    congrArg Stream.remaining stream, ?_⟩
  have offset := congrArg Stream.offset stream
  rw [Reader.stream, Reader.stream, standing] at offset
  exact offset.trans (Nat.zero_add _)

/-- A small number into the second slot and a word into the first one, cut in the middle. -/
theorem execute_of_written_number_and_word :
    let plan : Plan :=
      ⟨[.capture (some 1) 0, .literal ":", .capture (some 0) 1],
        [.default (.ofIntegers "i8" true (some 8) false), .default .string], 2, ""⟩
    let assigned : Nat → Value := fun place => if place = 0 then .int (-5) else .text "ab"
    ∃ values after, Scan.outcome (Scan.execute plan.compile)
        (.ofChunks [[0x2D], [0x35, 0x3A, 0x61], [0x62]]) = (.ok values, after) ∧
      values.length = plan.arity ∧
        (∀ place slot rule, plan.segments[place]? = some (.capture (some slot) rule) →
          values[slot]? = some (assigned place)) ∧
          after.remaining = [] ∧
            after.consumed = (Utf8.encode (plan.textOf assigned)).length := by
  have placed : Binding.placed
      [.capture ⟨.number 1, .next⟩ 0, .literal ":", .capture ⟨.number 0, .next⟩ 6] =
        [⟨0, some 1, .positional 0⟩, ⟨2, some 0, .positional 1⟩] := rfl
  have slots : Binding.slots
      [.capture ⟨.number 1, .next⟩ 0, .literal ":", .capture ⟨.number 0, .next⟩ 6] = [1, 0] := rfl
  have fits : Binding.Fits
      [.capture ⟨.number 1, .next⟩ 0, .literal ":", .capture ⟨.number 0, .next⟩ 6]
      { positional := [.default (.ofIntegers "i8" true (some 8) false), .default .string] } := by
    refine ⟨?_, ?_, ?_, ?_, ?_, ?_, ?_⟩
    · simp [placed, Binding.Target.Exists]
    · simp [slots]
    · intro slot
      simp [slots]
      omega
    · simp [RuleList.names]
    · simp [placed, RuleList.flattened, Binding.Target.index]
      omega
    · simp [placed, RuleList.flattened, Binding.Target.index]
    · simp [RuleList.flattened]
      decide
  have bound : Plan.bind
      [.capture ⟨.number 1, .next⟩ 0, .literal ":", .capture ⟨.number 0, .next⟩ 6]
      { positional := [.default (.ofIntegers "i8" true (some 8) false), .default .string] } "" =
        .ok ⟨[.capture (some 1) 0, .literal ":", .capture (some 0) 1],
          [.default (.ofIntegers "i8" true (some 8) false), .default .string], 2, ""⟩ :=
    Binding.bind_of_fits fits ""
  refine execute_of_written bound ?_ ⟨⟨by decide, by simp [EndsWord]; decide⟩, trivial, trivial⟩ ?_
    ⟨by decide, by rfl⟩
  · intro rule member
    rcases List.mem_pair.mp member with rfl | rfl
    · exact ⟨_, by decide, rfl⟩
    · exact ⟨_, by decide, rfl⟩
  · intro place rule slot type standing found
    rcases place with _ | _ | _ | place
    · obtain ⟨rfl, rfl⟩ : some 1 = slot ∧ 0 = rule := by simpa using standing
      obtain rfl : ScanType.ofIntegers "i8" true (some 8) false = type := by simpa using found
      refine ⟨⟨?_, ?_, by simp⟩, by decide⟩
      · rintro least ⟨⟩
        decide
      · rintro greatest ⟨⟩
        decide
    · simp at standing
    · obtain ⟨rfl, rfl⟩ : some 0 = slot ∧ 1 = rule := by simpa using standing
      obtain rfl : ScanType.string = type := by simpa using found
      have letters : "ab".toList.all isWord = true := by decide
      exact ⟨by decide, List.all_eq_true.mp letters⟩
    · simp at standing

end Unformat
