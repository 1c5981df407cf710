import Unformat.Plan.Build
import Unformat.Proofs.Input.Chunks
import Unformat.Proofs.Pattern.OpenAddress
import Unformat.Proofs.Pattern.RealNumber
import Unformat.Proofs.Plan.Compiling
import Unformat.Proofs.Plan.Fitting
import Unformat.Proofs.Scan.Whole

/-!
# Reads that end inside a token

Fractions and addresses have parts that may be left out.  A match of the text at hand may then stop
short of its end although more text would lengthen it, and no more is read.  So the chunks in which
such a token arrives do make a difference: the token is seen whole exactly when no read ends where
the token is open.
-/

namespace Unformat

open Pattern
open Text (Utf8.decode Utf8.encode)

/-! ## Templates of one capture -/

/-- The plan of a template that is one capture with the default rule of a type. -/
def Plan.single (type : ScanType) : Plan :=
  ⟨[.capture (some 0) 0], [.default type], 1, "\x7b\x7d"⟩

theorem fits_single {type : ScanType} (hasDefault : type.hasDefault) :
    Binding.Fits [.capture ⟨.next, .next⟩ 0] { positional := [.default type] } := by
  have captures : Binding.placed [.capture ⟨.next, .next⟩ 0] = [⟨0, some 0, .positional 0⟩] := rfl
  have slots : Binding.slots [.capture ⟨.next, .next⟩ 0] = [0] := rfl
  refine ⟨?_, ?_, ?_, ?_, ?_, ?_, ?_⟩
  · simp [captures, Binding.Target.Exists]
  · simp [slots]
  · simp [slots]
  · simp [RuleList.names]
  · simp [captures, RuleList.flattened, Binding.Target.index]
  · simp [captures, RuleList.flattened, Binding.Target.index]
  · simp [RuleList.flattened, hasDefault]

theorem pieces_single :
    Template.pieces 0 "\x7b\x7d".toList = .ok [.capture ⟨.next, .next⟩ 0] := by
  have capture : Template.readCapture 0 ['\x7d'] = .ok (⟨.next, .next⟩, []) := rfl
  have text : "\x7b\x7d".toList = ['\x7b', '\x7d'] := rfl
  rw [text, Template.pieces, capture]
  · simp [Template.pieces, Except.map]
  · simp

theorem build_single {type : ScanType} (hasDefault : type.hasDefault) :
    Plan.build "\x7b\x7d" { positional := [.default type] } = .ok (.single type) := by
  have reads : Template.read "\x7b\x7d" = .ok [.capture ⟨.next, .next⟩ 0] := by
    rw [Template.read, Template.parse, pieces_single]
    rfl
  have binds := Binding.bind_of_fits (fits_single hasDefault) "\x7b\x7d"
  rw [Plan.build, reads]
  simp only [bind, Except.bind, Plan.link, binds, Except.mapError]
  rfl

namespace Scan

/-- The value of a token, once it is matched. -/
def valueOf (type : ScanType) (matched : List Char) : Except Stop (List Value) :=
  match type.conversion.apply matched with
  | .ok value => .ok [value]
  | .error reason => .error (.fault (.of (.unconvertible (String.ofList matched) type.name reason)))

theorem compile_single {type : ScanType} {source : String} {pattern : Pattern}
    (given : type.defaultPattern = some source) (reads : Pattern.compile source = .ok pattern) :
    (Plan.single type).compile = .ok ⟨.single type, [pattern.run]⟩ := by
  have matched : List.Forall₂ Plan.MatchedBy [.default type] [pattern.run] := by
    refine .cons (Plan.ReadsAs.matchedBy ?_) .nil
    rw [Plan.ReadsAs, Rule.pattern?, given]
    exact reads
  rw [Plan.compile, Plan.single, Plan.compileRules_eq_ok_iff.mpr matched]
  rfl

/-- A run of a plan of one capture takes what its pattern matches and converts it. -/
theorem outcome_execute_single {type : ScanType} {source : String} {pattern : Pattern}
    (given : type.defaultPattern = some source) (reads : Pattern.compile source = .ok pattern)
    {reader after : Reader} {matched : List Char}
    (taken : outcome (matchPattern pattern.run source) reader = (.ok matched, after)) :
    outcome (execute (Plan.single type).compile) reader = (valueOf type matched, after) := by
  rw [compile_single given reads]
  simp only [execute, run, Plan.single, runSegments, runSegment, List.getElem?_cons_zero,
    CompiledPlan.matcher, Option.getD_some, Rule.pattern?, given, bind_assoc, pure_bind]
  rw [outcome_bind_of_ok taken]
  unfold convert valueOf
  simp only [Rule.type?]
  cases type.conversion.apply matched with
  | ok value => simp [bySlot]
  | error reason => rfl

/-! ## What is taken from chunks -/

/-- The text that the first chunks spell. -/
def shownBy (chunks : List (List UInt8)) (count : Nat) : List Char :=
  (Utf8.decode (chunks.take count).flatten).1

theorem shownAfter_ofChunks (chunks : List (List UInt8)) (count : Nat) :
    shownAfter (.ofChunks chunks) count = shownBy chunks count := by
  rw [shownAfter, Reader.bufferAfter_ofChunks, shownBy]

theorem length_encode_lt {part text : List Char} (here : part <+: text) (other : part ≠ text) :
    (Utf8.encode part).length < (Utf8.encode text).length := by
  obtain ⟨rest, rfl⟩ := here
  have solid : rest ≠ [] := by
    intro same
    subst same
    simp at other
  have positive := List.length_pos_iff.mpr (Text.Utf8.encode_eq_nil_iff.not.mpr solid)
  rw [Text.Utf8.encode_append, List.length_append]
  omega

theorem shownBy_prefix (chunks : List (List UInt8)) {count more : Nat} (before : count ≤ more) :
    shownBy chunks count <+: shownBy chunks more := by
  have split : (chunks.take more).flatten =
      (chunks.take count).flatten ++ ((chunks.drop count).take (more - count)).flatten := by
    rw [← List.flatten_append, ← List.take_add, Nat.add_sub_cancel' before]
  rw [shownBy, shownBy, split]
  exact Text.Utf8.decode_append_prefix _ _

theorem shownBy_of_le {text : List Char} {chunks : List (List UInt8)}
    (cuts : Cuts (Utf8.encode text) chunks) {count : Nat} (all : chunks.length ≤ count) :
    shownBy chunks count = text := by
  rw [shownBy, List.take_of_length_le all, cuts.flatten_eq, Text.Utf8.decode_encode]

theorem shownBy_prefix_text {text : List Char} {chunks : List (List UInt8)}
    (cuts : Cuts (Utf8.encode text) chunks) (count : Nat) : shownBy chunks count <+: text := by
  have later := shownBy_prefix chunks (Nat.le_add_right count chunks.length)
  rwa [shownBy_of_le cuts (Nat.le_add_left _ _)] at later

theorem not_stopsShort_of_matchesAll {pattern : Pattern} {text : List Char}
    (all : MatchesAll pattern text) : ¬ StopsShort pattern text := by
  intro stopsShort
  obtain ⟨length, less, matched⟩ := stopsShort
  obtain rfl := Verdict.matched.inj (matched.symm.trans all)
  exact Nat.lt_irrefl _ less

section Chunks

variable {pattern : Pattern} {text : List Char} {chunks : List (List UInt8)}

/-- After some attempts at a pattern that matches the whole text, that text is shown, or a match
stops short. -/
theorem Attempts.cases (plain : pattern.plain) (all : MatchesAll pattern text) {reader : Reader}
    (whole : wholeText reader = text) {count : Nat} (attempts : Attempts pattern.run reader count) :
    shownAfter reader count = text ∨ StopsShort pattern (shownAfter reader count) := by
  obtain ⟨more, split⟩ := shownAfter_prefix reader count
  rw [whole] at split
  rcases attempts.final with satisfied | complete
  · right
    cases verdict : pattern.run (shownAfter reader count) with
    | matched length =>
        have within := (describes_of_run_eq_matched plain verdict).2
        have other : length ≠ (shownAfter reader count).length := by
          simpa [verdict, wantsMore] using satisfied
        exact ⟨length, by omega, verdict⟩
    | starved => simp [verdict, wantsMore] at satisfied
    | failed =>
        have failed := run_append_of_failed plain verdict more
        rw [split, all] at failed
        cases failed
  · exact .inl (complete.trans whole)

/-- Attempts that come to the whole token have not stopped short on the way. -/
theorem Attempts.not_stopsShort (all : MatchesAll pattern text)
    (cuts : Cuts (Utf8.encode text) chunks) {count : Nat}
    (attempts : Attempts pattern.run (.ofChunks chunks) count)
    (reached : shownBy chunks count = text) (index : Nat) :
    ¬ StopsShort pattern (shownBy chunks index) := by
  intro short
  by_cases early : index < count
  · obtain ⟨length, less, matched⟩ := short
    have wanting := attempts.wanting index early
    rw [shownAfter_ofChunks, matched] at wanting
    rcases wanting with empty | wanting
    · simp [empty] at less
    · have reaches : length = (shownBy chunks index).length := by
        simpa [wantsMore] using wanting
      omega
  · have later := shownBy_prefix chunks (Nat.not_lt.mp early)
    rw [reached] at later
    rw [(shownBy_prefix_text cuts index).eq_of_length_le later.length_le] at short
    exact not_stopsShort_of_matchesAll all short

/-- A token is taken whole where no match on the way stops short; where one does, less is taken. -/
theorem outcome_matchPattern_of_chunks (plain : pattern.plain) (all : MatchesAll pattern text)
    (cuts : Cuts (Utf8.encode text) chunks) (source : String) :
    ∃ taken after,
      outcome (matchPattern pattern.run source) (.ofChunks chunks) = (.ok taken, after) ∧
        after.consumed = (Utf8.encode taken).length ∧
          ((∀ count < chunks.length, ¬ StopsShort pattern (shownBy chunks count)) → taken = text) ∧
            ((∃ count < chunks.length, StopsShort pattern (shownBy chunks count)) →
              (Utf8.encode taken).length < (Utf8.encode text).length) := by
  have flowing := Reader.flowing_ofChunks cuts
  have whole : wholeText (.ofChunks chunks) = text := by
    rw [wholeText, Reader.remaining_ofChunks cuts, Text.Utf8.decode_encode]
  have offset {after : Reader} {taken : List Char}
      (stream : after.stream = Whole.behind (Reader.ofChunks chunks).stream taken) :
      after.consumed = (Utf8.encode taken).length :=
    (congrArg Stream.offset stream).trans (Nat.zero_add _)
  rcases Whole.outcome_matchPattern pattern.run source flowing with
    ⟨_, offending, malformed, _⟩ | ⟨count, attempts, _, came⟩
  · rw [Reader.remaining_ofChunks cuts, Text.Utf8.decode_encode] at malformed
    simp at malformed
  have within := shownAfter_prefix (.ofChunks chunks) count
  rw [whole, shownAfter_ofChunks] at within
  rcases attempts.cases plain all whole with same | ⟨length, less, matched⟩
  · rw [same, all] at came
    obtain ⟨after, _, stream, done⟩ := came
    rw [List.take_length] at stream done
    refine ⟨text, after, done, offset stream, fun _ => rfl, ?_⟩
    intro given
    obtain ⟨index, _, short⟩ := given
    rw [shownAfter_ofChunks] at same
    exact (attempts.not_stopsShort all cuts same index short).elim
  · rw [matched] at came
    obtain ⟨after, _, stream, done⟩ := came
    rw [shownAfter_ofChunks] at less matched stream done
    refine ⟨_, after, done, offset stream, ?_, ?_⟩
    · intro never
      exfalso
      by_cases early : count < chunks.length
      · exact never count early ⟨length, less, matched⟩
      · rw [shownBy_of_le cuts (Nat.not_lt.mp early)] at less matched
        exact not_stopsShort_of_matchesAll all ⟨length, less, matched⟩
    · intro _
      refine length_encode_lt ((List.take_prefix _ _).trans within) ?_
      intro same
      have bound := within.length_le
      rw [← same, List.length_take] at bound
      omega

end Chunks

end Scan

/-! ## Where the reads may not end -/

/-- The types whose default patterns have parts that may be left out. -/
inductive Structured where
  | number
  | ipv6
  | address
  deriving Repr, DecidableEq

namespace Structured

def type : Structured → ScanType
  | .number => .real
  | .ipv6 => .ipv6
  | .address => .address

def source : Structured → String
  | .number => DefaultPattern.real
  | .ipv6 => DefaultPattern.ipv6
  | .address => DefaultPattern.address

def pattern : Structured → Pattern
  | .number => DefaultPattern.number
  | .ipv6 => DefaultPattern.addressForms false
  | .address => DefaultPattern.addressForms true

/-- A token is open behind a text: it begins with a whole token and is not one itself. -/
def Open : Structured → List Char → Prop
  | .number => DefaultPattern.OpenExponent
  | .ipv6 | .address => DefaultPattern.OpenAddress

variable (kind : Structured)

theorem hasDefault : kind.type.hasDefault = true := by
  cases kind <;> rfl

theorem defaultPattern_eq : kind.type.defaultPattern = some kind.source := by
  cases kind <;> rfl

theorem compile_source : Pattern.compile kind.source = .ok kind.pattern := by
  cases kind with
  | number => exact DefaultPattern.compile_real
  | ipv6 => exact DefaultPattern.compile_ipv6
  | address => exact DefaultPattern.compile_address

theorem plain_pattern : kind.pattern.plain := by
  cases kind <;> rfl

variable {kind}

theorem stopsShort_iff {text shown : List Char} (all : MatchesAll kind.pattern text)
    (part : shown <+: text) : StopsShort kind.pattern shown ↔ kind.Open shown := by
  have described := all.describes kind.plain_pattern
  cases kind with
  | number => exact DefaultPattern.stopsShort_number_iff all part
  | ipv6 => exact DefaultPattern.stopsShort_addressForms_iff described part
  | address => exact DefaultPattern.stopsShort_addressForms_iff described part

theorem ne_nil_of_matchesAll {text : List Char} (all : MatchesAll kind.pattern text) :
    text ≠ [] := by
  intro same
  subst same
  have described := all.describes kind.plain_pattern
  cases kind with
  | number => exact DefaultPattern.not_describes_number_nil described
  | ipv6 => exact DefaultPattern.not_describes_addressForms_nil described
  | address => exact DefaultPattern.not_describes_addressForms_nil described

end Structured

open Scan (outcome execute shownBy)

theorem compile_single (kind : Structured) :
    (Plan.single kind.type).compile = .ok ⟨.single kind.type, [kind.pattern.run]⟩ :=
  Scan.compile_single kind.defaultPattern_eq kind.compile_source

/-- A token that is matched as a whole when it arrives in one chunk gives the same value and
consumes as many bytes in other chunks exactly when no chunk ends where the token is open: inside
the exponent of a number before its first digit; in an address with more than eight groups, or with
a gap and behind it a single colon or a dot, before the last group of a dotted tail has begun. -/
theorem outcome_whole_iff (kind : Structured) {plan : Plan} {compiled : CompiledPlan}
    (built : Plan.build "\x7b\x7d" { positional := [.default kind.type] } = .ok plan)
    (compiles : plan.compile = .ok compiled) {text : List Char}
    (whole : compiled.matcher 0 text = .matched text.length) {chunks : List (List UInt8)}
    (cuts : Cuts (Utf8.encode text) chunks) :
    (let one := outcome (execute plan.compile) (.ofChunks [Utf8.encode text])
     let other := outcome (execute plan.compile) (.ofChunks chunks)
     other.1 = one.1 ∧ other.2.consumed = one.2.consumed) ↔
    ∀ count < chunks.length, ¬ kind.Open (shownBy chunks count) := by
  obtain rfl : Plan.single kind.type = plan :=
    Except.ok.inj ((build_single kind.hasDefault).symm.trans built)
  obtain rfl : _ = compiled := Except.ok.inj ((compile_single kind).symm.trans compiles)
  have all : MatchesAll kind.pattern text := whole
  have shortIff (count : Nat) : StopsShort kind.pattern (shownBy chunks count) ↔
      kind.Open (shownBy chunks count) :=
    Structured.stopsShort_iff all (Scan.shownBy_prefix_text cuts count)
  have oneCuts : Cuts (Utf8.encode text) [Utf8.encode text] := by
    refine ⟨?_, by simp⟩
    simpa [Text.Utf8.encode_eq_nil_iff] using Structured.ne_nil_of_matchesAll all
  obtain ⟨oneTaken, oneAfter, oneDone, oneConsumed, oneWhole, _⟩ :=
    Scan.outcome_matchPattern_of_chunks kind.plain_pattern all oneCuts kind.source
  obtain ⟨taken, after, done, consumed, seenWhole, cutShort⟩ :=
    Scan.outcome_matchPattern_of_chunks kind.plain_pattern all cuts kind.source
  obtain rfl : oneTaken = text := by
    apply oneWhole
    intro count bound
    obtain rfl : count = 0 := by simpa using bound
    intro given
    obtain ⟨length, less, _⟩ := given
    simp [shownBy] at less
  rw [Scan.outcome_execute_single kind.defaultPattern_eq kind.compile_source oneDone,
    Scan.outcome_execute_single kind.defaultPattern_eq kind.compile_source done]
  constructor
  · rintro ⟨_, sameConsumed⟩ count bound isOpen
    have fewer := cutShort ⟨count, bound, (shortIff count).mpr isOpen⟩
    simp only at sameConsumed
    omega
  · intro never
    obtain rfl := seenWhole fun count bound => mt (shortIff count).mp (never count bound)
    exact ⟨rfl, consumed.trans oneConsumed.symm⟩

/-- A number whose chunks do not end inside its exponent. -/
theorem outcome_whole_iff_exponent :
    let chunks : List (List UInt8) := [[0x31], [0x65, 0x35]]
    (let one := outcome (execute (Plan.single .real).compile) (.ofChunks [Utf8.encode ['1', 'e', '5']])
     let other := outcome (execute (Plan.single .real).compile) (.ofChunks chunks)
     other.1 = one.1 ∧ other.2.consumed = one.2.consumed) ↔
    ∀ count < chunks.length, ¬ Structured.number.Open (shownBy chunks count) := by
  have whole : DefaultPattern.number.run ['1', 'e', '5'] = .matched 3 := by decide +kernel
  exact outcome_whole_iff .number (build_single rfl) (compile_single .number) whole
    ⟨by decide, by decide +kernel⟩

/-- A number cut behind the letter of its exponent is taken for the number before the letter. -/
theorem exponent_cut_off :
    let text := ['1', 'e', '5']
    let chunks : List (List UInt8) := [[0x31, 0x65], [0x35]]
    let one := outcome (execute (Plan.single .real).compile) (.ofChunks [Utf8.encode text])
    let other := outcome (execute (Plan.single .real).compile) (.ofChunks chunks)
    Plan.build "\x7b\x7d" { positional := [.default .real] } = .ok (.single .real) ∧
      (∃ compiled, (Plan.single .real).compile = .ok compiled ∧
        compiled.matcher 0 text = .matched text.length) ∧
      Cuts (Utf8.encode text) chunks ∧
      one.1 = .ok [.real (.finite false 6871947673600000 (-36))] ∧ one.2.consumed = 3 ∧
      other.1 = .ok [.real (.finite false 4503599627370496 (-52))] ∧ other.2.consumed = 1 := by
  have compiles : (Plan.single .real).compile = .ok ⟨.single .real, [DefaultPattern.number.run]⟩ :=
    compile_single .number
  refine ⟨build_single rfl, ⟨_, compiles, by decide +kernel⟩, ⟨by decide, by decide +kernel⟩, ?_⟩
  rw [compiles]
  decide +kernel

end Unformat
