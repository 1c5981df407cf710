import Unformat.Proofs.Scan.Interrupted
import Unformat.Proofs.Scan.LineContent
import Unformat.Proofs.Scan.LineCuts
import Unformat.Proofs.Scan.Slots
import Unformat.Proofs.Text.Quoted

/-!
# Lines that end in a line feed, with a carriage return before it or without

Over lines that arrive in one chunk, a plan of default rules comes to the same whether they end in a
line feed or in a carriage return and a line feed, except that on an empty line a single character
may be the carriage return.
-/

namespace Unformat

open Scan (Suited NothingShown aloneOutcome outcome agreesOnLine_runSegment)
open Text (Utf8.decode Utf8.encode)

/-! ## Lines with some content -/

theorem decode_eq_nil_iff {bytes : List UInt8} : Utf8.decode bytes = ([], .empty) ↔ bytes = [] := by
  constructor
  · intro decoded
    cases found : Text.Utf8.front bytes with
    | empty => exact Text.Utf8.front_eq_empty_iff.mp found
    | scalar c size => simp [Text.Utf8.decode_of_front_scalar found] at decoded
    | incomplete => simp [Text.Utf8.decode_of_front_incomplete found] at decoded
    | malformed size => simp [Text.Utf8.decode_of_front_malformed found] at decoded
  · rintro rfl
    exact Text.Utf8.decode_nil

/-- Behind the text of any bytes, what keeps the ending from being seen is the same for both. -/
theorem exists_unread (content : List UInt8) :
    ∃ text rest, content = Utf8.encode text ++ rest ∧ Unread (· ≠ .none) rest := by
  obtain ⟨rest, split, decoded⟩ := Text.Utf8.exists_of_decode content
  refine ⟨_, rest, split, ?_⟩
  cases remainder : (Utf8.decode content).2 with
  | empty =>
      rw [remainder] at decoded
      exact .inl (decode_eq_nil_iff.mp decoded)
  | malformed offending =>
      rw [remainder] at decoded
      refine .inr ⟨offending, fun ending _ => ?_⟩
      rw [Text.Utf8.decode_append_of_malformed (by rw [decoded]), decoded]
  | incomplete waiting =>
      rw [remainder] at decoded
      obtain ⟨offending, follows⟩ := Text.Utf8.decode_append_of_incomplete decoded
      refine .inr ⟨offending, fun ending some => ?_⟩
      cases ending with
      | none => exact (some rfl).elim
      | lineFeed => exact follows lineFeed [] (by decide)
      | both => exact follows carriageReturn [lineFeed] (by decide)

section Lines

variable {compiled : CompiledPlan} {line otherLine : Line} {chunks others : List (List UInt8)}
  {taken otherTaken : List UInt8} {reader other : Reader}

theorem suited_of_length_le (ofDefaults : compiled.OfDefaults) (few : chunks.length ≤ 1) :
    Suited compiled chunks :=
  ⟨ofDefaults.takes, .inr few⟩

theorem faces_of_gone (offset : Nat) (gone : chunks.flatten = []) :
    Faces (· = .none) offset [] [] (line.stream chunks) :=
  ⟨⟨.none, rfl, gone⟩, fun some => (some rfl).elim⟩

/-- In one chunk, a text in front of an ending takes the ending along, and only then. -/
theorem Faces.of_consumes_in_one {endings : LineEnding → Prop} {offset : Nat} {rest : List UInt8}
    {text front left : List Char} {after : List (List UInt8)} {wanted : List (List UInt8) → Prop}
    (faces : Faces endings offset (front ++ left) rest (line.stream chunks))
    (unbroken : Unbroken (Utf8.encode left ++ rest)) (few : chunks.length ≤ 1)
    (within : chunks.flatten.length ≤ line.bytes.length)
    (behind : Whole.behind (line.stream chunks) front = Whole.behind (line.stream chunks) text)
    (consumes : Consumes wanted chunks text after) :
    if left = [] ∧ rest = [] ∧ front ≠ [] then after.flatten = []
    else Faces endings (offset + (Utf8.encode front).length) left rest (line.stream after) := by
  obtain ⟨rfl, came⟩ := faces.of_consumes unbroken within behind consumes
  split
  · rename_i last
    obtain ⟨rfl, rfl, solid⟩ := last
    obtain ⟨ending, _, remaining⟩ := faces.exists_ending
    have whole : ¬ ending.Parted chunks := LineEnding.not_parted_of_length_le few
    refine (consumes.unparted whole).2 solid ?_
    rw [show chunks.flatten = _ from remaining, List.append_nil, List.nil_append]
  · rename_i more
    rcases came with kept | ⟨rfl, rfl, solid, _⟩
    · exact kept ▸ faces.behind
    · exact (more ⟨rfl, rfl, solid⟩).elim

/-- On two lines of the same content, each in one chunk, segments come to the same. -/
theorem outcome_runSegments_of_endings (ofDefaults : compiled.OfDefaults)
    (withoutBreaks : compiled.plan.WithoutBreaks) {segments : List PlanSegment}
    (within : ∀ segment ∈ segments, segment ∈ compiled.plan.segments)
    {endings : LineEnding → Prop} {offset : Nat} {text : List Char} {rest : List UInt8}
    (unread : Unread endings rest) (unbroken : Unbroken (Utf8.encode text ++ rest))
    (blind : endings .both → text ≠ [] ∨ rest ≠ []) (few : chunks.length ≤ 1)
    (otherFew : others.length ≤ 1) (onLine : OnLine line taken chunks reader)
    (onOther : OnLine otherLine otherTaken others other)
    (faces : Faces endings offset text rest (line.stream chunks))
    (otherFaces : Faces endings offset text rest (otherLine.stream others)) :
    (outcome (Scan.runSegments compiled segments) reader).1 =
      (outcome (Scan.runSegments compiled segments) other).1 := by
  induction segments generalizing endings offset text rest chunks others taken otherTaken reader
    other with
  | nil => rfl
  | cons segment segments ih =>
      have inside := fun segment member => within segment (List.mem_cons_of_mem _ member)
      have agrees : Scan.AgreesOnLine _ line chunks _ _ :=
        agreesOnLine_runSegment (suited_of_length_le ofDefaults few) segment
      have otherAgrees : Scan.AgreesOnLine _ otherLine others _ _ :=
        agreesOnLine_runSegment (suited_of_length_le ofDefaults otherFew) segment
      rw [Scan.runSegments]
      rcases unaware_runSegment ofDefaults withoutBreaks (within segment List.mem_cons_self) unread
        (fun _ _ _ _ => blind) with ⟨value, front, left, rfl, came⟩ | ⟨diagnostic, failed⟩
      · obtain ⟨_, after, _, next, behind, consumes, still, done⟩ :=
          agrees.of_ok onLine (came _ faces)
        obtain ⟨_, otherAfter, _, otherNext, otherBehind, otherConsumes, otherStill, otherDone⟩ :=
          otherAgrees.of_ok onOther (came _ otherFaces)
        rw [Text.Utf8.encode_append, List.append_assoc] at unbroken
        have comes := faces.of_consumes_in_one unbroken.of_append few onLine.length_flatten_le
          behind consumes
        have otherComes := otherFaces.of_consumes_in_one unbroken.of_append otherFew
          onOther.length_flatten_le otherBehind otherConsumes
        have fewer := consumes.length_le_one few
        have otherFewer := otherConsumes.length_le_one otherFew
        rw [Scan.outcome_bind_of_ok done, Scan.outcome_bind_of_ok otherDone,
          Scan.outcome_bind_pure, Scan.outcome_bind_pure]
        refine congrArg _ ?_
        split at comes
        · rename_i last
          rw [if_pos last] at otherComes
          exact ih inside (.inl rfl) ⟨by simp, by simp⟩ (fun both => by cases both) fewer otherFewer
            still otherStill (faces_of_gone 0 comes) (faces_of_gone 0 otherComes)
        · rename_i more
          rw [if_neg more] at otherComes
          refine ih inside unread unbroken.of_append ?_ fewer otherFewer still otherStill comes
            otherComes
          intro both
          by_contra none
          obtain ⟨rfl, rfl⟩ : left = [] ∧ rest = [] := by simpa [not_or] using none
          obtain rfl : front = [] := by
            by_contra solid
            exact more ⟨rfl, rfl, solid⟩
          simpa using blind both
      · obtain ⟨_, stopped⟩ := agrees.of_error onLine (failed _ faces)
        obtain ⟨_, otherStopped⟩ := otherAgrees.of_error onOther (failed _ otherFaces)
        rw [Scan.outcome_bind_of_error stopped, Scan.outcome_bind_of_error otherStopped]

end Lines

/-! ## Lines that arrive in one chunk -/

/-- What a plan comes to over a line that arrives in one chunk. -/
def Scan.lineOutcome (compiled : CompiledPlan) (bytes : List UInt8) :
    Except Scan.Stop (List Value) :=
  (outcome (Scan.execute (.ok compiled)) (Reader.ofChunks [bytes]).byLine).1

theorem Scan.lineOutcome_eq (compiled : CompiledPlan) (bytes : List UInt8) :
    lineOutcome compiled bytes =
      (outcome (runSegments compiled compiled.plan.segments)
        (Reader.ofChunks [bytes]).byLine).1.map bySlot := by
  rw [lineOutcome, execute, run, outcome_bind_pure]

/-- The line of bytes without breaks and an ending behind them. -/
def Line.ended (content : List UInt8) (ending : LineEnding) : Line :=
  .first 0 [content ++ ending.bytes]

theorem onLine_ended {content : List UInt8} (unbroken : Unbroken content) {ending : LineEnding}
    (some : ending ≠ .none) :
    OnLine (.ended content ending) [] [content ++ ending.bytes]
      (Reader.ofChunks [content ++ ending.bytes]).byLine := by
  have solid : ∀ chunk ∈ [content ++ ending.bytes], chunk ≠ [] := by
    cases ending with
    | none => exact (some rfl).elim
    | _ => simp [LineEnding.bytes_lineFeed, LineEnding.bytes_both]
  have whole : lineChunks [content ++ ending.bytes] = [content ++ ending.bytes] := by
    simp [lineChunks, unbroken.firstLine_append]
  have stands := ByteReader.stands_ofChunks solid
  have onLine := OnLine.start stands.steady
  rwa [stands.chunks_eq, stands.consumed_eq, whole] at onLine

theorem faces_ended {endings : LineEnding → Prop} {content rest : List UInt8} {text : List Char}
    (split : content = Utf8.encode text ++ rest) (unbroken : Unbroken content)
    {ending : LineEnding} (given : endings ending) :
    Faces endings 0 text rest
      ((Line.ended content ending).stream [content ++ ending.bytes]) := by
  refine ⟨⟨ending, given, ?_⟩, fun _ => ?_⟩
  · rw [Line.stream, List.flatten_singleton, split, List.append_assoc]
  · simp [Line.stream, Line.ended, Line.first, Line.bytes, flatten_lineChunks,
      unbroken.firstLine_append]

/-- Where there is some content, it does not matter which ending is behind it. -/
theorem Scan.lineOutcome_of_content {compiled : CompiledPlan} (ofDefaults : compiled.OfDefaults)
    (withoutBreaks : compiled.plan.WithoutBreaks) {content : List UInt8}
    (unbroken : Unbroken content) (some : content ≠ []) :
    lineOutcome compiled (content ++ LineEnding.lineFeed.bytes) =
      lineOutcome compiled (content ++ LineEnding.both.bytes) := by
  obtain ⟨text, rest, split, unread⟩ := exists_unread content
  have blind : text ≠ [] ∨ rest ≠ [] := by
    by_contra none
    obtain ⟨rfl, rfl⟩ : text = [] ∧ rest = [] := by simpa [not_or] using none
    exact some split
  have feed : LineEnding.lineFeed ≠ .none := by decide
  have both : LineEnding.both ≠ .none := by decide
  have same := outcome_runSegments_of_endings ofDefaults withoutBreaks (fun _ => id) unread
    (split ▸ unbroken) (fun _ => blind) (by simp) (by simp) (onLine_ended unbroken feed)
    (onLine_ended unbroken both) (faces_ended split unbroken feed) (faces_ended split unbroken both)
  rw [lineOutcome_eq, lineOutcome_eq, same]

/-! ## Empty lines -/

namespace Plan

/-- The segments that ask for something. -/
def needs (plan : Plan) (segments : List PlanSegment) : List PlanSegment :=
  segments.filter fun segment => (plan.misses segment).isSome

/-- A segment takes any single character. -/
def WantsCharacter (plan : Plan) : PlanSegment → Prop
  | .literal _ => False
  | .capture _ index => plan.rules[index]? = some (.default .character)

/-- The first thing that the plan asks for is a single character, and the next thing, if there is
one, is something else. -/
def TakesReturn (plan : Plan) : Prop :=
  ∃ first others, plan.needs plan.segments = first :: others ∧ plan.WantsCharacter first ∧
    ∀ second ∈ others.head?, ¬ plan.WantsCharacter second

theorem WithoutBreaks.passesOver {plan : Plan} (withoutBreaks : plan.WithoutBreaks)
    {segment : PlanSegment} (member : segment ∈ plan.segments) {ending : LineEnding}
    (other : ending = .both → ¬ plan.WantsCharacter segment) : plan.PassesOver ending segment := by
  cases segment with
  | capture slot index => exact other
  | literal literal =>
      intro solid standing
      obtain ⟨noReturn, noFeed⟩ := withoutBreaks literal member
      have nothing : literal.toList <+: [] :=
        (prefix_append_ending_iff noReturn noFeed ending).mp standing
      exact solid (String.toList_eq_nil_iff.mp (List.prefix_nil.mp nothing))

end Plan

namespace Scan

variable {compiled : CompiledPlan}

/-- A segment that asks for nothing does nothing. -/
theorem runSegments_needs (compiled : CompiledPlan) (segments : List PlanSegment) :
    runSegments compiled segments = runSegments compiled (compiled.plan.needs segments) := by
  induction segments with
  | nil => rfl
  | cons segment segments ih =>
      cases missing : compiled.plan.misses segment with
      | some fault =>
          rw [Plan.needs, List.filter_cons_of_pos (by simp [missing]), runSegments, runSegments, ih]
          rfl
      | none =>
          have idle : runSegment compiled segment = pure [] := by
            cases segment with
            | literal literal =>
                obtain rfl : literal = "" := by simpa [Plan.misses] using missing
                simp [runSegment, matchLiteral, matchRemaining]
            | capture slot index =>
                have unknown : compiled.plan.rules[index]? = none := by
                  simpa [Plan.misses] using missing
                simp [runSegment, unknown]
          rw [Plan.needs, List.filter_cons_of_neg (by simp [missing]), runSegments, idle, ih]
          simp [Plan.needs]

variable {line : Line} {chunks : List (List UInt8)} {taken : List UInt8} {reader : Reader}

/-- Where an ending is left that the first segment passes over, the run stops there. -/
theorem outcome_runSegments_at_ending (ofDefaults : compiled.OfDefaults) {first : PlanSegment}
    {ending : LineEnding} (passes : compiled.plan.PassesOver ending first) {fault : ScanFault}
    (missing : compiled.plan.misses first = some fault) (few : chunks.length ≤ 1)
    (onLine : OnLine line taken chunks reader) (left : chunks.flatten = ending.bytes)
    (others : List PlanSegment) :
    (outcome (runSegments compiled (first :: others)) reader).1 =
      .error (.fault (.of fault)) := by
  have failed : Whole.runSegment compiled first (line.stream chunks) = .error (.of fault) := by
    rw [Whole.runSegment_at_ending ofDefaults passes left, missing]
  obtain ⟨after, stopped⟩ :=
    (agreesOnLine_runSegment (suited_of_length_le ofDefaults few) first).of_error onLine failed
  rw [runSegments, outcome_bind_of_error stopped]

/-- A single character takes a carriage return before a line feed, which goes along. -/
theorem exists_outcome_of_wantsCharacter (ofDefaults : compiled.OfDefaults) {first : PlanSegment}
    (wants : compiled.plan.WantsCharacter first) (few : chunks.length ≤ 1)
    (onLine : OnLine line taken chunks reader) (left : chunks.flatten = LineEnding.both.bytes) :
    ∃ outputs taken after next, outcome (runSegment compiled first) reader = (.ok outputs, next) ∧
      OnLine line taken after next ∧ after.length ≤ 1 ∧ after.flatten = [] := by
  cases first with
  | literal literal => exact wants.elim
  | capture slot index =>
      have found : compiled.plan.rules[index]? = some (.default .character) := wants
      obtain ⟨pattern, runs⟩ := ofDefaults index _ found
      obtain ⟨_, rfl⟩ := runs.single.resolve_right fun other => other.1 rfl
      have standing : (line.stream chunks).remaining = LineEnding.both.bytes := left
      have decoded : Utf8.decode (line.stream chunks).remaining = (['\r', '\n'], .empty) :=
        Whole.decode_at_ending standing
      have matched : compiled.matcher index ['\r', '\n'] = .matched 1 := by
        rw [runs.runs, Pattern.run_one_cons]
        rfl
      have came : Whole.runSegment compiled (.capture slot index) (line.stream chunks) =
          .ok ((slot.map fun slot => (slot, Value.text "\r")).toList,
            Whole.behind (line.stream chunks) ['\r']) := by
        simp only [Whole.runSegment, found, Whole.bind, Whole.matchPattern, decoded, matched,
          List.take_succ_cons, List.take_zero, Whole.convert, Rule.type?]
        cases slot <;> rfl
      obtain ⟨text, after, taken, next, behind, consumes, still, done⟩ :=
        (agreesOnLine_runSegment (suited_of_length_le ofDefaults few) _).of_ok onLine came
      have faces : Faces (· = .lineFeed) 0 (['\r'] ++ []) [] (line.stream chunks) :=
        ⟨⟨.lineFeed, rfl, left⟩, fun some => (some rfl).elim⟩
      have gone := faces.of_consumes_in_one ⟨by simp, by simp⟩ few onLine.length_flatten_le behind
        consumes
      rw [if_pos ⟨rfl, rfl, by simp⟩] at gone
      exact ⟨_, taken, after, next, done, still, consumes.length_le_one few, gone⟩

theorem lineOutcome_needs (compiled : CompiledPlan) (bytes : List UInt8) :
    lineOutcome compiled bytes =
      (outcome (runSegments compiled (compiled.plan.needs compiled.plan.segments))
        (Reader.ofChunks [bytes]).byLine).1.map bySlot := by
  rw [lineOutcome_eq, ← runSegments_needs]

theorem onLine_empty {ending : LineEnding} (some : ending ≠ .none) :
    OnLine (.ended [] ending) [] [ending.bytes] (Reader.ofChunks [ending.bytes]).byLine :=
  onLine_ended ⟨by simp, by simp⟩ some

/-- On an empty line, a run stops at the first segment that asks for something, unless that takes
the ending. -/
theorem lineOutcome_of_needs (ofDefaults : compiled.OfDefaults)
    (withoutBreaks : compiled.plan.WithoutBreaks) {first : PlanSegment} {others : List PlanSegment}
    (needs : compiled.plan.needs compiled.plan.segments = first :: others) {fault : ScanFault}
    (missing : compiled.plan.misses first = some fault) {ending : LineEnding}
    (some : ending ≠ .none) (blind : ending = .both → ¬ compiled.plan.WantsCharacter first) :
    lineOutcome compiled ending.bytes = .error (.fault (.of fault)) := by
  have member : first ∈ compiled.plan.segments :=
    (List.mem_filter.mp (needs ▸ List.mem_cons_self : first ∈ compiled.plan.needs _)).1
  rw [lineOutcome_needs, needs, outcome_runSegments_at_ending ofDefaults
    (withoutBreaks.passesOver member blind) missing (by simp) (onLine_empty some) (by simp)]
  rfl

/-- On an empty line, a single character takes the carriage return, and nothing is left for the
next segment that asks for something. -/
theorem lineOutcome_of_wantsCharacter (ofDefaults : compiled.OfDefaults) {first : PlanSegment}
    {others : List PlanSegment}
    (needs : compiled.plan.needs compiled.plan.segments = first :: others)
    (wants : compiled.plan.WantsCharacter first) :
    (others = [] → ∃ values, lineOutcome compiled LineEnding.both.bytes = .ok values) ∧
      ∀ second more fault, others = second :: more → compiled.plan.misses second = some fault →
        lineOutcome compiled LineEnding.both.bytes = .error (.fault (.of fault)) := by
  have ended : LineEnding.both ≠ .none := by decide
  obtain ⟨outputs, _, left, next, done, onLine, few, gone⟩ :=
    exists_outcome_of_wantsCharacter ofDefaults wants (by simp) (onLine_empty ended) (by simp)
  have goesOn : lineOutcome compiled LineEnding.both.bytes =
      ((outcome (runSegments compiled others) next).1.map (outputs ++ ·)).map bySlot := by
    rw [lineOutcome_needs, needs, runSegments, outcome_bind_of_ok done, outcome_bind_pure]
  constructor
  · rintro rfl
    rw [goesOn]
    exact ⟨_, rfl⟩
  · rintro second more fault rfl missing
    have stops := outcome_runSegments_at_ending ofDefaults (compiled.plan.passesOver_none second)
      missing few onLine gone more
    rw [goesOn, stops]
    rfl

theorem misses_of_wantsCharacter {plan : Plan} {segment : PlanSegment}
    (wants : plan.WantsCharacter segment) :
    plan.misses segment = some (.patternMismatch DefaultPattern.character) := by
  cases segment with
  | literal literal => exact wants.elim
  | capture slot index =>
      have found : plan.rules[index]? = some (.default .character) := wants
      rw [Plan.misses, found]
      rfl

theorem exists_fault_of_mem_needs {plan : Plan} {segments : List PlanSegment}
    {segment : PlanSegment} (member : segment ∈ plan.needs segments) :
    ∃ fault, plan.misses segment = some fault :=
  Option.isSome_iff_exists.mp (List.mem_filter.mp member).2

/-- An empty line comes to the same with both endings when the plan does not take the carriage
return. -/
theorem lineOutcome_empty (ofDefaults : compiled.OfDefaults)
    (withoutBreaks : compiled.plan.WithoutBreaks) (leaves : ¬ compiled.plan.TakesReturn) :
    lineOutcome compiled LineEnding.lineFeed.bytes =
      lineOutcome compiled LineEnding.both.bytes := by
  cases needs : compiled.plan.needs compiled.plan.segments with
  | nil =>
      rw [lineOutcome_needs, lineOutcome_needs, needs]
      rfl
  | cons first others =>
      obtain ⟨fault, missing⟩ := exists_fault_of_mem_needs (needs ▸ List.mem_cons_self)
      have stops : lineOutcome compiled LineEnding.lineFeed.bytes = .error (.fault (.of fault)) :=
        lineOutcome_of_needs ofDefaults withoutBreaks needs missing (by decide)
          fun same => absurd same (by decide)
      rw [stops]
      by_cases wants : compiled.plan.WantsCharacter first
      · obtain ⟨second, there, alsoWants⟩ : ∃ second ∈ others.head?,
            compiled.plan.WantsCharacter second := by
          by_contra none
          exact leaves ⟨first, others, needs, wants, fun second there alsoWants =>
            none ⟨second, there, alsoWants⟩⟩
        obtain ⟨more, rfl⟩ : ∃ more, others = second :: more := List.head?_eq_some_iff.mp there
        rw [(lineOutcome_of_wantsCharacter ofDefaults needs wants).2 second more _ rfl
          (misses_of_wantsCharacter alsoWants)]
        rw [misses_of_wantsCharacter wants] at missing
        rw [Option.some.inj missing]
      · rw [lineOutcome_of_needs ofDefaults withoutBreaks needs missing (by decide) fun _ => wants]

/-- On an empty line, a plan that takes the carriage return comes to values or to the fault of
another segment where it stops at its single character without. -/
theorem lineOutcome_empty_of_takesReturn (ofDefaults : compiled.OfDefaults)
    (withoutBreaks : compiled.plan.WithoutBreaks) (takes : compiled.plan.TakesReturn) :
    lineOutcome compiled LineEnding.lineFeed.bytes =
        .error (.fault (.of (.patternMismatch DefaultPattern.character))) ∧
      ((∃ values, lineOutcome compiled LineEnding.both.bytes = .ok values) ∨
        ∃ second fault, ¬ compiled.plan.WantsCharacter second ∧
          compiled.plan.misses second = some fault ∧
            lineOutcome compiled LineEnding.both.bytes = .error (.fault (.of fault))) := by
  obtain ⟨first, others, needs, wants, next⟩ := takes
  have missing := misses_of_wantsCharacter wants
  constructor
  · exact lineOutcome_of_needs ofDefaults withoutBreaks needs missing (by decide)
      fun same => absurd same (by decide)
  have comes := lineOutcome_of_wantsCharacter ofDefaults needs wants
  cases others with
  | nil => exact .inl (comes.1 rfl)
  | cons second more =>
      obtain ⟨fault, given⟩ :=
        exists_fault_of_mem_needs (needs ▸ List.mem_cons_of_mem first List.mem_cons_self)
      exact .inr ⟨second, fault, next second rfl, given, comes.2 second more fault rfl given⟩

end Scan

/-! ## The same messages -/

open Text (Quoted.quote Quoted.quoteChars)

namespace ScanFault

/-- Two faults have the same code and the same message. -/
def SaysSame (one other : ScanFault) : Prop :=
  Fault.code one = Fault.code other ∧ Fault.message one = Fault.message other

@[simp] theorem code_behind (fault : ScanFault) (offset : Nat) :
    Fault.code (fault.behind offset) = Fault.code fault := by
  rcases fault with _ | _ | ⟨_, _ | _⟩ | _ | _ <;> rfl

@[simp] theorem message_behind (fault : ScanFault) (offset : Nat) :
    Fault.message (fault.behind offset) = Fault.message fault := by
  rcases fault with _ | _ | ⟨_, _ | _⟩ | _ | _ <;> rfl

theorem saysSame_behind_iff {one other : ScanFault} {offset otherOffset : Nat} :
    (one.behind offset).SaysSame (other.behind otherOffset) ↔ one.SaysSame other := by
  simp only [SaysSame, code_behind, message_behind]

/-- The mismatch of a longer pattern is not told in the words of that of a single character. -/
theorem message_ne_of_length {source : String} (longer : 1 < source.toList.length) :
    Fault.message (patternMismatch DefaultPattern.character) ≠
      Fault.message (patternMismatch source) := by
  intro same
  have quoted : Quoted.quoteChars ['.'] = Quoted.quoteChars source.toList := by
    have words := congrArg String.toList same
    simpa [Fault.message, Quoted.quote, DefaultPattern.character, toString] using words
  have length := Text.Quoted.length_lt_length_quoteChars source.toList
  rw [← quoted] at length
  have three : (Quoted.quoteChars ['.']).length = 3 := by decide
  omega

theorem one_lt_length_append {first : String} (longer : 1 < first.toList.length) (rest : String) :
    1 < (first ++ rest).toList.length := by
  rw [String.toList_append, List.length_append]
  exact Nat.lt_add_right _ longer

/-- Every other default pattern is longer than that of a single character. -/
theorem one_lt_length_of_mem_withDefault {type : ScanType} (member : type ∈ ScanType.withDefault)
    (other : type ≠ .character) : 1 < (type.defaultPattern.getD "").toList.length := by
  have ipv6 : 1 < DefaultPattern.ipv6.toList.length := by
    unfold DefaultPattern.ipv6
    repeat refine one_lt_length_append ?_ _
    decide
  simp only [ScanType.withDefault, List.mem_cons] at member
  rcases member with rfl | rfl | rfl | rfl | rfl | rfl | rfl | member
  · exact (other rfl).elim
  · decide
  · decide
  · decide
  · decide
  · exact ipv6
  · exact one_lt_length_append (one_lt_length_append ipv6 _) _
  · obtain ⟨name, signed, bits, nonzero, rfl⟩ := ScanType.exists_of_mem_integers member
    cases signed <;> simp only [ScanType.ofIntegers] <;> decide

/-- What a segment misses that wants no single character is told apart from a single character. -/
theorem not_saysSame_of_misses {plan : Plan} (ofDefaults : plan.OfDefaults) {segment : PlanSegment}
    (other : ¬ plan.WantsCharacter segment) {fault : ScanFault}
    (missing : plan.misses segment = some fault) :
    ¬ (patternMismatch DefaultPattern.character).SaysSame fault := by
  rintro ⟨code, message⟩
  cases segment with
  | literal literal =>
      rw [Plan.misses] at missing
      split at missing
      · cases missing
      · cases missing
        cases code
  | capture slot index =>
      obtain ⟨rule, found, rfl⟩ := Option.map_eq_some_iff.mp missing
      obtain ⟨type, member, rfl⟩ := ofDefaults rule (List.mem_of_getElem? found)
      refine message_ne_of_length (one_lt_length_of_mem_withDefault member ?_) message
      rintro rfl
      exact other found

end ScanFault

/-- Two diagnostics are about faults with the same code and the same message. -/
def Diagnostic.SaysSame (one other : Diagnostic ScanFault) : Prop := one.fault.SaysSame other.fault

/-- A line that alone comes to the same comes to the same in two scans. -/
theorem resultsAlike_of_echoes {number offset otherOffset : Nat}
    {alone : Except Scan.Stop (List Value)} {result other : LineResult}
    (echoes : Scan.Echoes number offset alone (outcomeOf result))
    (otherEchoes : Scan.Echoes number otherOffset alone (outcomeOf other)) :
    ResultsAlike Diagnostic.SaysSame result other := by
  rcases result with diagnostic | values <;> rcases other with otherDiagnostic | otherValues <;>
    cases echoes <;> cases otherEchoes
  · exact .faults (ScanFault.saysSame_behind_iff.mpr ⟨rfl, rfl⟩)
  · exact .values _

/-! ## Contents joined by endings -/

/-- Contents of lines, with an ending between any two. -/
def joinLines (ending : LineEnding) (contents : List (List UInt8)) : List UInt8 :=
  ending.bytes.intercalate contents

theorem Unbroken.linesOf_append {content : List UInt8} (unbroken : Unbroken content)
    {ending : LineEnding} (some : ending ≠ .none) (more : List UInt8) :
    linesOf (content ++ ending.bytes ++ more) = (content ++ ending.bytes) :: linesOf more := by
  cases ending with
  | none => exact (some rfl).elim
  | lineFeed =>
      rw [LineEnding.bytes_lineFeed, List.append_assoc]
      exact Unformat.linesOf_append unbroken.2 more
  | both =>
      have absent : lineFeed ∉ content ++ [carriageReturn] := by
        rw [List.mem_append, List.mem_singleton]
        exact not_or.mpr ⟨unbroken.2, by decide⟩
      have lines := Unformat.linesOf_append absent more
      rw [LineEnding.bytes_both]
      simpa using lines

/-- Every content but the last is a line with an ending; the last one is a line unless it is
empty. -/
theorem linesOf_joinLines {ending : LineEnding} (some : ending ≠ .none)
    {contents : List (List UInt8)} (unbroken : ∀ content ∈ contents, Unbroken content) :
    linesOf (joinLines ending contents) =
      contents.dropLast.map (· ++ ending.bytes) ++ contents.getLast?.toList.filter (· ≠ []) := by
  induction contents with
  | nil => rfl
  | cons content contents ih =>
      have here := unbroken content List.mem_cons_self
      cases contents with
      | nil =>
          rw [joinLines, List.intercalate_singleton]
          by_cases empty : content = []
          · subst empty
            rfl
          · simp [linesOf_of_not_mem here.2 empty, empty]
      | cons next contents =>
          have later := ih fun content member => unbroken content (List.mem_cons_of_mem _ member)
          rw [joinLines] at later ⊢
          rw [List.intercalate_cons_cons, here.linesOf_append some, later]
          simp

/-- The line of each number has the same content in both, or is the same line. -/
theorem exists_content_of_joinLines {contents : List (List UInt8)}
    (unbroken : ∀ content ∈ contents, Unbroken content) (number : Nat) :
    (∃ content ∈ contents.dropLast,
        (linesOf (joinLines .lineFeed contents)).getD number [] =
            content ++ LineEnding.lineFeed.bytes ∧
          (linesOf (joinLines .both contents)).getD number [] =
            content ++ LineEnding.both.bytes) ∨
      (linesOf (joinLines .lineFeed contents)).getD number [] =
        (linesOf (joinLines .both contents)).getD number [] := by
  rw [linesOf_joinLines (by decide) unbroken, linesOf_joinLines (by decide) unbroken]
  simp only [List.getD_eq_getElem?_getD]
  by_cases bound : number < contents.dropLast.length
  · left
    refine ⟨contents.dropLast[number], List.getElem_mem bound, ?_⟩
    rw [List.getElem?_append_left (by simpa using bound),
      List.getElem?_append_left (by simpa using bound), List.getElem?_map, List.getElem?_map,
      List.getElem?_eq_getElem bound]
    exact ⟨rfl, rfl⟩
  · right
    rw [List.getElem?_append_right (by simpa using bound),
      List.getElem?_append_right (by simpa using bound), List.length_map, List.length_map]

/-! ## Scans line by line -/

namespace Scan

/-- When the chunks are one, so is each line. -/
theorem aloneOutcome_of_one {chunks : List (List UInt8)} (few : chunks.length ≤ 1)
    (compiled : CompiledPlan) (offset : Nat) {number : Nat}
    (bound : number < (linesOf chunks.flatten).length) :
    aloneOutcome (.ok compiled) (.nth offset chunks number) =
      lineOutcome compiled ((linesOf chunks.flatten).getD number []) := by
  have some : (Line.nth offset chunks number).chunks ≠ [] := by
    intro none
    have bytes := Line.bytes_nth offset chunks number
    rw [Line.bytes, none, List.getD_eq_getElem?_getD, List.getElem?_eq_getElem bound] at bytes
    exact ne_nil_of_mem_linesOf (List.getElem_mem bound) bytes.symm
  rw [aloneOutcome, Line.chunks_nth_of_one few some, lineOutcome]

end Scan

namespace LineIteration

variable {compiled : CompiledPlan} {contents : List (List UInt8)}

/-- What a request for the line of a number brings when faults are given back. -/
theorem exists_result_of_one (compiles : compiled.plan.compile = .ok compiled)
    {bytes : List UInt8} {number : Nat} (bound : number < (linesOf bytes).length) :
    ∃ result, ((ofChunks compiled.plan .raise [bytes]).after number).next.1 =
        stepOf (outcomeOf result) ∧
      ∃ offset, Scan.Echoes (number + 1) offset
        (Scan.lineOutcome compiled ((linesOf bytes).getD number [])) (outcomeOf result) := by
  obtain ⟨steady, few, rest⟩ := ofChunks_one bytes
  have inside : number < (linesOf (Reader.ofChunks [bytes]).base.chunks.flatten).length := by
    rwa [← ByteReader.rest, rest]
  obtain ⟨result, brings, echoes⟩ := exists_result_of_raise compiled steady inside
  rw [Scan.aloneOutcome_of_one few _ _ inside, ← ByteReader.rest, rest] at echoes
  rw [← ofChunks_eq_start compiles] at brings
  exact ⟨result, brings, _, echoes⟩

/-- Scans of the same contents go the same way when every content comes to the same before both
endings. -/
theorem inStep_joinLines (compiles : compiled.plan.compile = .ok compiled)
    (unbroken : ∀ content ∈ contents, Unbroken content)
    (same : ∀ content ∈ contents.dropLast,
      Scan.lineOutcome compiled (content ++ LineEnding.lineFeed.bytes) =
        Scan.lineOutcome compiled (content ++ LineEnding.both.bytes)) (errors : LineErrors) :
    InStep Diagnostic.SaysSame (ofChunks compiled.plan errors [joinLines .lineFeed contents])
      (ofChunks compiled.plan errors [joinLines .both contents]) := by
  obtain ⟨steady, few, rest⟩ := ofChunks_one (joinLines .lineFeed contents)
  obtain ⟨otherSteady, otherFew, otherRest⟩ := ofChunks_one (joinLines .both contents)
  have count : (linesOf (joinLines .lineFeed contents)).length =
      (linesOf (joinLines .both contents)).length := by
    rw [linesOf_joinLines (by decide) unbroken, linesOf_joinLines (by decide) unbroken]
    simp
  rw [ofChunks_eq_start compiles, ofChunks_eq_start compiles]
  refine inStep_start steady otherSteady (by rw [rest, otherRest, count]) ?_ errors
  intro number result other echoes otherEchoes bound
  have otherBound :
      number < (linesOf (Reader.ofChunks [joinLines .both contents]).base.rest).length := by
    rwa [otherRest, ← count, ← rest]
  rw [Scan.aloneOutcome_of_one few _ _ bound, ← ByteReader.rest, rest] at echoes
  rw [Scan.aloneOutcome_of_one otherFew _ _ otherBound, ← ByteReader.rest, otherRest] at otherEchoes
  rcases exists_content_of_joinLines unbroken number with ⟨content, member, one, other⟩ | equal
  · rw [one] at echoes
    rw [other, ← same content member] at otherEchoes
    exact resultsAlike_of_echoes echoes otherEchoes
  · rw [← equal] at otherEchoes
    exact resultsAlike_of_echoes echoes otherEchoes

/-- Requests for an empty line that is not the last one bring different things when the plan takes
the carriage return. -/
theorem exists_not_stepsAlike (compiles : compiled.plan.compile = .ok compiled)
    (matchers : compiled.OfDefaults) (ofDefaults : compiled.plan.OfDefaults)
    (withoutBreaks : compiled.plan.WithoutBreaks)
    (unbroken : ∀ content ∈ contents, Unbroken content) (empty : [] ∈ contents.dropLast)
    (takes : compiled.plan.TakesReturn) :
    ∃ number, ¬ StepsAlike Diagnostic.SaysSame
      ((ofChunks compiled.plan .raise [joinLines .lineFeed contents]).after number).next.1
      ((ofChunks compiled.plan .raise [joinLines .both contents]).after number).next.1 := by
  obtain ⟨number, bound, nothing⟩ := List.mem_iff_getElem.mp empty
  have line {ending : LineEnding} (some : ending ≠ .none) :
      number < (linesOf (joinLines ending contents)).length ∧
        (linesOf (joinLines ending contents)).getD number [] = ending.bytes := by
    rw [linesOf_joinLines some unbroken]
    refine ⟨by rw [List.length_append, List.length_map]; omega, ?_⟩
    rw [List.getD_eq_getElem?_getD, List.getElem?_append_left (by simpa using bound),
      List.getElem?_map, List.getElem?_eq_getElem bound, nothing]
    rfl
  obtain ⟨inside, feed⟩ := line (show LineEnding.lineFeed ≠ .none by decide)
  obtain ⟨otherInside, both⟩ := line (show LineEnding.both ≠ .none by decide)
  obtain ⟨result, brings, offset, echoes⟩ := exists_result_of_one compiles inside
  obtain ⟨other, otherBrings, otherOffset, otherEchoes⟩ := exists_result_of_one compiles otherInside
  obtain ⟨missed, comes⟩ :=
    Scan.lineOutcome_empty_of_takesReturn matchers withoutBreaks takes
  rw [feed, missed] at echoes
  rw [both] at otherEchoes
  refine ⟨number, ?_⟩
  rw [brings, otherBrings]
  rcases comes with ⟨values, given⟩ | ⟨second, fault, wants, missing, failed⟩
  · rw [given] at otherEchoes
    rcases result with diagnostic | _ <;> rcases other with _ | others <;>
      cases echoes <;> cases otherEchoes
    nofun
  · rw [failed] at otherEchoes
    rcases result with diagnostic | _ <;> rcases other with otherDiagnostic | _ <;>
      cases echoes <;> cases otherEchoes
    rintro (_ | _ | alike)
    have same : (ScanFault.behind offset (.patternMismatch DefaultPattern.character)).SaysSame
        (fault.behind otherOffset) := alike
    exact ScanFault.not_saysSame_of_misses ofDefaults wants missing
      (ScanFault.saysSame_behind_iff.mp same)

end LineIteration

/-! ## Plans of built-in types -/

theorem ScanType.mem_withDefault_of_mem_builtinTypes {type : ScanType}
    {aliases : List Designator} (member : (type, aliases) ∈ Registry.builtinTypes)
    (hasDefault : type.hasDefault = true) : type ∈ withDefault := by
  simp only [Registry.builtinTypes, List.mem_append, List.mem_cons, List.mem_map, Prod.mk.injEq,
    List.not_mem_nil, or_false] at member
  simp only [withDefault, List.mem_cons]
  rcases member with (words | ⟨integer, member, rfl, _⟩) | others
  · rcases words with ⟨rfl, _⟩ | ⟨rfl, _⟩ | ⟨rfl, _⟩ <;> simp
  · simp [member]
  · rcases others with ⟨rfl, _⟩ | ⟨rfl, _⟩ | ⟨rfl, _⟩ | ⟨rfl, _⟩ | ⟨rfl, _⟩ | ⟨rfl, _⟩ | ⟨rfl, _⟩ |
      ⟨rfl, _⟩ | ⟨rfl, _⟩
    · simp
    · simp
    · simp
    · simp
    all_goals cases hasDefault

theorem Plan.ofDefaults_of_bind {segments : List Segment} {rules : RuleList} {template : String}
    {plan : Plan} (bound : Plan.bind segments rules template = .ok plan)
    (builtin : ∀ rule ∈ plan.rules, ∃ entry ∈ Registry.builtinTypes, rule = .default entry.1) :
    plan.OfDefaults := by
  obtain ⟨fits, rfl⟩ := fits_of_bind bound
  intro rule member
  obtain ⟨⟨type, aliases⟩, known, rfl⟩ := builtin rule member
  have hasDefault := fits.patterned type member
  exact ⟨type, ScanType.mem_withDefault_of_mem_builtinTypes known hasDefault, rfl⟩

open LineIteration in
/-- A plan of default rules of built-in types without line breaks in its literals brings the same,
request for request, over contents joined by line feeds as over contents joined by carriage returns
and line feeds.  Only if a content before the last one is empty, and the first thing that the plan
asks for is a single character and the next thing is not, does it bring something else. -/
theorem joined_lines_alike_iff {segments : List Segment} {rules : RuleList} {template : String}
    {plan : Plan} (bound : Plan.bind segments rules template = .ok plan)
    (builtin : ∀ rule ∈ plan.rules, ∃ entry ∈ Registry.builtinTypes, rule = .default entry.1)
    (withoutBreaks : plan.WithoutBreaks) {contents : List (List UInt8)}
    (unbroken : ∀ content ∈ contents, Unbroken content) :
    (∀ (errors : LineErrors) (count : Nat),
      let one := (ofChunks plan errors [joinLines .lineFeed contents]).after count
      let other := (ofChunks plan errors [joinLines .both contents]).after count
      StepsAlike Diagnostic.SaysSame one.next.1 other.next.1 ∧
        ScansAlike Diagnostic.SaysSame one.scan other.scan) ↔
    ¬ ([] ∈ contents.dropLast ∧ plan.TakesReturn) := by
  have ofDefaults := Plan.ofDefaults_of_bind bound builtin
  obtain ⟨compiled, compiles, rfl, matchers⟩ := ofDefaults.compile
  constructor
  · rintro alike ⟨empty, takes⟩
    obtain ⟨number, differ⟩ := exists_not_stepsAlike compiles matchers ofDefaults withoutBreaks
      unbroken empty takes
    exact differ (alike .raise number).1
  · intro leaves errors count
    have same (content : List UInt8) (member : content ∈ contents.dropLast) :
        Scan.lineOutcome compiled (content ++ LineEnding.lineFeed.bytes) =
          Scan.lineOutcome compiled (content ++ LineEnding.both.bytes) := by
      by_cases empty : content = []
      · subst empty
        exact Scan.lineOutcome_empty matchers withoutBreaks fun takes => leaves ⟨member, takes⟩
      · exact Scan.lineOutcome_of_content matchers withoutBreaks
          (unbroken content (List.mem_of_mem_dropLast member)) empty
    have inStep := (inStep_joinLines compiles unbroken same errors).after count
    exact ⟨inStep.next.1, inStep.scans⟩

open LineIteration in
/-- A plan that looks for a word tells no endings apart, even on an empty line. -/
theorem joined_lines_alike_of_word :
    let one := (ofChunks (.single .string) .skip [joinLines .lineFeed [[], [0x61], []]]).after 1
    let other := (ofChunks (.single .string) .skip [joinLines .both [[], [0x61], []]]).after 1
    StepsAlike Diagnostic.SaysSame one.next.1 other.next.1 ∧
      ScansAlike Diagnostic.SaysSame one.scan other.scan := by
  have bound : Plan.bind [.capture ⟨.next, .next⟩ 0] { positional := [.default .string] }
      "\x7b\x7d" = .ok (.single .string) := Binding.bind_of_fits (fits_single rfl) "\x7b\x7d"
  have builtin : ∀ rule ∈ (Plan.single .string).rules,
      ∃ entry ∈ Registry.builtinTypes, rule = .default entry.1 := by
    intro rule member
    exact ⟨(.string, [.name "str", .kind .str]), by simp [Registry.builtinTypes],
      List.mem_singleton.mp member⟩
  have withoutBreaks : (Plan.single .string).WithoutBreaks := by
    intro literal member
    simp [Plan.single] at member
  have unbroken : ∀ content ∈ [[], [0x61], []], Unbroken content := by
    simp [Unbroken, carriageReturn, lineFeed]
  refine (joined_lines_alike_iff bound builtin withoutBreaks unbroken).mpr ?_ .skip 1
  rintro ⟨_, first, others, needs, wants, _⟩
  obtain ⟨rfl, _⟩ := List.cons.inj needs
  revert wants
  simp only [Plan.WantsCharacter, Plan.single]
  decide

open LineIteration in
/-- On an empty line, the carriage return of the ending is a single character. -/
theorem carriage_return_of_empty_line :
    let plan : Plan := .single .character
    let contents : List (List UInt8) := [[], []]
    Plan.build "\x7b\x7d" { positional := [.default .character] } = .ok plan ∧
      (∀ rule ∈ plan.rules, ∃ entry ∈ Registry.builtinTypes, rule = .default entry.1) ∧
      plan.WithoutBreaks ∧ (∀ content ∈ contents, Unbroken content) ∧
      (ofChunks plan .raise [joinLines .lineFeed contents]).next.1 =
        .stopped (.fault ((Diagnostic.of (.patternMismatch ".")).withNote "on line 1")) ∧
      (ofChunks plan .raise [joinLines .both contents]).next.1 = .values [.text "\r"] := by
  refine ⟨build_single rfl, ?_, ?_, ?_, by cbv, by cbv⟩
  · intro rule member
    exact ⟨(.character, []), by simp [Registry.builtinTypes], List.mem_singleton.mp member⟩
  · intro literal member
    simp [Plan.single] at member
  · simp [Unbroken]

end Unformat
