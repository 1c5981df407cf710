import Unformat.Proofs.Scan.LineEnds
import Unformat.Proofs.Scan.LinesAlike
import Unformat.Proofs.Scan.LinesApart
import Unformat.Proofs.Scan.RoundTrip

/-!
# Where the reads end within a line

Line by line, a plan of token types comes to the same however the reads cut the bytes, as long as no
read ends right before or within an end of a line that some part of the plan could begin with.
-/

namespace Unformat

open Scan (InFront Suited NothingShown aloneOutcome Echoes outcome agreesOnLine_runSegment)
open Text (Utf8.decode Utf8.encode)

/-! ## Plans that do not tell an ending from nothing -/

/-- No segment of the plan can take an ending of a line, or the beginning of it. -/
def Plan.Ignores (plan : Plan) (ending : LineEnding) : Prop :=
  ∀ segment ∈ plan.segments, plan.PassesOver ending segment

/-- No border between chunks parts the ending of a line from the text of the line. -/
def LineEnding.KeptBy (ending : LineEnding) (chunks : List (List UInt8)) : Prop :=
  ∀ number, ¬ ending.Parted (Line.nth 0 chunks number).chunks

/-- At an ending that the plan ignores, a segment comes to what it comes to when nothing is left. -/
theorem Whole.runSegment_of_ignored {compiled : CompiledPlan} (ofDefaults : compiled.OfDefaults)
    {ending : LineEnding} (ignores : compiled.plan.Ignores ending) {segment : PlanSegment}
    (member : segment ∈ compiled.plan.segments) {stream : Stream}
    (left : stream.remaining = [] ∨ stream.remaining = ending.bytes) :
    Whole.runSegment compiled segment stream =
      match compiled.plan.misses segment with
      | none => .ok ([], stream)
      | some fault => .error (.of fault) := by
  rcases left with nothing | all
  · exact runSegment_at_ending ofDefaults (compiled.plan.passesOver_none segment) nothing
  · exact runSegment_at_ending ofDefaults (ignores segment member) all

/-! ## Two readers on the same line -/

/-- Two ways to cut what is left of a line: the same bytes are left, or an ending that the plan
ignores is left by one and was taken along by the other. -/
inductive LeftAlike (plan : Plan) (one other : List (List UInt8)) : Prop
  | same (equal : one.flatten = other.flatten) : LeftAlike plan one other
  | ends {ending : LineEnding} (ignores : plan.Ignores ending)
      (oneEnds : one.flatten = [] ∨ one.flatten = ending.bytes)
      (otherEnds : other.flatten = [] ∨ other.flatten = ending.bytes) : LeftAlike plan one other

/-- No border parts an ending that the plan does not ignore. -/
def PartsIgnored (plan : Plan) (chunks : List (List UInt8)) : Prop :=
  ∀ ending : LineEnding, plan.Ignores ending ∨ ¬ ending.Parted chunks

theorem PartsIgnored.after {plan : Plan} {wanted : List (List UInt8) → Prop}
    {chunks left : List (List UInt8)} {text : List Char} (parts : PartsIgnored plan chunks)
    (consumes : Consumes wanted chunks text left) : PartsIgnored plan left :=
  fun ending => (parts ending).imp_right fun unparted => (consumes.unparted unparted).1

/-- Texts of the same length that are taken off the same bytes leave the same, or an ending that the
plan ignores. -/
theorem LeftAlike.of_consumes {plan : Plan} {wanted : List (List UInt8) → Prop}
    {chunks others left otherLeft : List (List UInt8)} {text otherText : List Char}
    (equal : chunks.flatten = others.flatten) (parts : PartsIgnored plan chunks)
    (otherParts : PartsIgnored plan others)
    (length : (Utf8.encode text).length = (Utf8.encode otherText).length)
    (consumes : Consumes wanted chunks text left)
    (otherConsumes : Consumes wanted others otherText otherLeft) :
    LeftAlike plan left otherLeft := by
  obtain ⟨rest, split, came⟩ := consumes.exists_rest
  obtain ⟨otherRest, otherSplit, otherCame⟩ := otherConsumes.exists_rest
  obtain ⟨same, rfl⟩ := List.append_inj (split.symm.trans (equal.trans otherSplit)) length
  obtain rfl := Text.Utf8.encode_injective same
  by_cases last : lineEnd rest = rest
  · obtain ⟨ending, rfl⟩ := LineEnding.exists_of_lineEnd last
    rcases parts ending with ignores | unparted
    · exact .ends ignores (came.elim .inr fun given => .inl given.2.1)
        (otherCame.elim .inr fun given => .inl given.2.1)
    rcases otherParts ending with ignores | otherUnparted
    · exact .ends ignores (came.elim .inr fun given => .inl given.2.1)
        (otherCame.elim .inr fun given => .inl given.2.1)
    by_cases solid : text = []
    · subst solid
      exact .same (by rw [consumes.flatten_of_nil, otherConsumes.flatten_of_nil, equal])
    · refine .same ?_
      rw [(consumes.unparted unparted).2 solid split,
        (otherConsumes.unparted otherUnparted).2 solid otherSplit]
  · refine .same ?_
    rw [came.elim id fun given => absurd given.2.2 last,
      otherCame.elim id fun given => absurd given.2.2 last]

theorem Line.stream_eq {line other : Line} (before : line.before = other.before)
    (bytes : line.bytes = other.bytes) {chunks others : List (List UInt8)}
    (equal : chunks.flatten = others.flatten) : line.stream chunks = other.stream others := by
  rw [stream, stream, before, bytes, equal]

theorem length_eq_of_behind_eq {stream : Stream} {text other : List Char}
    (same : Whole.behind stream text = Whole.behind stream other) :
    (Utf8.encode text).length = (Utf8.encode other).length :=
  Nat.add_left_cancel (congrArg Stream.offset same)

theorem eq_nil_of_behind_eq {stream : Stream} {text : List Char}
    (same : stream = Whole.behind stream text) : text = [] := by
  have length : (Utf8.encode []).length = (Utf8.encode text).length :=
    length_eq_of_behind_eq ((Whole.behind_nil stream).trans same)
  exact Text.Utf8.encode_eq_nil_iff.mp (List.eq_nil_of_length_eq_zero length.symm)

section Lines

variable {compiled : CompiledPlan} {line otherLine : Line} {chunks others : List (List UInt8)}
  {taken otherTaken : List UInt8} {reader other : Reader}

/-- A segment comes to the same on both, and leaves alike what it leaves. -/
theorem runSegment_alike (ofDefaults : compiled.OfDefaults)
    (suited : ∀ chunks, Suited compiled chunks) (before : line.before = otherLine.before)
    (bytes : line.bytes = otherLine.bytes) {segment : PlanSegment}
    (member : segment ∈ compiled.plan.segments) (parts : PartsIgnored compiled.plan chunks)
    (otherParts : PartsIgnored compiled.plan others)
    (alike : LeftAlike compiled.plan chunks others) (onLine : OnLine line taken chunks reader)
    (onOther : OnLine otherLine otherTaken others other) :
    (∃ value left otherLeft taken otherTaken after otherAfter,
      outcome (Scan.runSegment compiled segment) reader = (.ok value, after) ∧
      outcome (Scan.runSegment compiled segment) other = (.ok value, otherAfter) ∧
      OnLine line taken left after ∧ OnLine otherLine otherTaken otherLeft otherAfter ∧
      PartsIgnored compiled.plan left ∧ PartsIgnored compiled.plan otherLeft ∧
      LeftAlike compiled.plan left otherLeft) ∨
    ∃ stop after otherAfter,
      outcome (Scan.runSegment compiled segment) reader = (.error stop, after) ∧
      outcome (Scan.runSegment compiled segment) other = (.error stop, otherAfter) := by
  have agrees : Scan.AgreesOnLine _ line chunks _ _ :=
    agreesOnLine_runSegment (suited chunks) segment
  have otherAgrees : Scan.AgreesOnLine _ otherLine others _ _ :=
    agreesOnLine_runSegment (suited others) segment
  cases alike with
  | same equal =>
      have streams := Line.stream_eq before bytes equal
      cases result : Whole.runSegment compiled segment (line.stream chunks) with
      | ok given =>
          obtain ⟨value, stream⟩ := given
          obtain ⟨text, left, _, after, rfl, consumes, still, done⟩ := agrees.of_ok onLine result
          obtain ⟨otherText, otherLeft, _, otherAfter, same, otherConsumes, otherStill, otherDone⟩ :=
            otherAgrees.of_ok onOther (streams ▸ result)
          exact .inl ⟨value, left, otherLeft, _, _, after, otherAfter, done, otherDone, still,
            otherStill, parts.after consumes, otherParts.after otherConsumes,
            .of_consumes equal parts otherParts (length_eq_of_behind_eq (streams ▸ same)) consumes
              otherConsumes⟩
      | error diagnostic =>
          obtain ⟨after, stopped⟩ := agrees.of_error onLine result
          obtain ⟨otherAfter, otherStopped⟩ := otherAgrees.of_error onOther (streams ▸ result)
          exact .inr ⟨_, after, otherAfter, stopped, otherStopped⟩
  | ends ignores oneEnds otherEnds =>
      have here : Whole.runSegment compiled segment (line.stream chunks) = _ :=
        Whole.runSegment_of_ignored ofDefaults ignores member oneEnds
      have there : Whole.runSegment compiled segment (otherLine.stream others) = _ :=
        Whole.runSegment_of_ignored ofDefaults ignores member otherEnds
      cases missing : compiled.plan.misses segment with
      | none =>
          rw [missing] at here there
          obtain ⟨text, left, _, after, stays, consumes, still, done⟩ := agrees.of_ok onLine here
          obtain ⟨otherText, otherLeft, _, otherAfter, otherStays, otherConsumes, otherStill,
            otherDone⟩ := otherAgrees.of_ok onOther there
          obtain rfl := eq_nil_of_behind_eq stays
          obtain rfl := eq_nil_of_behind_eq otherStays
          rw [← consumes.flatten_of_nil] at oneEnds
          rw [← otherConsumes.flatten_of_nil] at otherEnds
          exact .inl ⟨[], left, otherLeft, _, _, after, otherAfter, done, otherDone, still,
            otherStill, parts.after consumes, otherParts.after otherConsumes,
            .ends ignores oneEnds otherEnds⟩
      | some fault =>
          rw [missing] at here there
          obtain ⟨after, stopped⟩ := agrees.of_error onLine here
          obtain ⟨otherAfter, otherStopped⟩ := otherAgrees.of_error onOther there
          exact .inr ⟨_, after, otherAfter, stopped, otherStopped⟩

theorem runSegments_alike (ofDefaults : compiled.OfDefaults)
    (suited : ∀ chunks, Suited compiled chunks) (before : line.before = otherLine.before)
    (bytes : line.bytes = otherLine.bytes) {segments : List PlanSegment}
    (within : ∀ segment ∈ segments, segment ∈ compiled.plan.segments)
    (parts : PartsIgnored compiled.plan chunks) (otherParts : PartsIgnored compiled.plan others)
    (alike : LeftAlike compiled.plan chunks others) (onLine : OnLine line taken chunks reader)
    (onOther : OnLine otherLine otherTaken others other) :
    (outcome (Scan.runSegments compiled segments) reader).1 =
      (outcome (Scan.runSegments compiled segments) other).1 := by
  induction segments generalizing chunks others taken otherTaken reader other with
  | nil => rfl
  | cons segment rest ih =>
      rw [Scan.runSegments]
      rcases runSegment_alike ofDefaults suited before bytes (within segment List.mem_cons_self)
        parts otherParts alike onLine onOther with
        ⟨value, left, otherLeft, _, _, after, otherAfter, done, otherDone, still, otherStill,
          leftParts, otherLeftParts, leftAlike⟩ | ⟨stop, after, otherAfter, stopped, otherStopped⟩
      · have later := ih (fun segment member => within segment (List.mem_cons_of_mem _ member))
          leftParts otherLeftParts leftAlike still otherStill
        rw [Scan.outcome_bind_of_ok done, Scan.outcome_bind_of_ok otherDone,
          Scan.outcome_bind_pure, Scan.outcome_bind_pure, later]
      · rw [Scan.outcome_bind_of_error stopped, Scan.outcome_bind_of_error otherStopped]

end Lines

/-! ## The lines of chunks -/

/-- The iteration over the lines of chunks. -/
def LineIteration.ofChunks (plan : Plan) (errors : LineErrors) (chunks : List (List UInt8)) :
    LineIteration :=
  { compiled := plan.compile, scan := { errors }, reader := (Reader.ofChunks chunks).byLine }

theorem LineIteration.ofChunks_eq_start {compiled : CompiledPlan}
    (compiles : compiled.plan.compile = .ok compiled) (errors : LineErrors)
    (chunks : List (List UInt8)) :
    ofChunks compiled.plan errors chunks = start compiled errors (Reader.ofChunks chunks).base := by
  rw [ofChunks, compiles]
  rfl

/-- A line of chunks, alone. -/
theorem Line.exists_alone {chunks : List (List UInt8)} (solid : ∀ chunk ∈ chunks, chunk ≠ [])
    (number : Nat) :
    OnLine (nth 0 chunks number).alone [] (nth 0 chunks number).chunks
      (Reader.ofChunks (nth 0 chunks number).chunks).byLine := by
  have stands := ByteReader.stands_ofChunks solid
  obtain ⟨reader, onLine⟩ := exists_onLine_nth stands.steady number
  rw [stands.chunks_eq, stands.consumed_eq] at onLine
  exact onLine.alone

theorem aloneOutcome_ok (compiled : CompiledPlan) (line : Line) :
    aloneOutcome (.ok compiled) line =
      (outcome (Scan.runSegments compiled compiled.plan.segments)
        (Reader.ofChunks line.chunks).byLine).1.map Scan.bySlot := by
  rw [aloneOutcome, Scan.execute, Scan.run, Scan.outcome_bind_pure]

theorem outcomeOf_injective {one other : LineResult} (same : outcomeOf one = outcomeOf other) :
    one = other := by
  rcases one with one | one <;> rcases other with other | other <;>
    simp_all [outcomeOf, Except.mapError]

open LineIteration in
/-- When no chunk ends where it matters to the plan, the lines come to the same. -/
theorem inStep_ofChunks {plan : Plan} (ofTokens : plan.OfTokens) {bytes : List UInt8}
    {first second : List (List UInt8)} (firstCuts : Cuts bytes first)
    (secondCuts : Cuts bytes second)
    (unseen : ∀ ending : LineEnding,
      plan.Ignores ending ∨ ending.KeptBy first ∧ ending.KeptBy second) (errors : LineErrors) :
    InStep Eq (.ofChunks plan errors first) (.ofChunks plan errors second) := by
  obtain ⟨compiled, compiles, rfl, ofDefaults, suited⟩ := ofTokens.suited
  have stands := ByteReader.stands_ofChunks firstCuts.solid
  have otherStands := ByteReader.stands_ofChunks secondCuts.solid
  have rest : (Reader.ofChunks first).base.rest = bytes := by
    rw [ByteReader.rest, stands.chunks_eq, firstCuts.flatten_eq]
  have otherRest : (Reader.ofChunks second).base.rest = bytes := by
    rw [ByteReader.rest, otherStands.chunks_eq, secondCuts.flatten_eq]
  rw [ofChunks_eq_start compiles, ofChunks_eq_start compiles]
  refine inStep_start stands.steady otherStands.steady (by rw [rest, otherRest]) ?_ errors
  rw [stands.consumed_eq, stands.chunks_eq, otherStands.consumed_eq, otherStands.chunks_eq]
  intro number result otherResult echoes otherEchoes _
  have lines : (Line.nth 0 first number).bytes = (Line.nth 0 second number).bytes := by
    rw [Line.bytes_nth, Line.bytes_nth, firstCuts.flatten_eq, secondCuts.flatten_eq]
  have places : (Line.nth 0 first number).before = (Line.nth 0 second number).before := by
    rw [Line.before_nth, Line.before_nth, firstCuts.flatten_eq, secondCuts.flatten_eq]
  have alone : aloneOutcome (.ok compiled) (.nth 0 first number) =
      aloneOutcome (.ok compiled) (.nth 0 second number) := by
    rw [aloneOutcome_ok, aloneOutcome_ok]
    have onLine := Line.exists_alone firstCuts.solid number
    have onOther := Line.exists_alone secondCuts.solid number
    have before : (Line.nth 0 first number).alone.before = (Line.nth 0 second number).alone.before :=
      rfl
    have bytes : (Line.nth 0 first number).alone.bytes = (Line.nth 0 second number).alone.bytes :=
      lines
    exact congrArg _ (runSegments_alike ofDefaults suited before bytes (fun _ => id)
      (fun ending => (unseen ending).imp_right fun kept => kept.1 number)
      (fun ending => (unseen ending).imp_right fun kept => kept.2 number) (.same lines) onLine
      onOther)
  rw [← places, ← alone] at otherEchoes
  obtain rfl := outcomeOf_injective (echoes.unique otherEchoes)
  cases result with
  | ok values => exact .values values
  | error diagnostic => exact .faults rfl

/-! ## Chunks that part an ending -/

/-- A text and the end of a line, each a literal. -/
def Plan.spelling (text : List Char) (ending : LineEnding) : Plan :=
  ⟨[.literal (String.ofList text), .literal (String.ofList ending.text)], [], 0, ""⟩

theorem Plan.bind_spelling (text : List Char) (ending : LineEnding) :
    Plan.bind [.literal (String.ofList text), .literal (String.ofList ending.text)] {} =
      .ok (spelling text ending) := by
  simp [Plan.bind, Binding.faults, Binding.resolve, Binding.boundCaptures, Binding.nameFaults,
    Binding.positionFaults, Binding.positionalReferences, Binding.slotFaults, Binding.takenSlots,
    Binding.repeated, Binding.missingSlots, Binding.duplicateNames, Binding.unusedRules,
    Binding.untypedCaptures, Binding.missingPatterns, RuleList.flattened, RuleList.names,
    Binding.planSegments, spelling]

/-- What the plan that spells a text and an ending compiles to. -/
def CompiledPlan.spelling (text : List Char) (ending : LineEnding) : CompiledPlan :=
  ⟨.spelling text ending, []⟩

theorem CompiledPlan.compile_spelling (text : List Char) (ending : LineEnding) :
    (CompiledPlan.spelling text ending).plan.compile = .ok (.spelling text ending) := rfl

theorem suited_spelling (text : List Char) (ending : LineEnding) (chunks : List (List UInt8)) :
    Suited (.spelling text ending) chunks :=
  ⟨fun _ bound => absurd bound (Nat.not_lt_zero _),
    .inl fun _ bound => absurd bound (Nat.not_lt_zero _)⟩

section Spelling

variable {line : Line} {text : List Char} {ending : LineEnding} {reader : Reader}

/-- The text is taken off the line, and the ending is looked for in what is left then. -/
theorem exists_left_of_spelling (onLine : OnLine line [] line.chunks reader)
    (split : line.bytes = Utf8.encode text ++ ending.bytes) :
    ∃ left taken after, Consumes NothingShown line.chunks text left ∧
      OnLine line taken left after ∧
        (outcome (Scan.runSegments (.spelling text ending) (Plan.spelling text ending).segments)
          reader).1 =
          (outcome (Scan.runSegments (.spelling text ending)
            [.literal (String.ofList ending.text)]) after).1 := by
  have standing : (line.stream line.chunks).remaining =
      Utf8.encode ((String.ofList text).toList ++ ending.text) := by
    rw [String.toList_ofList, Text.Utf8.encode_append]
    exact split
  have agrees : Scan.AgreesOnLine NothingShown line line.chunks _ _ :=
    agreesOnLine_runSegment (suited_spelling text ending line.chunks)
      (.literal (String.ofList text))
  obtain ⟨taken, left, _, after, behind, consumes, still, done⟩ :=
    agrees.of_ok onLine (Whole.runSegment_literal_of_standing standing)
  obtain rfl : text = taken := by
    obtain ⟨rest, whole, _⟩ := consumes.exists_rest
    have offsets := congrArg Stream.offset behind
    rw [String.toList_ofList] at offsets
    have length := Nat.add_left_cancel offsets
    exact Text.Utf8.encode_injective (List.append_inj_left (split.symm.trans whole) length)
  refine ⟨left, _, after, consumes, still, ?_⟩
  rw [Plan.spelling, Scan.runSegments, Scan.outcome_bind_of_ok done, Scan.outcome_bind_pure]
  exact congrFun Except.map_id _

/-- The ending is found when it is what is left. -/
theorem outcome_ending_of_left {left : List (List UInt8)} {taken : List UInt8}
    (onLine : OnLine line taken left reader) (rest : left.flatten = ending.bytes) :
    (outcome (Scan.runSegments (.spelling text ending) [.literal (String.ofList ending.text)])
      reader).1 = .ok [] := by
  have standing : (line.stream left).remaining =
      Utf8.encode ((String.ofList ending.text).toList ++ []) := by
    rw [String.toList_ofList, List.append_nil]
    exact rest
  have agrees : Scan.AgreesOnLine NothingShown line left _ _ :=
    agreesOnLine_runSegment (suited_spelling text ending left)
      (.literal (String.ofList ending.text))
  obtain ⟨_, _, _, after, _, _, _, done⟩ :=
    agrees.of_ok onLine (Whole.runSegment_literal_of_standing standing)
  rw [Scan.runSegments, Scan.outcome_bind_of_ok done]
  rfl

/-- The ending is missed when it has been taken along. -/
theorem outcome_ending_of_taken {left : List (List UInt8)} {taken : List UInt8}
    (onLine : OnLine line taken left reader) (rest : left.flatten = [])
    (some : ending.bytes ≠ []) :
    ∃ stop, (outcome (Scan.runSegments (.spelling text ending)
      [.literal (String.ofList ending.text)]) reader).1 = .error stop := by
  have missed : Whole.matchRemaining (String.ofList ending.text)
      (String.ofList ending.text).toList (line.stream left) =
        .error (.of (.literalMismatch (String.ofList ending.text))) := by
    have nothing : Utf8.decode (line.stream left).remaining = ([], .empty) := by
      rw [Line.stream, rest, Text.Utf8.decode_nil]
    apply Whole.matchRemaining_of_mismatch
    · rw [nothing, String.toList_ofList, List.prefix_nil]
      exact mt Text.Utf8.encode_eq_nil_iff.mpr some
    · simp [nothing]
  have agrees : Scan.AgreesOnLine NothingShown line left _ _ :=
    agreesOnLine_runSegment (suited_spelling text ending left)
      (.literal (String.ofList ending.text))
  have failed : Whole.runSegment (.spelling text ending) (.literal (String.ofList ending.text))
      (line.stream left) = .error (.of (.literalMismatch (String.ofList ending.text))) := by
    rw [Whole.runSegment, Whole.bind, missed]
  obtain ⟨after, stopped⟩ := agrees.of_error onLine failed
  exact ⟨_, congrArg Prod.fst (Scan.outcome_bind_of_error stopped _)⟩

end Spelling

/-- Where a border parts the ending from the text, both are found. -/
theorem aloneOutcome_of_parted {chunks : List (List UInt8)} (solid : ∀ chunk ∈ chunks, chunk ≠ [])
    {number : Nat} {front back : List (List UInt8)} {text : List Char} {first : List UInt8}
    {ending : LineEnding} (pieces : (Line.nth 0 chunks number).chunks = front ++ back)
    (before : front.flatten = Utf8.encode text ++ first) (more : back.flatten ≠ [])
    (ends : first ++ back.flatten = ending.bytes) :
    aloneOutcome (.ok (.spelling text ending)) (.nth 0 chunks number) = .ok [] := by
  have onLine := Line.exists_alone solid number
  have split : (Line.nth 0 chunks number).alone.bytes = Utf8.encode text ++ ending.bytes := by
    rw [← ends, ← List.append_assoc, ← before, ← List.flatten_append, ← pieces]
    rfl
  obtain ⟨left, _, after, consumes, still, same⟩ := exists_left_of_spelling onLine split
  have rest : left.flatten = ending.bytes := by
    rw [← ends]
    rw [show (Line.nth 0 chunks number).alone.chunks = front ++ back from pieces] at consumes
    exact consumes.of_parted before more
  have found := same.trans (outcome_ending_of_left still rest)
  rw [aloneOutcome_ok]
  exact (congrArg (Except.map Scan.bySlot) found).trans (by simp [Except.map, Scan.bySlot])

/-- In one chunk, the text takes the ending along. -/
theorem aloneOutcome_of_few {chunks : List (List UInt8)} (solid : ∀ chunk ∈ chunks, chunk ≠ [])
    (few : chunks.length ≤ 1) {number : Nat} {text : List Char} {ending : LineEnding}
    (begun : text ≠ []) (some : ending.bytes ≠ [])
    (split : (Line.nth 0 chunks number).bytes = Utf8.encode text ++ ending.bytes) :
    ∃ stop, aloneOutcome (.ok (.spelling text ending)) (.nth 0 chunks number) = .error stop := by
  have onLine := Line.exists_alone solid number
  obtain ⟨left, _, after, consumes, still, same⟩ := exists_left_of_spelling onLine split
  have whole : ¬ ending.Parted (Line.nth 0 chunks number).chunks :=
    LineEnding.not_parted_of_length_le (Line.length_chunks_nth_le few 0 number)
  have rest : left.flatten = [] := (consumes.unparted whole).2 begun split
  obtain ⟨stop, missed⟩ := outcome_ending_of_taken still rest some
  refine ⟨stop, ?_⟩
  rw [aloneOutcome_ok]
  exact congrArg (Except.map Scan.bySlot) (same.trans missed)

theorem Scan.Echoes.step_ne {number offset otherNumber otherOffset : Nat} {values : List Value}
    {stop : Scan.Stop} {result other : LineResult}
    (echoes : Scan.Echoes number offset (.ok values) (outcomeOf result))
    (otherEchoes : Scan.Echoes otherNumber otherOffset (.error stop) (outcomeOf other)) :
    LineIteration.stepOf (outcomeOf result) ≠ LineIteration.stepOf (outcomeOf other) := by
  intro same
  rcases result with fault | values
  · cases echoes
  · rcases other with fault | others
    · cases same
    · cases otherEchoes

namespace LineIteration

theorem exists_result_of_ofChunks {compiled : CompiledPlan}
    (compiles : compiled.plan.compile = .ok compiled) {chunks : List (List UInt8)}
    (solid : ∀ chunk ∈ chunks, chunk ≠ []) {number : Nat}
    (bound : number < (linesOf chunks.flatten).length) :
    ∃ result, ((ofChunks compiled.plan .raise chunks).after number).next.1 =
        stepOf (outcomeOf result) ∧
      Scan.Echoes (number + 1) (Line.nth 0 chunks number).before
        (aloneOutcome (.ok compiled) (.nth 0 chunks number)) (outcomeOf result) := by
  have stands := ByteReader.stands_ofChunks solid
  rw [← stands.chunks_eq] at bound
  have brings := exists_result_of_raise compiled stands.steady bound
  rw [stands.chunks_eq, stands.consumed_eq, ← ofChunks_eq_start compiles] at brings
  exact brings

/-- When a border parts an ending from the text before it, the plan that spells both tells the
chunks from one chunk. -/
theorem exists_next_ne_of_parted {bytes : List UInt8} {chunks one : List (List UInt8)}
    (cuts : Cuts bytes chunks) (oneCuts : Cuts bytes one) (few : one.length ≤ 1)
    {ending : LineEnding} (parts : ¬ ending.KeptBy chunks) :
    ∃ text number,
      ((ofChunks (.spelling text ending) .raise chunks).after number).next.1 ≠
        ((ofChunks (.spelling text ending) .raise one).after number).next.1 := by
  obtain ⟨number, parted⟩ := not_forall.mp parts
  obtain ⟨front, back, text, first, pieces, begun, before, more, ends⟩ := not_not.mp parted
  have some : ending.bytes ≠ [] := by
    rw [← ends]
    exact List.append_ne_nil_of_right_ne_nil first more
  have split : (Line.nth 0 chunks number).bytes = Utf8.encode text ++ ending.bytes := by
    rw [← ends, ← List.append_assoc, ← before, ← List.flatten_append, ← pieces]
    rfl
  have bound : number < (linesOf chunks.flatten).length := by
    by_contra past
    rw [Line.bytes_nth, List.getD_eq_getElem?_getD,
      List.getElem?_eq_none (Nat.le_of_not_lt past)] at split
    exact some (List.append_eq_nil_iff.mp split.symm).2
  have same : one.flatten = chunks.flatten := oneCuts.flatten_eq.trans cuts.flatten_eq.symm
  have oneSplit : (Line.nth 0 one number).bytes = Utf8.encode text ++ ending.bytes := by
    rw [← split, Line.bytes_nth, Line.bytes_nth, same]
  have compiles := CompiledPlan.compile_spelling text ending
  obtain ⟨result, brings, echoes⟩ := exists_result_of_ofChunks compiles cuts.solid bound
  obtain ⟨other, otherBrings, otherEchoes⟩ :=
    exists_result_of_ofChunks compiles oneCuts.solid (same ▸ bound)
  obtain ⟨stop, missed⟩ := aloneOutcome_of_few oneCuts.solid few begun some oneSplit
  rw [aloneOutcome_of_parted cuts.solid pieces before more ends] at echoes
  rw [missed] at otherEchoes
  refine ⟨text, number, ?_⟩
  rw [show Plan.spelling text ending = (CompiledPlan.spelling text ending).plan from rfl, brings,
    otherBrings]
  exact echoes.step_ne otherEchoes

theorem exists_cuts_of_length_le (bytes : List UInt8) :
    ∃ one, Cuts bytes one ∧ one.length ≤ 1 := by
  by_cases empty : bytes = []
  · exact ⟨[], ⟨by simp, empty.symm⟩, Nat.zero_le 1⟩
  · exact ⟨[bytes], ⟨by simpa using empty, List.flatten_singleton⟩, Nat.le_refl 1⟩

/-- Plans of token types come to the same line by line, however the bytes are cut, as long as no
border between chunks stands right before or within an ending of a line that some literal of the
plan begins with or, when that is a carriage return and a line feed, a single character may begin
with.  Chunks come to the same as one chunk with every such plan only if no border stands there. -/
theorem same_in_chunks_that_keep_endings {bytes : List UInt8} {chunks : List (List UInt8)}
    (cuts : Cuts bytes chunks) :
    (∀ (plan : Plan) (others : List (List UInt8)), plan.OfTokens → Cuts bytes others →
      (∀ ending : LineEnding,
        plan.Ignores ending ∨ ending.KeptBy chunks ∧ ending.KeptBy others) →
      ∀ (errors : LineErrors) (count : Nat),
        ((ofChunks plan errors chunks).after count).next.1 =
            ((ofChunks plan errors others).after count).next.1 ∧
          ((ofChunks plan errors chunks).after count).scan =
            ((ofChunks plan errors others).after count).scan) ∧
    ((∀ (segments : List Segment) (rules : RuleList) (plan : Plan) (one : List (List UInt8)),
        Plan.bind segments rules = .ok plan → plan.OfTokens → Cuts bytes one → one.length ≤ 1 →
        ∀ (errors : LineErrors) (count : Nat),
          ((ofChunks plan errors chunks).after count).next.1 =
            ((ofChunks plan errors one).after count).next.1) ↔
      ∀ ending : LineEnding, ending.KeptBy chunks) := by
  have same (plan : Plan) (others : List (List UInt8)) (ofTokens : plan.OfTokens)
      (otherCuts : Cuts bytes others) (unseen : ∀ ending : LineEnding,
        plan.Ignores ending ∨ ending.KeptBy chunks ∧ ending.KeptBy others)
      (errors : LineErrors) (count : Nat) :
      ((ofChunks plan errors chunks).after count).next.1 =
          ((ofChunks plan errors others).after count).next.1 ∧
        ((ofChunks plan errors chunks).after count).scan =
          ((ofChunks plan errors others).after count).scan := by
    have inStep := (inStep_ofChunks ofTokens cuts otherCuts unseen errors).after count
    exact ⟨inStep.next.1.eq, inStep.scans.eq⟩
  refine ⟨same, ?_, ?_⟩
  · intro all ending
    by_contra parts
    obtain ⟨one, oneCuts, few⟩ := exists_cuts_of_length_le bytes
    obtain ⟨text, number, differ⟩ := exists_next_ne_of_parted cuts oneCuts few parts
    have ofTokens : (Plan.spelling text ending).OfTokens := by
      rintro rule ⟨⟩
    exact differ
      (all _ _ _ one (Plan.bind_spelling text ending) ofTokens oneCuts few .raise number)
  · intro kept _ _ plan one _ ofTokens oneCuts few errors count
    have oneKept (ending : LineEnding) : ending.KeptBy one := fun number =>
      LineEnding.not_parted_of_length_le (Line.length_chunks_nth_le few 0 number)
    exact (same plan one ofTokens oneCuts (fun ending => .inr ⟨kept ending, oneKept ending⟩) errors
      count).1

/-- A text and a line feed, cut between the two: a plan that looks for the text alone does not tell
that from one chunk, but some plan does. -/
theorem same_in_chunks_that_keep_endings_of_cut_line :
    (∀ (errors : LineErrors) (count : Nat),
      ((ofChunks ⟨[.literal "a"], [], 0, "a"⟩ errors [[0x61], [0x0A]]).after count).next.1 =
          ((ofChunks ⟨[.literal "a"], [], 0, "a"⟩ errors [[0x61, 0x0A]]).after count).next.1 ∧
        ((ofChunks ⟨[.literal "a"], [], 0, "a"⟩ errors [[0x61], [0x0A]]).after count).scan =
          ((ofChunks ⟨[.literal "a"], [], 0, "a"⟩ errors [[0x61, 0x0A]]).after count).scan) ∧
    ¬ ∀ (segments : List Segment) (rules : RuleList) (plan : Plan) (one : List (List UInt8)),
        Plan.bind segments rules = .ok plan → plan.OfTokens → Cuts [0x61, 0x0A] one →
        one.length ≤ 1 → ∀ (errors : LineErrors) (count : Nat),
          ((ofChunks plan errors [[0x61], [0x0A]]).after count).next.1 =
            ((ofChunks plan errors one).after count).next.1 := by
  have cuts : Cuts [0x61, 0x0A] [[0x61], [0x0A]] := ⟨by decide, rfl⟩
  have ignores (ending : LineEnding) :
      (⟨[.literal "a"], [], 0, "a"⟩ : Plan).Ignores ending := by
    cases ending <;> simp [Plan.Ignores, Plan.PassesOver, LineEnding.text]
  have parted : LineEnding.lineFeed.Parted (Line.nth 0 [[0x61], [0x0A]] 0).chunks :=
    ⟨[[0x61]], [[0x0A]], ['a'], [], by decide, by decide, by decide, by decide, by decide⟩
  constructor
  · exact (same_in_chunks_that_keep_endings cuts).1 _ [[0x61, 0x0A]] (by rintro rule ⟨⟩)
      ⟨by decide, rfl⟩ fun ending => .inl (ignores ending)
  · intro all
    exact (same_in_chunks_that_keep_endings cuts).2.mp all .lineFeed 0 parted

/-- A carriage return that ends a read is the single character behind the text before it.  In one
chunk it goes with the line feed. -/
theorem carriage_return_cut_off :
    let plan : Plan := ⟨[.literal "a", .capture (some 0) 0], [.default .character], 1, "a\x7b\x7d"⟩
    Plan.build "a\x7b\x7d" { positional := [.default .character] } = .ok plan ∧
      plan.OfTokens ∧ Cuts [0x61, 0x0D, 0x0A] [[0x61, 0x0D], [0x0A]] ∧
      Cuts [0x61, 0x0D, 0x0A] [[0x61, 0x0D, 0x0A]] ∧
      (ofChunks plan .raise [[0x61, 0x0D], [0x0A]]).next.1 = .values [.text "\r"] ∧
      (ofChunks plan .raise [[0x61, 0x0D, 0x0A]]).next.1 =
        .stopped (.fault ((Diagnostic.of (.patternMismatch ".")).withNote "on line 1")) := by
  refine ⟨by cbv, ?_, ⟨by decide, rfl⟩, ⟨by decide, rfl⟩, by cbv, by cbv⟩
  rintro rule member
  exact ⟨.character, by decide, List.mem_singleton.mp member⟩

end LineIteration

end Unformat
