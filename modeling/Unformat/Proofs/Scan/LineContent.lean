import Unformat.Proofs.Scan.LineEnds

/-!
# The content of a line

A plan whose literals have no line break in them sees of a line what stands before its end, as long
as it does not want a single character of an empty line.  So over a line reader it comes to what it
comes to over the bare content.
-/

namespace Unformat

open Scan (Suited aloneOutcome outcome execute agreesOnLine_runSegment)
open Text (Utf8.decode Utf8.encode)

/-- No literal of the plan has a carriage return or a line feed in it. -/
def Plan.WithoutBreaks (plan : Plan) : Prop :=
  ∀ literal, .literal literal ∈ plan.segments → '\r' ∉ literal.toList ∧ '\n' ∉ literal.toList

/-! ## Streams that face an ending -/

/-- Before any of the endings, no character can be read from the bytes: there are none, or the same
ones are malformed. -/
def Unread (endings : LineEnding → Prop) (rest : List UInt8) : Prop :=
  rest = [] ∨ ∃ offending, ∀ ending, endings ending →
    Utf8.decode (rest ++ ending.bytes) = ([], .malformed offending)

/-- A stream begins with a text and with bytes behind it, and ends in one of the endings. -/
structure Faces (endings : LineEnding → Prop) (offset : Nat) (text : List Char)
    (rest : List UInt8) (stream : Stream) : Prop where
  exists_ending : ∃ ending, endings ending ∧
    stream.remaining = Utf8.encode text ++ (rest ++ ending.bytes)
  offset_eq : rest ≠ [] → stream.offset = offset

section Streams

variable {endings : LineEnding → Prop} {offset : Nat} {text : List Char} {rest : List UInt8}
  {stream : Stream}

theorem Faces.behind {taken : List Char} (faces : Faces endings offset (taken ++ text) rest stream) :
    Faces endings (offset + (Utf8.encode taken).length) text rest (Whole.behind stream taken) := by
  obtain ⟨⟨ending, given, remaining⟩, offset_eq⟩ := faces
  refine ⟨⟨ending, given, ?_⟩, fun solid => ?_⟩
  · rw [Whole.behind, remaining, Text.Utf8.encode_append, List.append_assoc, List.drop_left]
  · rw [Whole.behind, offset_eq solid]

theorem Faces.decode_of_nil (faces : Faces endings offset text [] stream) :
    ∃ ending, endings ending ∧ Utf8.decode stream.remaining = (text ++ ending.text, .empty) := by
  obtain ⟨ending, given, remaining⟩ := faces.exists_ending
  refine ⟨ending, given, ?_⟩
  rw [remaining, List.nil_append, LineEnding.bytes, ← Text.Utf8.encode_append,
    Text.Utf8.decode_encode]

theorem Faces.decode_of_malformed (faces : Faces endings offset text rest stream)
    {offending : List UInt8} (malformed : ∀ ending, endings ending →
      Utf8.decode (rest ++ ending.bytes) = ([], .malformed offending)) :
    Utf8.decode stream.remaining = (text, .malformed offending) ∧ stream.offset = offset := by
  obtain ⟨ending, given, remaining⟩ := faces.exists_ending
  have here := malformed ending given
  constructor
  · rw [remaining, Text.Utf8.decode_encode_append, here, List.append_nil]
  · apply faces.offset_eq
    rintro rfl
    rw [List.nil_append, LineEnding.bytes, Text.Utf8.decode_encode] at here
    exact Text.Utf8.Remainder.noConfusion (congrArg Prod.snd here)

/-- Whichever stream of these is there, a step comes to the same value and takes the same part of
the text, or comes to the same fault. -/
def Unaware {α : Type} (endings : LineEnding → Prop) (offset : Nat) (text : List Char)
    (rest : List UInt8) (step : Whole α) : Prop :=
  (∃ value taken left, text = taken ++ left ∧
    ∀ stream, Faces endings offset text rest stream →
      step stream = .ok (value, Whole.behind stream taken)) ∨
  ∃ diagnostic, ∀ stream, Faces endings offset text rest stream → step stream = .error diagnostic

variable {α β : Type}

theorem unaware_value (value : α) : Unaware endings offset text rest (Whole.value value) :=
  .inl ⟨value, [], text, rfl, fun _ _ => rfl⟩

theorem unaware_stop (fault : ScanFault) :
    Unaware endings offset text rest (Whole.stop fault : Whole α) :=
  .inr ⟨_, fun _ _ => rfl⟩

theorem Unaware.bind {step : Whole α} {next : α → Whole β}
    (first : Unaware endings offset text rest step)
    (later : ∀ value taken left, text = taken ++ left →
      Unaware endings (offset + (Utf8.encode taken).length) left rest (next value)) :
    Unaware endings offset text rest (Whole.bind step next) := by
  rcases first with ⟨value, taken, left, rfl, came⟩ | ⟨diagnostic, failed⟩
  · rcases later value taken left rfl with ⟨result, more, behind, rfl, comes⟩ | ⟨diagnostic, fails⟩
    · refine .inl ⟨result, taken ++ more, behind, (List.append_assoc _ _ _).symm, ?_⟩
      intro stream faces
      rw [Whole.bind, came stream faces, ← Whole.behind_append]
      exact comes _ faces.behind
    · refine .inr ⟨diagnostic, fun stream faces => ?_⟩
      rw [Whole.bind, came stream faces]
      exact fails _ faces.behind
  · refine .inr ⟨diagnostic, fun stream faces => ?_⟩
    rw [Whole.bind, failed stream faces]

/-- A text without line breaks stands at the front whatever the ending is. -/
theorem prefix_append_ending_iff {literal : List Char} (noReturn : '\r' ∉ literal)
    (noFeed : '\n' ∉ literal) (ending : LineEnding) :
    literal <+: text ++ ending.text ↔ literal <+: text := by
  constructor
  · intro standing
    rcases List.prefix_or_prefix_of_prefix standing (List.prefix_append text ending.text) with
      within | ⟨more, rfl⟩
    · exact within
    · rw [List.prefix_append_right_inj] at standing
      have none : more = [] := by
        cases more with
        | nil => rfl
        | cons c more =>
            have member : c ∈ ending.text := standing.subset List.mem_cons_self
            cases ending <;> simp_all [LineEnding.text]
      simp [none]
  · exact fun standing => standing.trans (List.prefix_append _ _)

theorem unaware_matchRemaining (unread : Unread endings rest) {literal : String}
    (noReturn : '\r' ∉ literal.toList) (noFeed : '\n' ∉ literal.toList) :
    Unaware endings offset text rest (Whole.matchRemaining literal literal.toList) := by
  by_cases standing : literal.toList <+: text
  · obtain ⟨left, rfl⟩ := standing
    refine .inl ⟨(), literal.toList, left, rfl, fun stream faces => ?_⟩
    have found : literal.toList <+: (Utf8.decode stream.remaining).1 := by
      obtain ⟨ending, _, remaining⟩ := faces.exists_ending
      rw [remaining, Text.Utf8.decode_encode_append, List.append_assoc]
      exact List.prefix_append _ _
    simp only [Whole.matchRemaining, found, if_true]
  · right
    rcases unread with rfl | ⟨offending, malformed⟩
    · refine ⟨.of (.literalMismatch literal), fun stream faces => ?_⟩
      obtain ⟨ending, _, decoded⟩ := faces.decode_of_nil
      apply Whole.matchRemaining_of_mismatch
      · rwa [decoded, prefix_append_ending_iff noReturn noFeed]
      · simp [decoded]
    · refine ⟨if text <+: literal.toList then
          .of (.malformed offending (some (offset + (Utf8.encode text).length)))
        else .of (.literalMismatch literal), fun stream faces => ?_⟩
      obtain ⟨decoded, place⟩ := faces.decode_of_malformed malformed
      simp only [Whole.matchRemaining, decoded, place, if_neg standing]
      split <;> rfl

/-- A capture does not see the ending when its matcher does not. -/
theorem unaware_matchPattern_of_judged {matcher : Matcher} (takes : Scan.TakesText matcher)
    (judged : ∀ stream, Faces endings offset text rest stream →
      (∀ offending, Utf8.decode stream.remaining ≠ ([], .malformed offending)) ∧
        text <+: (Utf8.decode stream.remaining).1 ∧
          ∀ length, matcher (Utf8.decode stream.remaining).1 = .matched length ↔
            matcher text = .matched length)
    (source : String) :
    Unaware endings offset text rest (Whole.matchPattern matcher source) := by
  by_cases found : ∃ length, matcher text = .matched length
  · obtain ⟨length, matched⟩ := found
    refine .inl ⟨text.take length, text.take length, text.drop length,
      (List.take_append_drop length text).symm, fun stream faces => ?_⟩
    obtain ⟨readable, ⟨more, split⟩, same⟩ := judged stream faces
    have within := (takes text length matched).2
    have taken : (Utf8.decode stream.remaining).1.take length = text.take length := by
      rw [← split, List.take_append_of_le_length within]
    simp only [Whole.matchPattern_of_readable readable, (same length).mpr matched, taken]
  · refine .inr ⟨.of (.patternMismatch source), fun stream faces => ?_⟩
    obtain ⟨readable, _, same⟩ := judged stream faces
    rw [Whole.matchPattern_of_readable readable]
    cases verdict : matcher (Utf8.decode stream.remaining).1 with
    | matched length => exact (found ⟨length, (same length).mp verdict⟩).elim
    | starved => rfl
    | failed => rfl

theorem unaware_matchPattern {rule : Rule} {matcher : Matcher} {pattern : Pattern}
    (runs : RunsDefault rule matcher pattern) (unread : Unread endings rest)
    (blind : rule = .default .character → endings .both → text ≠ [] ∨ rest ≠ [])
    (source : String) :
    Unaware endings offset text rest (Whole.matchPattern matcher source) := by
  rcases unread with rfl | ⟨offending, malformed⟩
  · apply unaware_matchPattern_of_judged runs.takes
    intro stream faces
    obtain ⟨ending, given, decoded⟩ := faces.decode_of_nil
    rw [decoded]
    refine ⟨by simp, List.prefix_append _ _, runs.matched_append_iff ?_⟩
    by_cases single : rule = .default .character
    · right
      by_cases both : ending = .both
      · subst both
        exact .inr ((blind single given).resolve_right fun some => some rfl)
      · exact .inl both
    · exact .inl single
  · by_cases solid : text = []
    · subst solid
      refine .inr ⟨.of (.malformed offending (some offset)), fun stream faces => ?_⟩
      obtain ⟨decoded, rfl⟩ := faces.decode_of_malformed malformed
      simp only [Whole.matchPattern, decoded]
    · apply unaware_matchPattern_of_judged runs.takes
      intro stream faces
      obtain ⟨decoded, _⟩ := faces.decode_of_malformed malformed
      rw [decoded]
      exact ⟨by simp [solid], List.prefix_rfl, fun _ => Iff.rfl⟩

theorem unaware_convert (rule : Rule) (matched : List Char) :
    Unaware endings offset text rest (Whole.convert rule matched) := by
  unfold Whole.convert
  cases rule.type? with
  | none => exact unaware_value _
  | some type =>
      dsimp only
      cases type.conversion.apply matched with
      | ok value => exact unaware_value _
      | error reason => exact unaware_stop _

/-- A segment of a plan of default rules without line breaks does not see which ending is there,
unless it wants a single character and there is nothing else. -/
theorem unaware_runSegment {compiled : CompiledPlan} (ofDefaults : compiled.OfDefaults)
    (withoutBreaks : compiled.plan.WithoutBreaks) {segment : PlanSegment}
    (member : segment ∈ compiled.plan.segments) (unread : Unread endings rest)
    (blind : ∀ slot index, segment = .capture slot index →
      compiled.plan.rules[index]? = some (.default .character) → endings .both →
        text ≠ [] ∨ rest ≠ []) :
    Unaware endings offset text rest (Whole.runSegment compiled segment) := by
  cases segment with
  | literal literal =>
      obtain ⟨noReturn, noFeed⟩ := withoutBreaks literal member
      exact (unaware_matchRemaining unread noReturn noFeed).bind fun _ _ _ _ => unaware_value _
  | capture slot index =>
      rw [Whole.runSegment]
      cases found : compiled.plan.rules[index]? with
      | none => exact unaware_value _
      | some rule =>
          obtain ⟨pattern, runs⟩ := ofDefaults index rule found
          dsimp only
          refine (unaware_matchPattern runs unread ?_ _).bind fun matched _ _ _ =>
            (unaware_convert rule matched).bind fun _ _ _ _ => unaware_value _
          rintro rfl
          exact blind slot index rfl found

end Streams

/-! ## What is left of a line -/

/-- There is no carriage return and no line feed among the bytes. -/
def Unbroken (bytes : List UInt8) : Prop := carriageReturn ∉ bytes ∧ lineFeed ∉ bytes

theorem Unbroken.of_append {first second : List UInt8} (unbroken : Unbroken (first ++ second)) :
    Unbroken second :=
  ⟨fun member => unbroken.1 (List.mem_append_right first member),
    fun member => unbroken.2 (List.mem_append_right first member)⟩

theorem unbroken_encode {text : List Char} (noReturn : '\r' ∉ text) (noFeed : '\n' ∉ text) :
    Unbroken (Utf8.encode text) := by
  have absent {byte : UInt8} (small : byte.toNat < 0x80) (none : Char.ofNat byte.toNat ∉ text) :
      byte ∉ Utf8.encode text := by
    intro member
    obtain ⟨c, inside, spelled⟩ := List.mem_flatMap.mp member
    exact none (Text.Utf8.eq_of_mem_utf8EncodeChar small spelled ▸ inside)
  exact ⟨absent (by decide) noReturn, absent (by decide) noFeed⟩

theorem LineEnding.mem_bytes {ending : LineEnding} {byte : UInt8} (member : byte ∈ ending.bytes) :
    byte = carriageReturn ∨ byte = Unformat.lineFeed := by
  cases ending with
  | none => simp [bytes_none] at member
  | lineFeed =>
      right
      simpa [bytes_lineFeed] using member
  | both => simpa [bytes_both] using member

/-- Bytes without line breaks are not part of an ending. -/
theorem Unbroken.eq_nil_of_append {bytes : List UInt8} (unbroken : Unbroken bytes)
    {ending other : LineEnding} (same : bytes ++ ending.bytes = other.bytes) : bytes = [] := by
  refine List.eq_nil_iff_forall_not_mem.mpr fun byte member => ?_
  have inside : byte ∈ other.bytes := same ▸ List.mem_append_left _ member
  rcases LineEnding.mem_bytes inside with rfl | rfl
  · exact unbroken.1 member
  · exact unbroken.2 member

/-- Bytes without line breaks, with an ending behind them, are one line. -/
theorem Unbroken.firstLine_append {bytes : List UInt8} (unbroken : Unbroken bytes)
    (ending : LineEnding) : firstLine (bytes ++ ending.bytes) = bytes ++ ending.bytes := by
  cases ending with
  | none =>
      rw [LineEnding.bytes_none, List.append_nil]
      exact firstLine_of_not_mem unbroken.2
  | lineFeed => exact Unformat.firstLine_append unbroken.2 []
  | both =>
      have absent : lineFeed ∉ bytes ++ [carriageReturn] := by
        rw [List.mem_append, List.mem_singleton]
        exact not_or.mpr ⟨unbroken.2, by decide⟩
      have split : bytes ++ LineEnding.both.bytes = (bytes ++ [carriageReturn]) ++ [lineFeed] := by
        rw [LineEnding.bytes_both, List.append_assoc]
        rfl
      rw [split]
      exact Unformat.firstLine_append absent []

section Lines

variable {endings : LineEnding → Prop} {offset : Nat} {rest : List UInt8} {line : Line}
  {chunks : List (List UInt8)}

/-- When a text has been taken off a line, what is behind it is left, or nothing is left because the
ending alone was behind it and has gone along. -/
theorem Faces.of_consumes {taken text left : List Char} {after : List (List UInt8)}
    {wanted : List (List UInt8) → Prop}
    (faces : Faces endings offset (taken ++ left) rest (line.stream chunks))
    (unbroken : Unbroken (Utf8.encode left ++ rest))
    (within : chunks.flatten.length ≤ line.bytes.length)
    (behind : Whole.behind (line.stream chunks) taken = Whole.behind (line.stream chunks) text)
    (consumes : Consumes wanted chunks text after) :
    text = taken ∧
      (line.stream after = Whole.behind (line.stream chunks) taken ∨
        left = [] ∧ rest = [] ∧ taken ≠ [] ∧ after.flatten = []) := by
  obtain ⟨⟨ending, given, remaining⟩, _⟩ := faces
  obtain ⟨more, split, came⟩ := consumes.exists_rest
  have length : (Utf8.encode taken).length = (Utf8.encode text).length :=
    Nat.add_left_cancel (congrArg Stream.offset behind)
  have whole : Utf8.encode taken ++ (Utf8.encode left ++ rest ++ ending.bytes) =
      Utf8.encode text ++ more := by
    rw [← split, show chunks.flatten = _ from remaining]
    simp
  obtain ⟨same, rfl⟩ := List.append_inj whole length
  obtain rfl := Text.Utf8.encode_injective same
  refine ⟨rfl, ?_⟩
  rcases came with kept | ⟨solid, gone, last⟩
  · left
    exact Line.stream_behind within (kept ▸ split)
  · right
    obtain ⟨other, same⟩ := LineEnding.exists_of_lineEnd last
    have nothing := unbroken.eq_nil_of_append same
    rw [List.append_eq_nil_iff, Text.Utf8.encode_eq_nil_iff] at nothing
    exact ⟨nothing.1, nothing.2, solid, gone⟩

/-! ## A line and its content -/

/-- What a step over bytes that are all there comes to. -/
def Whole.result {α : Type} (step : Whole α) (stream : Stream) : Except Scan.Stop α :=
  ((step stream).map Prod.fst).mapError .fault

theorem Whole.result_bind_of_ok {α β : Type} {step : Whole α} {stream after : Stream} {value : α}
    (came : step stream = .ok (value, after)) (next : α → Whole β) :
    (step.bind next).result stream = (next value).result after := by
  rw [result, bind, came]
  rfl

theorem Whole.result_bind_value {α β : Type} (step : Whole α) (next : α → β) (stream : Stream) :
    (step.bind fun result => value (next result)).result stream =
      (step.result stream).map next := by
  rw [result, result, bind]
  rcases step stream with _ | _ <;> rfl

theorem Whole.Agrees.result_eq {α : Type} {whole : Whole α} {step : Scanning α}
    (agrees : Agrees whole step) {reader : Reader} (flowing : reader.Flowing) :
    (outcome step reader).1 = whole.result reader.stream := by
  have here := agrees reader flowing
  rw [result]
  cases came : whole reader.stream with
  | ok given =>
      simp only [came] at here
      obtain ⟨after, done, _⟩ := here
      rw [done]
      rfl
  | error diagnostic =>
      simp only [came] at here
      obtain ⟨after, stopped⟩ := here
      rw [stopped]
      rfl

variable {compiled : CompiledPlan} {text : List Char} {taken : List UInt8} {reader : Reader}

/-- Segments that want no single character come to the same on a line as on what its content is. -/
theorem outcome_runSegments_of_content (ofDefaults : compiled.OfDefaults)
    (withoutBreaks : compiled.plan.WithoutBreaks)
    (noCharacter : .default .character ∉ compiled.plan.rules)
    (suited : ∀ chunks, Suited compiled chunks) {segments : List PlanSegment}
    (within : ∀ segment ∈ segments, segment ∈ compiled.plan.segments)
    (unbroken : Unbroken (Utf8.encode text)) (onLine : OnLine line taken chunks reader)
    (faces : Faces (fun _ => True) offset text [] (line.stream chunks)) {bare : Stream}
    (bareFaces : Faces (fun _ => True) offset text [] bare) :
    (outcome (Scan.runSegments compiled segments) reader).1 =
      (Whole.runSegments compiled segments).result bare := by
  induction segments generalizing chunks taken reader text offset bare with
  | nil => rfl
  | cons segment segments ih =>
      have agrees : Scan.AgreesOnLine _ line chunks _ _ :=
        agreesOnLine_runSegment (suited chunks) segment
      have unaware : Unaware (fun _ => True) offset text [] (Whole.runSegment compiled segment) :=
        unaware_runSegment ofDefaults withoutBreaks (within segment List.mem_cons_self) (.inl rfl)
          fun _ _ _ single => absurd (List.mem_of_getElem? single) noCharacter
      rw [Scan.runSegments, Whole.runSegments]
      rcases unaware with ⟨value, front, left, rfl, came⟩ | ⟨diagnostic, failed⟩
      · obtain ⟨_, after, _, next, behind, consumes, still, done⟩ :=
          agrees.of_ok onLine (came _ faces)
        rw [Text.Utf8.encode_append] at unbroken
        have later := unbroken.of_append
        have facesAfter : Faces (fun _ => True) (offset + (Utf8.encode front).length) left []
            (line.stream after) := by
          obtain ⟨rfl, kept | ⟨rfl, _, _, gone⟩⟩ := faces.of_consumes
            (by rwa [List.append_nil]) onLine.length_flatten_le behind consumes
          · exact kept ▸ faces.behind
          · exact ⟨⟨.none, trivial, gone⟩, fun some => (some rfl).elim⟩
        have rest := ih (fun segment member => within segment (List.mem_cons_of_mem _ member)) later
          still facesAfter bareFaces.behind
        rw [Scan.outcome_bind_of_ok done, Whole.result_bind_of_ok (came bare bareFaces),
          Scan.outcome_bind_pure, Whole.result_bind_value, rest]
      · obtain ⟨after, stopped⟩ := agrees.of_error onLine (failed _ faces)
        rw [Scan.outcome_bind_of_error stopped, Whole.result, Whole.bind, failed bare bareFaces]
        rfl

end Lines

/-- A line is scanned as its content is, whatever its ending is and wherever the reads end. -/
theorem outcome_of_line_eq_outcome_of_content {plan : Plan} (ofTokens : plan.OfTokens)
    (noCharacter : .default .character ∉ plan.rules) (withoutBreaks : plan.WithoutBreaks)
    {content : List Char} (noReturn : '\r' ∉ content) (noFeed : '\n' ∉ content)
    (ending : LineEnding) {chunks bare : List (List UInt8)}
    (cuts : Cuts (Utf8.encode content ++ ending.bytes) chunks)
    (bareCuts : Cuts (Utf8.encode content) bare) :
    (outcome (execute plan.compile) (Reader.ofChunks chunks).byLine).1 =
      (outcome (execute plan.compile) (Reader.ofChunks bare)).1 := by
  obtain ⟨compiled, compiles, rfl, ofDefaults, suited⟩ := ofTokens.suited
  obtain ⟨_, alsoCompiles, _, conclusive, _⟩ := ofTokens.compile
  obtain rfl := Except.ok.inj (compiles.symm.trans alsoCompiles)
  have unbroken := unbroken_encode noReturn noFeed
  have stands := ByteReader.stands_ofChunks cuts.solid
  have onLine := OnLine.start stands.steady
  rw [stands.chunks_eq, stands.consumed_eq] at onLine
  have whole : (lineChunks chunks).flatten = Utf8.encode content ++ ending.bytes := by
    rw [flatten_lineChunks, cuts.flatten_eq, unbroken.firstLine_append]
  have faces : Faces (fun _ => True) 0 content []
      ((Line.first 0 chunks).stream (lineChunks chunks)) :=
    ⟨⟨ending, trivial, whole⟩, fun some => (some rfl).elim⟩
  have bareFaces : Faces (fun _ => True) 0 content [] (Reader.ofChunks bare).stream := by
    refine ⟨⟨.none, trivial, ?_⟩, fun some => (some rfl).elim⟩
    rw [Reader.stream, Reader.remaining_ofChunks bareCuts]
    simp [LineEnding.bytes_none]
  have same := outcome_runSegments_of_content ofDefaults withoutBreaks noCharacter suited
    (fun _ => id) unbroken onLine faces bareFaces
  have comes := (Whole.agrees_runSegments conclusive compiled.plan.segments).result_eq
    (Reader.flowing_ofChunks bareCuts)
  rw [compiles, execute, Scan.run, Scan.outcome_bind_pure, Scan.outcome_bind_pure, comes, ← same]
  rfl

/-- A line with a carriage return and a line feed, cut between the two. -/
theorem outcome_of_line_eq_outcome_of_content_cut_in_ending :
    let plan : Plan := ⟨[.literal "n=", .capture (some 0) 0], [.default .string], 1, "n=\x7b\x7d"⟩
    (outcome (execute plan.compile)
      (Reader.ofChunks [[0x6E, 0x3D], [0x61, 0x62, 0x0D], [0x0A]]).byLine).1 =
        (outcome (execute plan.compile) (Reader.ofChunks [[0x6E], [0x3D, 0x61, 0x62]])).1 := by
  have cuts : Cuts (Utf8.encode ['n', '=', 'a', 'b'] ++ LineEnding.both.bytes)
      [[0x6E, 0x3D], [0x61, 0x62, 0x0D], [0x0A]] := ⟨by decide, by decide⟩
  exact outcome_of_line_eq_outcome_of_content
    (fun _ member => ⟨.string, by simp [ScanType.tokens], List.mem_singleton.mp member⟩)
    (by simp [ScanType.character, ScanType.string]) (fun literal member => by simp_all)
    (by decide) (by decide) .both cuts ⟨by decide, by decide⟩

end Unformat
