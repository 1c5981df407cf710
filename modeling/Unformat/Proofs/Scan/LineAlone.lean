import Unformat.Proofs.Input.LineKeeping
import Unformat.Proofs.Scan.Reading
import Unformat.Scan.Lines

/-!
# A line alone

A run over a line reader sees its line alone: it comes to the same, step by step, as over a reader
that has the chunks of the line and nothing before or behind them.  Only the place of malformed
bytes is counted from the beginning of the stream.
-/

namespace Unformat

/-- The fault, when so many more bytes stand before the text. -/
def ScanFault.behind (count : Nat) : ScanFault → ScanFault
  | .malformedBytes data (some offset) => .malformedBytes data (some (count + offset))
  | fault => fault

/-- Two line readers have come to the same place, one of a line and one of the line alone. -/
structure Beside (line : Line) (chunks : List (List UInt8)) (reader alone : Reader) : Prop where
  exists_taken : ∃ taken, OnLine line taken chunks reader ∧ OnLine line.alone taken chunks alone

namespace Scan

open Text (Utf8.decode Utf8.encode)

variable {α β : Type} {line : Line} {chunks : List (List UInt8)}

/-- Wherever a line reader has come to, a step comes to the same as another step over the line
alone, and both are then at the same place again. -/
def Mirrors (line : Line) (chunks : List (List UInt8)) (good : α → List (List UInt8) → Prop)
    (step other : Scanning α) : Prop :=
  ∀ ⦃reader alone : Reader⦄, Beside line chunks reader alone →
    ∃ left after afterAlone, Beside line left after afterAlone ∧
      ((∃ value, good value left ∧ outcome step reader = (.ok value, after) ∧
          outcome other alone = (.ok value, afterAlone)) ∨
        ∃ fault : ScanFault,
          outcome step reader = (.error (.fault (.of (fault.behind line.before))), after) ∧
            outcome other alone = (.error (.fault (.of fault)), afterAlone))

theorem mirrors_pure {good : α → List (List UInt8) → Prop} {value : α} (holds : good value chunks) :
    Mirrors line chunks good (pure value) (pure value) :=
  fun _ _ beside => ⟨_, _, _, beside, .inl ⟨value, holds, rfl, rfl⟩⟩

theorem mirrors_stop (good : α → List (List UInt8) → Prop) {fault : ScanFault}
    (placeless : fault.behind line.before = fault) :
    Mirrors line chunks good (stop fault) (stop fault) := by
  intro reader alone beside
  refine ⟨_, _, _, beside, .inr ⟨fault, ?_, rfl⟩⟩
  rw [placeless]
  rfl

theorem Mirrors.bind {good : α → List (List UInt8) → Prop} {goal : β → List (List UInt8) → Prop}
    {step other : Scanning α} {next nextAlone : α → Scanning β}
    (first : Mirrors line chunks good step other)
    (later : ∀ value left, good value left →
      Mirrors line left goal (next value) (nextAlone value)) :
    Mirrors line chunks goal (step >>= next) (other >>= nextAlone) := by
  intro reader alone beside
  obtain ⟨left, after, afterAlone, still, ⟨value, holds, done, doneAlone⟩ |
    ⟨fault, stopped, stoppedAlone⟩⟩ := first beside
  · rw [outcome_bind_of_ok done, outcome_bind_of_ok doneAlone]
    exact later value left holds still
  · refine ⟨left, after, afterAlone, still, .inr ⟨fault, ?_, ?_⟩⟩
    · exact outcome_bind_of_error stopped next
    · exact outcome_bind_of_error stoppedAlone nextAlone

/-! ## The operations on a reader -/

theorem mirrors_peek :
    Mirrors line chunks (fun bytes left => bytes = chunks.headD [] ∧ left = chunks) peek peek := by
  rintro reader alone ⟨taken, onLine, onAlone⟩
  obtain ⟨after, looked, moved⟩ := onLine.peek
  obtain ⟨afterAlone, lookedAlone, movedAlone⟩ := onAlone.peek
  exact ⟨_, _, _, ⟨_, moved, movedAlone⟩,
    .inl ⟨_, ⟨rfl, rfl⟩, outcome_peek looked, outcome_peek lookedAlone⟩⟩

theorem mirrors_fill :
    Mirrors line chunks
      (fun added left => added = decide (1 < chunks.length) ∧ left = joinFirst chunks)
      fill fill := by
  rintro reader alone ⟨taken, onLine, onAlone⟩
  obtain ⟨after, filled, moved⟩ := onLine.fill
  obtain ⟨afterAlone, filledAlone, movedAlone⟩ := onAlone.fill
  exact ⟨_, _, _, ⟨_, moved, movedAlone⟩,
    .inl ⟨_, ⟨rfl, rfl⟩, outcome_fill filled, outcome_fill filledAlone⟩⟩

/-- The text stands at the front of the first chunk. -/
def InFront (text : List Char) (chunks : List (List UInt8)) : Prop :=
  Utf8.encode text <+: chunks.headD []

theorem InFront.of_prefix {part text : List Char} (inFront : InFront text chunks)
    (beginning : part <+: text) : InFront part chunks := by
  obtain ⟨rest, rfl⟩ := beginning
  rw [InFront, Text.Utf8.encode_append] at inFront
  exact (List.prefix_append _ _).trans inFront

theorem mirrors_consumeText {text : List Char} (inFront : InFront text chunks) :
    Mirrors line chunks (fun _ _ => True) (consumeText text) (consumeText text) := by
  rintro reader alone ⟨taken, onLine, onAlone⟩
  obtain ⟨after, consumed, moved⟩ := onLine.consume inFront.length_le
  obtain ⟨afterAlone, consumedAlone, movedAlone⟩ := onAlone.consume inFront.length_le
  exact ⟨_, _, _, ⟨_, moved, movedAlone⟩,
    .inl ⟨(), trivial, outcome_consumeText consumed, outcome_consumeText consumedAlone⟩⟩

theorem mirrors_decode :
    Mirrors line chunks (fun text left => InFront text chunks ∧ left = chunks)
      (decode (chunks.headD [])) (decode (chunks.headD [])) := by
  rintro reader alone ⟨taken, onLine, onAlone⟩
  refine ⟨_, _, _, ⟨taken, onLine, onAlone⟩, ?_⟩
  by_cases malformed : ∃ offending, Utf8.decode (chunks.headD []) = ([], .malformed offending)
  · obtain ⟨offending, malformed⟩ := malformed
    have place : reader.consumed = line.before + alone.consumed := by
      rw [onLine.consumed_eq, onAlone.consumed_eq, Line.alone, Nat.zero_add]
    right
    refine ⟨.malformed offending (some alone.consumed), ?_,
      outcome_decode_of_malformed malformed alone⟩
    rw [outcome_decode_of_malformed malformed reader, place]
    rfl
  · left
    obtain ⟨rest, standing, _⟩ := Text.Utf8.exists_of_decode (chunks.headD [])
    exact ⟨_, ⟨⟨rest, standing.symm⟩, rfl⟩, outcome_decode (not_exists.mp malformed) reader,
      outcome_decode (not_exists.mp malformed) alone⟩

/-! ## The text at hand -/

theorem joinFirst_of_length_le (few : chunks.length ≤ 1) : joinFirst chunks = chunks := by
  match chunks with
  | [] => rfl
  | [_] => rfl
  | _ :: _ :: _ => simp at few

theorem length_joinFirst (several : 1 < chunks.length) :
    (joinFirst chunks).length + 1 = chunks.length := by
  match chunks with
  | [] => simp at several
  | [_] => simp at several
  | _ :: _ :: _ => simp [joinFirst]

/-- Reading on at the last chunk makes no difference, so it does not matter which of the two runs
still may. -/
theorem Mirrors.afterFill {good : α → List (List UInt8) → Prop} {step other : Scanning α}
    (few : chunks.length ≤ 1) (mirrors : Mirrors line chunks good step other)
    (more : Scanning α) :
    Mirrors line chunks good (do if ← fill then more else step) other ∧
      Mirrors line chunks good step (do if ← fill then more else other) := by
  have last : decide (1 < chunks.length) = false := decide_eq_false (by omega)
  have same := joinFirst_of_length_le few
  constructor
  · rintro reader alone ⟨taken, onLine, onAlone⟩
    obtain ⟨after, filled, moved⟩ := onLine.fill
    rw [last] at filled
    rw [same] at moved
    rw [outcome_bind_of_ok (outcome_fill filled), if_neg Bool.false_ne_true]
    exact mirrors ⟨taken, moved, onAlone⟩
  · rintro reader alone ⟨taken, onLine, onAlone⟩
    obtain ⟨after, filled, moved⟩ := onAlone.fill
    rw [last] at filled
    rw [same] at moved
    rw [outcome_bind_of_ok (outcome_fill filled), if_neg Bool.false_ne_true]
    exact mirrors ⟨taken, onLine, moved⟩

theorem mirrors_look {goal : α → List (List UInt8) → Prop}
    {next nextAlone : List UInt8 → List Char → Scanning α}
    (later : ∀ shown, InFront shown chunks →
      Mirrors line chunks goal (next (chunks.headD []) shown)
        (nextAlone (chunks.headD []) shown)) :
    Mirrors line chunks goal
      (do let bytes ← peek
          let shown ← decode bytes
          next bytes shown)
      (do let bytes ← peek
          let shown ← decode bytes
          nextAlone bytes shown) := by
  refine mirrors_peek.bind ?_
  rintro _ _ ⟨rfl, rfl⟩
  refine mirrors_decode.bind ?_
  rintro shown _ ⟨inFront, rfl⟩
  exact later shown inFront

theorem textWithin_zero :
    textWithin 0 = peek >>= fun bytes => decode bytes >>= fun shown => pure shown := by
  simp only [textWithin, bind_pure]

theorem mirrors_textWithin (steps others : Nat) (enough : chunks.length ≤ steps + 1)
    (enoughAlone : chunks.length ≤ others + 1) :
    Mirrors line chunks InFront (textWithin steps) (textWithin others) := by
  -- Either run may be allowed more reads than the other, but both enough to come to the last chunk.
  induction steps generalizing others chunks with
  | zero =>
      rw [textWithin_zero]
      cases others with
      | zero =>
          rw [textWithin_zero]
          exact mirrors_look fun _ inFront => mirrors_pure inFront
      | succ others =>
          rw [textWithin]
          refine mirrors_look fun shown inFront => ?_
          split
          · exact ((mirrors_pure inFront).afterFill enough _).2
          · exact mirrors_pure inFront
  | succ steps ih =>
      rw [textWithin]
      cases others with
      | zero =>
          rw [textWithin_zero]
          refine mirrors_look fun shown inFront => ?_
          split
          · exact ((mirrors_pure inFront).afterFill enoughAlone _).1
          · exact mirrors_pure inFront
      | succ others =>
          rw [textWithin]
          refine mirrors_look fun shown inFront => ?_
          split
          · refine mirrors_fill.bind ?_
            rintro _ _ ⟨rfl, rfl⟩
            by_cases several : 1 < chunks.length
            · have fewer := length_joinFirst several
              simp only [several, decide_true, if_true]
              exact ih others (by omega) (by omega)
            · rw [joinFirst_of_length_le (by omega)]
              simp only [several, decide_false, Bool.false_eq_true, if_false]
              exact mirrors_pure inFront
          · exact mirrors_pure inFront

theorem mirrors_text : Mirrors line chunks InFront text text := by
  rintro reader alone ⟨taken, onLine, onAlone⟩
  rw [text, outcome_bind_of_ok (outcome_pendingReads reader),
    outcome_bind_of_ok (outcome_pendingReads alone)]
  exact mirrors_textWithin _ _ onLine.length_le onAlone.length_le ⟨taken, onLine, onAlone⟩

/-! ## Segments -/

theorem mirrors_matchRemaining (literal : String) (remaining : List Char) :
    Mirrors line chunks (fun _ _ => True) (matchRemaining literal remaining)
      (matchRemaining literal remaining) := by
  induction length : remaining.length using Nat.strongRecOn generalizing remaining chunks with
  | _ length ih =>
      rw [matchRemaining]
      split
      · exact mirrors_pure trivial
      refine mirrors_text.bind fun shown left inFront => ?_
      split
      · rename_i whole
        exact mirrors_consumeText (inFront.of_prefix (by simpa using whole))
      split
      · rename_i rest _
        split
        · refine (mirrors_consumeText inFront).bind fun _ _ _ => ?_
          exact ih _ (by omega) rest rfl
        · exact mirrors_stop _ rfl
      · exact mirrors_stop _ rfl

theorem mirrors_settle (matcher : Matcher) (steps others : Nat) (bytes : List UInt8)
    {shown : List Char} (enough : chunks.length ≤ steps) (enoughAlone : chunks.length ≤ others)
    (inFront : InFront shown chunks) :
    Mirrors line chunks (fun result left => InFront result.2 left)
      (settle matcher steps bytes shown) (settle matcher others bytes shown) := by
  have stays : Mirrors line chunks (fun result left => InFront result.2 left)
      (pure (matcher shown, shown)) (pure (matcher shown, shown)) := mirrors_pure inFront
  induction steps generalizing others bytes chunks shown with
  | zero =>
      cases others with
      | zero => exact stays
      | succ others =>
          rw [settle, settle]
          split
          · exact stays
          split
          · exact stays
          exact (stays.afterFill (by omega) _).2
  | succ steps ih =>
      cases others with
      | zero =>
          rw [settle, settle]
          split
          · exact stays
          split
          · exact stays
          exact (stays.afterFill (by omega) _).1
      | succ others =>
          rw [settle, settle]
          split
          · exact stays
          split
          · exact stays
          refine mirrors_fill.bind ?_
          rintro _ _ ⟨rfl, rfl⟩
          by_cases several : 1 < chunks.length
          · have fewer := length_joinFirst several
            simp only [several, decide_true, if_true]
            refine mirrors_look fun shown inFront => ?_
            exact ih others _ (by omega) (by omega) inFront (mirrors_pure inFront)
          · rw [joinFirst_of_length_le (by omega)]
            simp only [several, decide_false, Bool.false_eq_true, if_false]
            exact stays

theorem mirrors_matchPattern (matcher : Matcher) (pattern : String) :
    Mirrors line chunks (fun _ _ => True) (matchPattern matcher pattern)
      (matchPattern matcher pattern) := by
  refine mirrors_text.bind fun shown _ inFront => ?_
  refine mirrors_peek.bind ?_
  rintro bytes left ⟨_, rfl⟩
  -- The two runs may still read a different number of times.
  rintro reader alone ⟨taken, onLine, onAlone⟩
  rw [outcome_bind_of_ok (outcome_pendingReads reader),
    outcome_bind_of_ok (outcome_pendingReads alone)]
  refine (mirrors_settle matcher (reader.pendingReads + 1) (alone.pendingReads + 1) bytes
    onLine.length_le onAlone.length_le inFront).bind ?_ ⟨taken, onLine, onAlone⟩
  rintro ⟨verdict, text⟩ left inFront
  cases verdict with
  | matched length =>
      refine (mirrors_consumeText (inFront.of_prefix (List.take_prefix length text))).bind ?_
      exact fun _ _ _ => mirrors_pure trivial
  | starved => exact mirrors_stop _ rfl
  | failed => exact mirrors_stop _ rfl

theorem mirrors_convert (rule : Rule) (matched : List Char) :
    Mirrors line chunks (fun _ _ => True) (convert rule matched) (convert rule matched) := by
  rw [convert]
  split
  · exact mirrors_pure trivial
  · split
    · exact mirrors_pure trivial
    · exact mirrors_stop _ rfl

theorem mirrors_runSegment (compiled : CompiledPlan) (segment : PlanSegment) :
    Mirrors line chunks (fun _ _ => True) (runSegment compiled segment)
      (runSegment compiled segment) := by
  cases segment with
  | literal literal =>
      rw [runSegment, matchLiteral]
      refine (mirrors_matchRemaining literal literal.toList).bind fun _ _ _ => ?_
      exact mirrors_pure trivial
  | capture slot index =>
      rw [runSegment]
      split
      · exact mirrors_pure trivial
      · refine (mirrors_matchPattern _ _).bind fun matched _ _ => ?_
        refine (mirrors_convert _ matched).bind fun _ _ _ => ?_
        exact mirrors_pure trivial

theorem mirrors_runSegments (compiled : CompiledPlan) (segments : List PlanSegment) :
    Mirrors line chunks (fun _ _ => True) (runSegments compiled segments)
      (runSegments compiled segments) := by
  induction segments generalizing chunks with
  | nil => exact mirrors_pure trivial
  | cons segment rest ih =>
      rw [runSegments]
      refine (mirrors_runSegment compiled segment).bind fun _ _ _ => ?_
      refine ih.bind fun _ _ _ => ?_
      exact mirrors_pure trivial

theorem mirrors_run (compiled : CompiledPlan) :
    Mirrors line chunks (fun _ _ => True) (run compiled) (run compiled) := by
  rw [run]
  refine (mirrors_runSegments compiled compiled.plan.segments).bind fun _ _ _ => ?_
  exact mirrors_pure trivial

/-! ## A whole run -/

/-- What an attempt at the line with the given number comes to, beside what the line alone comes to:
the same values or the same stop.  A fault of the text has a note of the number, and malformed bytes
are counted from further before. -/
inductive Echoes (number offset : Nat) :
    Except Stop (List Value) → Except Stop (List Value) → Prop
  | values (values : List Value) : Echoes number offset (.ok values) (.ok values)
  | pattern (fault : PatternFault) :
      Echoes number offset (.error (.pattern fault)) (.error (.pattern fault))
  | fault (fault : ScanFault) :
      Echoes number offset (.error (.fault (.of fault)))
        (.error (.fault ((Diagnostic.of (fault.behind offset)).withNote s!"on line {number}")))

theorem Echoes.unique {number offset : Nat} {alone result other : Except Stop (List Value)}
    (echoes : Echoes number offset alone result) (echoesOther : Echoes number offset alone other) :
    result = other := by
  cases echoes <;> cases echoesOther <;> rfl

/-- What a plan comes to over the line alone. -/
def aloneOutcome (compiled : Except PatternFault CompiledPlan) (line : Line) :
    Except Stop (List Value) :=
  (outcome (execute compiled) (Reader.ofChunks line.chunks).byLine).1

/-- A run that begins with a line stays on it, and comes to what it comes to over the line alone. -/
theorem outcome_execute_of_onLine (compiled : Except PatternFault CompiledPlan) {reader : Reader}
    (onLine : OnLine line [] line.chunks reader) (number : Nat) :
    ∃ taken left result after, outcome (execute compiled) reader = (result, after) ∧
      OnLine line taken left after ∧
        Echoes number line.before (aloneOutcome compiled line)
          (result.mapError (LineAttempt.noted number)) := by
  cases compiled with
  | error fault => exact ⟨[], line.chunks, _, reader, rfl, onLine, .pattern fault⟩
  | ok compiled =>
      obtain ⟨left, after, afterAlone, ⟨taken, still, _⟩, ⟨values, _, done, doneAlone⟩ |
        ⟨fault, stopped, stoppedAlone⟩⟩ := mirrors_run compiled ⟨[], onLine, onLine.alone⟩
      · refine ⟨taken, left, _, after, done, still, ?_⟩
        rw [aloneOutcome, execute, doneAlone]
        exact .values values
      · refine ⟨taken, left, _, after, stopped, still, ?_⟩
        rw [aloneOutcome, execute, stoppedAlone]
        exact .fault fault

/-- When the patterns can be read, only a fault of the text stops a run over a line. -/
theorem Echoes.exists_diagnostic {compiled : CompiledPlan} {reader : Reader}
    (onLine : OnLine line [] line.chunks reader) {number offset : Nat}
    {result : Except Stop (List Value)}
    (echoes : Echoes number offset (aloneOutcome (.ok compiled) line) result) :
    ∃ value : Except (Diagnostic ScanFault) (List Value), result = value.mapError .fault := by
  obtain ⟨_, _, _, _, ⟨values, _, _, alone⟩ | ⟨fault, _, alone⟩⟩ :=
    mirrors_run compiled ⟨[], onLine, onLine.alone⟩
  · rw [aloneOutcome, execute, alone] at echoes
    cases echoes
    exact ⟨.ok values, rfl⟩
  · rw [aloneOutcome, execute, alone] at echoes
    cases echoes
    exact ⟨.error _, rfl⟩

end Scan

end Unformat
