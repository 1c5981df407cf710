import Mathlib.Data.List.Basic
import Unformat.Proofs.Scan.Reading

/-!
# Scanning bytes that are all there

The same run over bytes that are all at hand, without reads.  Every step over a reader that flows
comes to what this run comes to on the bytes that remain, so where the reads end makes no
difference.  For captures this takes a matcher whose verdicts are final unless they ask for more.
-/

namespace Unformat

open Text (Utf8.decode Utf8.encode)

/-- The bytes that remain and the number of those before them. -/
structure Stream where
  remaining : List UInt8
  offset : Nat
  deriving Repr, DecidableEq

/-- What a reader that flows has still to give. -/
def Reader.stream (reader : Reader) : Stream := ⟨reader.remaining, reader.consumed⟩

/-- A step over bytes that are all there. -/
abbrev Whole (α : Type) := Stream → Except (Diagnostic ScanFault) (α × Stream)

namespace Whole

variable {α β : Type}

/-- The stream behind a text that stands at its front. -/
def behind (stream : Stream) (text : List Char) : Stream :=
  ⟨stream.remaining.drop (Utf8.encode text).length, stream.offset + (Utf8.encode text).length⟩

/-- Go on with the value and the stream behind it. -/
def bind (step : Whole α) (rest : α → Whole β) : Whole β := fun stream =>
  match step stream with
  | .ok (value, stream) => rest value stream
  | .error diagnostic => .error diagnostic

/-- A value, for which nothing is consumed. -/
def value (value : α) : Whole α := fun stream => .ok (value, stream)

/-- Stop for a fault of the text. -/
def stop (fault : ScanFault) : Whole α := fun _ => .error (.of fault)

/-- What remains of a literal has to stand at the front.  The fault depends on what keeps it from
doing so: malformed bytes behind a part of it, or anything else. -/
def matchRemaining (literal : String) (remaining : List Char) : Whole Unit := fun stream =>
  match Utf8.decode stream.remaining with
  | (text, rest) =>
      if remaining <+: text then .ok ((), behind stream remaining)
      else match rest with
        | .malformed offending =>
            if text <+: remaining then
              .error (.of (.malformed offending
                (some (stream.offset + (Utf8.encode text).length))))
            else .error (.of (.literalMismatch literal))
        | _ => .error (.of (.literalMismatch literal))

/-- The matcher sees all the text that remains. -/
def matchPattern (matcher : Matcher) (pattern : String) : Whole (List Char) := fun stream =>
  match Utf8.decode stream.remaining with
  | ([], .malformed offending) => .error (.of (.malformed offending (some stream.offset)))
  | (text, _) =>
      match matcher text with
      | .matched length => .ok (text.take length, behind stream (text.take length))
      | _ => .error (.of (.patternMismatch pattern))

/-- The value of a text that a rule matched. -/
def convert (rule : Rule) (matched : List Char) : Whole (Option Value) :=
  match rule.type? with
  | none => value none
  | some type =>
      match type.conversion.apply matched with
      | .ok converted => value (some converted)
      | .error reason => stop (.unconvertible (String.ofList matched) type.name reason)

def runSegment (compiled : CompiledPlan) : PlanSegment → Whole (List (Nat × Value))
  | .literal literal => bind (matchRemaining literal literal.toList) fun _ => value []
  | .capture slot index =>
      match compiled.plan.rules[index]? with
      | none => value []
      | some rule =>
          bind (matchPattern (compiled.matcher index) (rule.pattern?.getD "")) fun matched =>
            bind (convert rule matched) fun converted =>
              value (match slot, converted with
                | some slot, some value => [(slot, value)]
                | _, _ => [])

def runSegments (compiled : CompiledPlan) : List PlanSegment → Whole (List (Nat × Value))
  | [] => value []
  | segment :: rest =>
      bind (runSegment compiled segment) fun first =>
        bind (runSegments compiled rest) fun others => value (first ++ others)

def run (compiled : CompiledPlan) : Whole (List Value) :=
  bind (runSegments compiled compiled.plan.segments) fun outputs => value (Scan.bySlot outputs)

/-- A step over readers that flow comes to what a step over all the bytes comes to. -/
def Agrees (whole : Whole α) (step : Scanning α) : Prop :=
  ∀ reader : Reader, reader.Flowing →
    match whole reader.stream with
    | .ok (value, stream) =>
        ∃ after, Scan.outcome step reader = (.ok value, after) ∧ after.Flowing ∧
          after.stream = stream
    | .error diagnostic => ∃ after, Scan.outcome step reader = (.error (.fault diagnostic), after)

theorem agrees_pure (result : α) : Agrees (value result) (pure result) := by
  intro reader flowing
  exact ⟨reader, rfl, flowing, rfl⟩

theorem agrees_stop (fault : ScanFault) : Agrees (stop fault : Whole α) (Scan.stop fault) :=
  fun reader _ => ⟨reader, rfl⟩

theorem agrees_bind {whole : Whole α} {step : Scanning α} {wholeRest : α → Whole β}
    {rest : α → Scanning β} (first : Agrees whole step)
    (others : ∀ value, Agrees (wholeRest value) (rest value)) :
    Agrees (bind whole wholeRest) (step >>= rest) := by
  intro reader flowing
  have here := first reader flowing
  unfold bind
  cases came : whole reader.stream with
  | error diagnostic =>
      simp only [came] at here ⊢
      obtain ⟨after, stopped⟩ := here
      exact ⟨after, Scan.outcome_bind_of_error stopped rest⟩
  | ok result =>
      obtain ⟨value, stream⟩ := result
      simp only [came] at here ⊢
      obtain ⟨after, done, afterFlowing, rfl⟩ := here
      rw [Scan.outcome_bind_of_ok done rest]
      exact others value after afterFlowing

/-! ## Consuming a text that is shown -/

theorem consume_shown {reader : Reader} (flowing : reader.Flowing) {text : List Char}
    (shown : text <+: (Utf8.decode reader.base.buffer).1) :
    ∃ after, Scan.outcome (Scan.consumeText text) reader = (.ok (), after) ∧ after.Flowing ∧
      after.stream = behind reader.stream text := by
  obtain ⟨rest, buffered, _⟩ := Text.Utf8.exists_of_decode reader.base.buffer
  obtain ⟨more, split⟩ := shown
  have atHand : (Utf8.encode text).length ≤ reader.base.buffer.length := by
    rw [buffered, ← split, Text.Utf8.encode_append]
    simp only [List.length_append]
    omega
  obtain ⟨after, consumed, afterFlowing, remaining, offset⟩ :=
    Reader.consume_of_flowing flowing atHand
  refine ⟨after, Scan.outcome_consumeText consumed, afterFlowing, ?_⟩
  rw [Reader.stream, remaining, offset]
  rfl

/-! ## Literals -/

theorem decode_behind {stream : Stream} {text more : List Char} {rest : Text.Utf8.Remainder}
    (decoded : Utf8.decode stream.remaining = (text ++ more, rest)) :
    Utf8.decode (behind stream text).remaining = (more, rest) := by
  obtain ⟨after, bytes, remainder⟩ := Text.Utf8.exists_of_decode stream.remaining
  rw [decoded] at bytes remainder
  rw [Text.Utf8.encode_append, List.append_assoc] at bytes
  simp only [behind]
  rw [bytes, List.drop_left, Text.Utf8.decode_encode_append, remainder]
  simp

/-- A part of the literal that stands at the front may be consumed first. -/
theorem matchRemaining_append {stream : Stream} {literal : String} {first rest : List Char}
    (standing : first <+: (Utf8.decode stream.remaining).1) :
    matchRemaining literal (first ++ rest) stream =
      matchRemaining literal rest (behind stream first) := by
  obtain ⟨more, split⟩ := standing
  have decoded : Utf8.decode stream.remaining =
      (first ++ more, (Utf8.decode stream.remaining).2) := by
    rw [split]
  unfold matchRemaining
  rw [decode_behind decoded, decoded]
  simp only [List.prefix_append_right_inj, Text.Utf8.encode_append, List.length_append, behind,
    List.drop_drop, Nat.add_assoc]

/-- A literal that does not stand at the front is a mismatch, unless it is malformed bytes that
keep it from doing so. -/
theorem matchRemaining_of_mismatch {stream : Stream} {literal : String} {remaining : List Char}
    (absent : ¬ remaining <+: (Utf8.decode stream.remaining).1)
    (cause : (Utf8.decode stream.remaining).1 <+: remaining →
      ∀ offending, (Utf8.decode stream.remaining).2 ≠ .malformed offending) :
    matchRemaining literal remaining stream = .error (.of (.literalMismatch literal)) := by
  unfold matchRemaining
  simp only [absent, if_false]
  cases rest : (Utf8.decode stream.remaining).2 with
  | empty => rfl
  | incomplete bytes => rfl
  | malformed offending =>
      have apart : ¬ (Utf8.decode stream.remaining).1 <+: remaining :=
        fun part => cause part offending rest
      simp only [apart, if_false]

/-- Text at the front that is no beginning of the literal, and does not begin with it, is a
mismatch. -/
theorem matchRemaining_of_apart {stream : Stream} {literal : String} {text remaining : List Char}
    (visible : text <+: (Utf8.decode stream.remaining).1) (apart : ¬ text <+: remaining)
    (short : ¬ remaining <+: text) :
    matchRemaining literal remaining stream = .error (.of (.literalMismatch literal)) := by
  apply matchRemaining_of_mismatch
  · intro standing
    rcases List.prefix_or_prefix_of_prefix visible standing with first | second
    · exact apart first
    · exact short second
  · intro longer
    exact (apart (visible.trans longer)).elim

theorem shown_prefix {reader after : Reader} {count : Nat}
    (readsOn : Reader.ReadsOn count reader after) :
    (Utf8.decode after.base.buffer).1 <+: (Utf8.decode reader.remaining).1 := by
  rw [readsOn.buffer_eq, ← reader.bufferAfter_append count]
  exact Text.Utf8.decode_append_prefix _ _

theorem stream_of_readsOn {reader after : Reader} {count : Nat}
    (readsOn : Reader.ReadsOn count reader after) : after.stream = reader.stream := by
  rw [Reader.stream, readsOn.remaining_eq, readsOn.consumed_eq, Reader.stream]

/-- When nothing is shown, a literal that is not empty does not stand at the front. -/
theorem matchRemaining_of_nothing_shown {reader middle : Reader} {count : Nat}
    (shows : Scan.Shows count reader middle) (literal : String) {remaining : List Char}
    (solid : remaining ≠ []) (nothing : (Utf8.decode middle.base.buffer).1 = []) :
    matchRemaining literal remaining middle.stream = .error (.of (.literalMismatch literal)) := by
  have all : middle.stream.remaining = middle.base.buffer := by
    simp [Reader.stream, Reader.remaining, shows.atEnd nothing]
  apply matchRemaining_of_mismatch
  · rw [all, nothing, List.prefix_nil]
    exact solid
  · intro _ offending malformed
    apply shows.readable offending
    rw [← all, ← malformed, all, ← nothing]

theorem agrees_matchRemaining (literal : String) (remaining : List Char) :
    Agrees (matchRemaining literal remaining) (Scan.matchRemaining literal remaining) := by
  induction length : remaining.length using Nat.strongRecOn generalizing remaining with
  | _ length ih =>
      intro reader flowing
      rw [Scan.matchRemaining]
      by_cases empty : remaining = []
      · subst empty
        simp only [matchRemaining, List.nil_prefix, if_true]
        exact ⟨reader, rfl, flowing, by simp [behind, Reader.stream]⟩
      rw [if_neg (by simpa using empty)]
      rcases Scan.outcome_text flowing with ⟨middle, count, shows, shown⟩ |
        ⟨middle, offending, malformed, stopped⟩
      · rw [Scan.outcome_bind_of_ok shown, ← stream_of_readsOn shows.toReadsOn]
        have visible := shown_prefix (Reader.ReadsOn.refl shows.flowing)
        generalize same : (Utf8.decode middle.base.buffer).1 = text at visible
        by_cases whole : remaining <+: text
        · have shownWhole : remaining <+: (Utf8.decode middle.base.buffer).1 := by rwa [same]
          obtain ⟨after, done, afterFlowing, stream⟩ := consume_shown shows.flowing shownWhole
          rw [if_pos (by simpa using whole)]
          simp only [matchRemaining, Reader.stream, whole.trans visible, if_true]
          exact ⟨after, done, afterFlowing, stream⟩
        rw [if_neg (by simpa using whole)]
        cases part : text.isPrefixOf? remaining with
        | some rest =>
            obtain rfl := List.isPrefixOf?_eq_some_iff_append_eq.mp part
            by_cases solid : text = []
            · rw [matchRemaining_of_nothing_shown shows literal empty (same.trans solid)]
              simp only [solid, List.nil_append, Nat.lt_irrefl, if_false]
              exact ⟨middle, rfl⟩
            · have positive := List.length_pos_iff.mpr solid
              have fewer : rest.length < (text ++ rest).length := by
                rw [List.length_append]
                omega
              have shownText : text <+: (Utf8.decode middle.base.buffer).1 :=
                same ▸ List.prefix_rfl
              obtain ⟨after, done, afterFlowing, stream⟩ := consume_shown shows.flowing shownText
              simp only [fewer, if_true]
              rw [matchRemaining_append visible, ← stream, Scan.outcome_bind_of_ok done]
              exact ih _ (by omega) rest rfl after afterFlowing
        | none =>
            have apart : ¬ text <+: remaining := by
              intro spelled
              obtain ⟨rest, joined⟩ := spelled
              rw [List.isPrefixOf?_eq_some_iff_append_eq.mpr joined] at part
              simp at part
            rw [matchRemaining_of_apart visible apart whole]
            exact ⟨middle, rfl⟩
      · rw [Scan.outcome_bind_of_error stopped]
        have short : ¬ remaining <+: [] := by simpa using empty
        simp only [matchRemaining, Reader.stream, malformed, short, if_false, List.nil_prefix,
          if_true]
        exact ⟨middle, rfl⟩

/-! ## Captures -/

/-- A matcher says no more than the text allows, and a verdict that does not ask for more text
stands. -/
structure Conclusive (matcher : Matcher) : Prop where
  within : ∀ text length, matcher text = .matched length → length ≤ text.length
  stands : ∀ text more, Scan.wantsMore (matcher text) text = false →
    matcher (text ++ more) = matcher text

open Scan (shownAfter wholeText)

/-- A capture takes what its matcher finds in the text that the last attempt sees. -/
theorem outcome_matchPattern (matcher : Matcher) (pattern : String) {reader : Reader}
    (flowing : reader.Flowing) :
    (∃ after offending, Utf8.decode reader.remaining = ([], .malformed offending) ∧
      Scan.outcome (Scan.matchPattern matcher pattern) reader =
        (.error (Scan.malformedAt offending reader.consumed), after)) ∨
    ∃ count, Scan.Attempts matcher reader count ∧
      (∀ offending, Utf8.decode reader.remaining ≠ ([], .malformed offending)) ∧
        match matcher (shownAfter reader count) with
        | .matched length =>
            ∃ after, after.Flowing ∧
              after.stream = behind reader.stream ((shownAfter reader count).take length) ∧
                Scan.outcome (Scan.matchPattern matcher pattern) reader =
                  (.ok ((shownAfter reader count).take length), after)
        | _ =>
            ∃ after, Scan.outcome (Scan.matchPattern matcher pattern) reader =
              (.error (.fault (.of (.patternMismatch pattern))), after) := by
  rw [Scan.matchPattern]
  rcases Scan.outcome_text flowing with ⟨first, count, firstShows, shown⟩ |
    ⟨after, offending, malformed, stopped⟩
  · right
    obtain ⟨middle, looked, same, shows⟩ := firstShows.peek_again
    obtain ⟨last, more, readsOn, attempts, settled⟩ :=
      Scan.outcome_settle matcher (middle.pendingReads + 1) shows.flowing (Nat.lt_succ_self _)
        shows.atEnd
    refine ⟨count + more, attempts.behind shows, shows.remaining_readable, ?_⟩
    rw [Scan.outcome_bind_of_ok shown, Scan.outcome_bind_of_ok looked,
      Scan.outcome_bind_of_ok (Scan.outcome_pendingReads middle), ← same,
      Scan.outcome_bind_of_ok settled, ← Scan.shownAfter_of_readsOn shows.toReadsOn]
    cases verdict : matcher (shownAfter middle more) with
    | matched length =>
        have part : (shownAfter middle more).take length <+: (Utf8.decode last.base.buffer).1 := by
          rw [readsOn.buffer_eq]
          exact List.take_prefix _ _
        obtain ⟨after, done, afterFlowing, stream⟩ := consume_shown readsOn.flowing part
        rw [stream_of_readsOn readsOn, stream_of_readsOn shows.toReadsOn] at stream
        exact ⟨after, afterFlowing, stream, Scan.outcome_bind_of_ok done _⟩
    | starved => exact ⟨last, rfl⟩
    | failed => exact ⟨last, rfl⟩
  · left
    exact ⟨after, offending, malformed, Scan.outcome_bind_of_error stopped _⟩

theorem agrees_matchPattern {matcher : Matcher} (conclusive : Conclusive matcher)
    (pattern : String) :
    Agrees (matchPattern matcher pattern) (Scan.matchPattern matcher pattern) := by
  intro reader flowing
  rcases outcome_matchPattern matcher pattern flowing with ⟨after, offending, malformed, stopped⟩ |
    ⟨count, attempts, readable, came⟩
  · simp only [matchPattern, Reader.stream, malformed]
    exact ⟨after, stopped⟩
  · obtain ⟨more, split⟩ := Scan.shownAfter_prefix reader count
    have same : matcher (wholeText reader) = matcher (shownAfter reader count) := by
      rcases attempts.final with satisfied | all
      · rw [← split, conclusive.stands _ _ satisfied]
      · rw [all]
    have meaning : matchPattern matcher pattern reader.stream =
        match matcher (wholeText reader) with
        | .matched length =>
            .ok ((wholeText reader).take length,
              behind reader.stream ((wholeText reader).take length))
        | _ => .error (.of (.patternMismatch pattern)) := by
      unfold matchPattern
      split
      · rename_i offending malformed
        exact (readable offending malformed).elim
      · rename_i text rest _ decoded
        have all : wholeText reader = text := congrArg Prod.fst decoded
        rw [all]
    rw [meaning, same]
    cases verdict : matcher (shownAfter reader count) with
    | matched length =>
        simp only [verdict] at came ⊢
        obtain ⟨after, afterFlowing, stream, done⟩ := came
        have within := conclusive.within _ _ verdict
        rw [← split, List.take_append_of_le_length within]
        exact ⟨after, done, afterFlowing, stream⟩
    | starved =>
        simp only [verdict] at came
        exact came
    | failed =>
        simp only [verdict] at came
        exact came

/-! ## Runs -/

theorem agrees_convert (rule : Rule) (matched : List Char) :
    Agrees (convert rule matched) (Scan.convert rule matched) := by
  unfold convert Scan.convert
  cases rule.type? with
  | none => exact agrees_pure _
  | some type =>
      dsimp only
      cases type.conversion.apply matched with
      | ok value => exact agrees_pure _
      | error reason => exact agrees_stop _

variable {compiled : CompiledPlan}

/-- Every matcher that the captures of a plan need is conclusive. -/
def AllConclusive (compiled : CompiledPlan) : Prop :=
  ∀ index < compiled.plan.rules.length, Conclusive (compiled.matcher index)

theorem agrees_runSegment (conclusive : AllConclusive compiled) (segment : PlanSegment) :
    Agrees (runSegment compiled segment) (Scan.runSegment compiled segment) := by
  cases segment with
  | literal literal => exact agrees_bind (agrees_matchRemaining _ _) fun _ => agrees_pure _
  | capture slot index =>
      dsimp only [runSegment, Scan.runSegment]
      cases found : compiled.plan.rules[index]? with
      | none => exact agrees_pure _
      | some rule =>
          dsimp only
          have bound : index < compiled.plan.rules.length :=
            (List.getElem?_eq_some_iff.mp found).1
          refine agrees_bind (agrees_matchPattern (conclusive index bound) _) fun matched => ?_
          exact agrees_bind (agrees_convert rule matched) fun _ => agrees_pure _

theorem agrees_runSegments (conclusive : AllConclusive compiled) (segments : List PlanSegment) :
    Agrees (runSegments compiled segments) (Scan.runSegments compiled segments) := by
  induction segments with
  | nil => exact agrees_pure _
  | cons segment rest ih =>
      refine agrees_bind (agrees_runSegment conclusive segment) fun first => ?_
      exact agrees_bind ih fun _ => agrees_pure _

/-- A run over a reader that flows comes to what the run over all its bytes comes to. -/
theorem agrees_run (conclusive : AllConclusive compiled) :
    Agrees (run compiled) (Scan.run compiled) :=
  agrees_bind (agrees_runSegments conclusive _) fun _ => agrees_pure _

end Whole

end Unformat
