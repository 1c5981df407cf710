import Unformat.Proofs.Input.Flowing
import Unformat.Proofs.Text.Utf8
import Unformat.Scan.Engine

/-!
# Text from a reader that flows

What a step shows of the text to come is always the decoded beginning of the bytes that remain.
The text at hand is empty only at the end, and a repeated attempt at a pattern stops only when the
verdict asks for no more text or no more text can come.
-/

namespace Unformat.Scan

open Text (Utf8.decode)

variable {α β : Type}

/-- What a step comes to on a reader. -/
def outcome (step : Scanning α) (reader : Reader) : Except Stop α × Reader := step.run.run reader

@[simp] theorem outcome_pure (value : α) (reader : Reader) :
    outcome (pure value) reader = (.ok value, reader) := rfl

@[simp] theorem outcome_stop (fault : ScanFault) (reader : Reader) :
    outcome (stop fault : Scanning α) reader = (.error (.fault (.of fault)), reader) := rfl

theorem outcome_bind (step : Scanning α) (rest : α → Scanning β) (reader : Reader) :
    outcome (step >>= rest) reader =
      match outcome step reader with
      | (.ok value, after) => outcome (rest value) after
      | (.error stop, after) => (.error stop, after) := by
  simp only [outcome, ExceptT.run_bind, StateT.run_bind]
  generalize StateT.run (ExceptT.run step) reader = result
  rcases result with ⟨_ | _, _⟩ <;> rfl

theorem outcome_bind_of_ok {step : Scanning α} {reader after : Reader} {value : α}
    (done : outcome step reader = (.ok value, after)) (rest : α → Scanning β) :
    outcome (step >>= rest) reader = outcome (rest value) after := by
  rw [outcome_bind, done]

theorem outcome_bind_of_error {step : Scanning α} {reader after : Reader} {stop : Stop}
    (stopped : outcome step reader = (.error stop, after)) (rest : α → Scanning β) :
    outcome (step >>= rest) reader = (.error stop, after) := by
  rw [outcome_bind, stopped]

/-- What becomes of a value that nothing more is read for. -/
theorem outcome_bind_pure (step : Scanning α) (next : α → β) (reader : Reader) :
    (outcome (step >>= fun value => pure (next value)) reader).1 =
      (outcome step reader).1.map next := by
  rw [outcome_bind]
  obtain ⟨_ | _, _⟩ := outcome step reader <;> rfl

theorem outcome_onReader {operation : Reader → Except ReaderFault α × Reader}
    {reader after : Reader} {value : α} (done : operation reader = (.ok value, after)) :
    outcome (onReader operation) reader = (.ok value, after) := by
  have unfolded : outcome (onReader operation) reader =
      ((operation reader).1.mapError .reader, (operation reader).2) := rfl
  rw [unfolded, done]
  rfl

theorem outcome_peek {reader after : Reader} {bytes : List UInt8}
    (looked : reader.peek = (.ok bytes, after)) : outcome peek reader = (.ok bytes, after) :=
  outcome_onReader looked

theorem outcome_fill {reader after : Reader} {added : Bool}
    (filled : reader.fill = (.ok added, after)) : outcome fill reader = (.ok added, after) :=
  outcome_onReader filled

theorem outcome_consumeText {reader after : Reader} {text : List Char}
    (consumed : reader.consume (Text.Utf8.encode text).length = (.ok (), after)) :
    outcome (consumeText text) reader = (.ok (), after) :=
  outcome_onReader consumed

theorem outcome_pendingReads (reader : Reader) :
    outcome pendingReads reader = (.ok reader.pendingReads, reader) := rfl

/-- The fault of malformed bytes at the place that a reader has come to. -/
def malformedAt (offending : List UInt8) (offset : Nat) : Stop :=
  .fault (.of (.malformed offending (some offset)))

theorem outcome_decode_of_malformed {bytes offending : List UInt8}
    (malformed : Utf8.decode bytes = ([], .malformed offending)) (reader : Reader) :
    outcome (decode bytes) reader = (.error (malformedAt offending reader.consumed), reader) := by
  have unfolded : outcome (decode bytes) reader = decode bytes reader := rfl
  simp [unfolded, decode, Text.Utf8.longestPrefix, malformed, malformedAt]

theorem outcome_decode {bytes : List UInt8}
    (readable : ∀ offending, Utf8.decode bytes ≠ ([], .malformed offending)) (reader : Reader) :
    outcome (decode bytes) reader = (.ok (Utf8.decode bytes).1, reader) := by
  have unfolded : outcome (decode bytes) reader = decode bytes reader := rfl
  have whole : Text.Utf8.longestPrefix bytes = .ok (Utf8.decode bytes).1 := by
    unfold Text.Utf8.longestPrefix
    split
    · rename_i offending found
      exact (readable offending found).elim
    · rename_i text remainder _ found
      rw [found]
  simp [unfolded, decode, whole]

/-! ## The text at hand -/

/-- The text after some reads: it is what the bytes at hand spell, it is empty only at the end, and
it was empty before each of the reads. -/
structure Shows (count : Nat) (reader after : Reader) : Prop extends
    Reader.ReadsOn count reader after where
  readable : ∀ offending, Utf8.decode after.base.buffer ≠ ([], .malformed offending)
  atEnd : (Utf8.decode after.base.buffer).1 = [] → after.base.pending = []
  earlier : ∀ index < count, (Utf8.decode (reader.bufferAfter index)).1 = []

/-- What is shown after more reads, when nothing was shown before them. -/
theorem Shows.behind {reader middle after : Reader} {count more : Nat}
    (shows : Shows more middle after) (readsOn : Reader.ReadsOn count reader middle)
    (earlier : ∀ index < count, (Utf8.decode (reader.bufferAfter index)).1 = []) :
    Shows (count + more) reader after where
  toReadsOn := readsOn.trans shows.toReadsOn
  readable := shows.readable
  atEnd := shows.atEnd
  earlier := by
    intro index bound
    by_cases less : index < count
    · exact earlier index less
    · have shifted := shows.earlier (index - count) (by omega)
      rwa [readsOn.bufferAfter_eq, Nat.add_sub_cancel' (by omega)] at shifted

theorem decode_remaining_of_malformed {reader after : Reader} {count : Nat}
    (readsOn : Reader.ReadsOn count reader after) {offending : List UInt8}
    (malformed : Utf8.decode after.base.buffer = ([], .malformed offending)) :
    Utf8.decode reader.remaining = ([], .malformed offending) := by
  rw [← readsOn.remaining_eq, Reader.remaining,
    Text.Utf8.decode_append_of_malformed (by rw [malformed]), malformed]

theorem exists_peek_decode {reader : Reader} (flowing : reader.Flowing) :
    ∃ middle count, outcome peek reader = (.ok middle.base.buffer, middle) ∧
      Reader.ReadsOn count reader middle ∧
        (middle.base.buffer = [] → middle.base.pending = []) ∧
          (∀ index < count, (Utf8.decode (reader.bufferAfter index)).1 = []) ∧
            ((∀ offending, Utf8.decode middle.base.buffer ≠ ([], .malformed offending)) ∨
              ∃ offending, Utf8.decode reader.remaining = ([], .malformed offending) ∧
                outcome (decode middle.base.buffer) middle =
                  (.error (malformedAt offending reader.consumed), middle)) := by
  obtain ⟨middle, count, looked, readsOn, atEnd, earlier⟩ := Reader.peek_of_flowing flowing
  refine ⟨middle, count, outcome_peek looked, readsOn, atEnd, ?_, ?_⟩
  · intro index bound
    rw [earlier index bound, Text.Utf8.decode_nil]
  · by_cases malformed : ∃ offending, Utf8.decode middle.base.buffer = ([], .malformed offending)
    · obtain ⟨offending, malformed⟩ := malformed
      right
      refine ⟨offending, decode_remaining_of_malformed readsOn malformed, ?_⟩
      rw [outcome_decode_of_malformed malformed, readsOn.consumed_eq]
    · exact .inl (not_exists.mp malformed)

/-- Once a text is shown, no malformed bytes stand in front of all that remains. -/
theorem Shows.remaining_readable {reader after : Reader} {count : Nat}
    (shows : Shows count reader after) (offending : List UInt8) :
    Utf8.decode reader.remaining ≠ ([], .malformed offending) := by
  rw [← shows.remaining_eq, Reader.remaining]
  intro malformed
  have longer := Text.Utf8.decode_append_prefix after.base.buffer
    (after.base.pending.flatMap Delivery.content)
  rw [malformed] at longer
  have empty := List.prefix_nil.mp longer
  rw [shows.atEnd empty, List.flatMap_nil, List.append_nil] at malformed
  exact shows.readable offending malformed

/-- The text at hand is shown, unless malformed bytes stand in front of all that remains. -/
theorem outcome_textWithin (steps : Nat) {reader : Reader} (flowing : reader.Flowing)
    (enough : reader.pendingReads ≤ steps) :
    (∃ after count, Shows count reader after ∧
      outcome (textWithin steps) reader = (.ok (Utf8.decode after.base.buffer).1, after)) ∨
    (∃ after offending, Utf8.decode reader.remaining = ([], .malformed offending) ∧
      outcome (textWithin steps) reader =
        (.error (malformedAt offending reader.consumed), after)) := by
  induction steps generalizing reader with
  | zero =>
      obtain ⟨middle, count, looked, readsOn, _, earlier, decoded⟩ := exists_peek_decode flowing
      rw [textWithin, outcome_bind_of_ok looked]
      rcases decoded with readable | ⟨offending, malformed, stopped⟩
      · left
        refine ⟨middle, count, ⟨readsOn, readable, ?_, earlier⟩, outcome_decode readable middle⟩
        intro _
        have left := readsOn.pendingReads_eq
        rw [Nat.le_zero.mp enough, Nat.zero_sub] at left
        exact List.eq_nil_of_length_eq_zero left
      · exact .inr ⟨middle, offending, malformed, stopped⟩
  | succ steps ih =>
      obtain ⟨middle, count, looked, readsOn, atEnd, earlier, decoded⟩ :=
        exists_peek_decode flowing
      rw [textWithin, outcome_bind_of_ok looked]
      rcases decoded with readable | ⟨offending, malformed, stopped⟩
      · rw [outcome_bind_of_ok (outcome_decode readable middle)]
        by_cases waiting :
            (Utf8.decode middle.base.buffer).1.isEmpty && !middle.base.buffer.isEmpty
        · rw [if_pos waiting]
          have empty : (Utf8.decode middle.base.buffer).1 = [] := by simp_all
          rcases Reader.fill_of_flowing readsOn.flowing with
            ⟨filled, brought, one, _⟩ | ⟨filled, none, zero, last⟩
          · rw [outcome_bind_of_ok (outcome_fill brought), if_pos rfl]
            have sum := readsOn.trans one
            have fewer : filled.pendingReads ≤ steps := by
              have bound := one.count_le
              have left := one.pendingReads_eq
              have leftBefore := readsOn.pendingReads_eq
              omega
            have still : ∀ index < count + 1, (Utf8.decode (reader.bufferAfter index)).1 = [] := by
              intro index bound
              rcases Nat.lt_succ_iff_lt_or_eq.mp bound with less | rfl
              · exact earlier index less
              · rwa [readsOn.buffer_eq] at empty
            rcases ih one.flowing fewer with ⟨after, more, shows, done⟩ |
              ⟨after, offending, malformed, stopped⟩
            · exact .inl ⟨after, count + 1 + more, shows.behind sum still, done⟩
            · rw [sum.remaining_eq] at malformed
              rw [sum.consumed_eq] at stopped
              exact .inr ⟨after, offending, malformed, stopped⟩
          · rw [outcome_bind_of_ok (outcome_fill none), if_neg (by simp)]
            left
            have same : filled.base.buffer = middle.base.buffer := by simp [zero.buffer_eq]
            have shows : Shows count reader filled := by
              refine ⟨readsOn.trans zero, ?_, ?_, earlier⟩
              · rwa [same]
              · intro _
                simp [zero.pending_eq, last]
            refine ⟨filled, count, shows, ?_⟩
            rw [same]
            rfl
        · rw [if_neg waiting]
          left
          refine ⟨middle, count, ⟨readsOn, readable, ?_, earlier⟩, rfl⟩
          intro empty
          apply atEnd
          simpa [empty] using waiting
      · exact .inr ⟨middle, offending, malformed, outcome_bind_of_error stopped _⟩

theorem outcome_text {reader : Reader} (flowing : reader.Flowing) :
    (∃ after count, Shows count reader after ∧
      outcome text reader = (.ok (Utf8.decode after.base.buffer).1, after)) ∨
    (∃ after offending, Utf8.decode reader.remaining = ([], .malformed offending) ∧
      outcome text reader = (.error (malformedAt offending reader.consumed), after)) := by
  rw [text, outcome_bind_of_ok (outcome_pendingReads reader)]
  exact outcome_textWithin reader.pendingReads flowing (Nat.le_refl _)

theorem Shows.peek_again {reader middle : Reader} {count : Nat}
    (shows : Shows count reader middle) :
    ∃ after, outcome peek middle = (.ok after.base.buffer, after) ∧
      after.base.buffer = middle.base.buffer ∧ Shows count reader after := by
  obtain ⟨after, more, looked, readsOn, _, empty⟩ := Reader.peek_of_flowing shows.flowing
  have none : more = 0 := by
    by_cases positive : 0 < more
    · have nothing := empty 0 positive
      rw [Reader.bufferAfter_zero] at nothing
      have atEnd := shows.atEnd (by rw [nothing, Text.Utf8.decode_nil])
      have bound := readsOn.count_le
      rw [Reader.pendingReads, atEnd] at bound
      exact Nat.le_zero.mp bound
    · omega
  subst none
  have same : after.base.buffer = middle.base.buffer := by simp [readsOn.buffer_eq]
  refine ⟨after, outcome_peek looked, same, ?_⟩
  refine ⟨shows.toReadsOn.trans readsOn, ?_, ?_, shows.earlier⟩
  · rw [same]
    exact shows.readable
  · rw [same, readsOn.pending_eq]
    exact shows.atEnd

/-! ## Repeated attempts -/

/-- The text after `count` more reads. -/
def shownAfter (reader : Reader) (count : Nat) : List Char :=
  (Utf8.decode (reader.bufferAfter count)).1

/-- All the text that remains, up to malformed bytes. -/
def wholeText (reader : Reader) : List Char := (Utf8.decode reader.remaining).1

theorem shownAfter_of_readsOn {reader after : Reader} {count : Nat}
    (readsOn : Reader.ReadsOn count reader after) (more : Nat) :
    shownAfter after more = shownAfter reader (count + more) := by
  rw [shownAfter, readsOn.bufferAfter_eq, shownAfter]

theorem wholeText_of_readsOn {reader after : Reader} {count : Nat}
    (readsOn : Reader.ReadsOn count reader after) : wholeText after = wholeText reader := by
  rw [wholeText, readsOn.remaining_eq, wholeText]

theorem shownAfter_prefix (reader : Reader) (count : Nat) :
    shownAfter reader count <+: wholeText reader := by
  rw [wholeText, ← reader.bufferAfter_append count]
  exact Text.Utf8.decode_append_prefix _ _

/-- Attempts at a pattern go on for `count` reads: before each there was no text, or the verdict
asks for more, and at last it does not, or all the text is there. -/
structure Attempts (matcher : Matcher) (reader : Reader) (count : Nat) : Prop where
  wanting : ∀ index < count, shownAfter reader index = [] ∨
    wantsMore (matcher (shownAfter reader index)) (shownAfter reader index) = true
  final : wantsMore (matcher (shownAfter reader count)) (shownAfter reader count) = false ∨
    shownAfter reader count = wholeText reader

/-- Attempts that begin when some text is shown. -/
theorem Attempts.behind {matcher : Matcher} {reader middle : Reader} {count more : Nat}
    (attempts : Attempts matcher middle more) (shows : Shows count reader middle) :
    Attempts matcher reader (count + more) where
  wanting := by
    intro index bound
    by_cases less : index < count
    · exact .inl (shows.earlier index less)
    · have shifted := attempts.wanting (index - count) (by omega)
      rwa [shownAfter_of_readsOn shows.toReadsOn, Nat.add_sub_cancel' (by omega)] at shifted
  final := by
    have final := attempts.final
    rwa [shownAfter_of_readsOn shows.toReadsOn, wholeText_of_readsOn shows.toReadsOn] at final

/-- Attempts that begin with a read of their own. -/
theorem Attempts.afterRead {matcher : Matcher} {reader filled : Reader} {count : Nat}
    (attempts : Attempts matcher filled count) (one : Reader.ReadsOn 1 reader filled)
    (wanting : wantsMore (matcher (shownAfter reader 0)) (shownAfter reader 0) = true) :
    Attempts matcher reader (1 + count) where
  wanting := by
    intro index bound
    cases index with
    | zero => exact .inr wanting
    | succ index =>
        have later := attempts.wanting index (by omega)
        rwa [shownAfter_of_readsOn one, Nat.add_comm 1] at later
  final := by
    have final := attempts.final
    rwa [shownAfter_of_readsOn one, wholeText_of_readsOn one] at final

theorem Attempts.atOnce {matcher : Matcher} {reader : Reader}
    (final : wantsMore (matcher (shownAfter reader 0)) (shownAfter reader 0) = false ∨
      shownAfter reader 0 = wholeText reader) : Attempts matcher reader 0 where
  wanting := by simp
  final := final

/-- Text that is shown stays in view when more is read. -/
theorem shown_ne_nil_of_readsOn {reader after : Reader} {count : Nat}
    (readsOn : Reader.ReadsOn count reader after)
    (visible : (Utf8.decode reader.base.buffer).1 ≠ []) :
    (Utf8.decode after.base.buffer).1 ≠ [] := by
  intro empty
  have longer : (Utf8.decode reader.base.buffer).1 <+: (Utf8.decode after.base.buffer).1 := by
    rw [readsOn.buffer_eq, Reader.bufferAfter]
    exact Text.Utf8.decode_append_prefix _ _
  rw [empty] at longer
  exact visible (List.prefix_nil.mp longer)

theorem wholeText_eq_of_long {reader : Reader}
    (long : 3 < reader.base.buffer.length -
      (Text.Utf8.encode (Utf8.decode reader.base.buffer).1).length) :
    (Utf8.decode reader.base.buffer).1 = wholeText reader := by
  obtain ⟨offending, malformed⟩ := Text.Utf8.exists_malformed_of_length long
  rw [wholeText, Reader.remaining, Text.Utf8.decode_append_of_malformed malformed]

theorem outcome_settle (matcher : Matcher) (steps : Nat) {reader : Reader}
    (flowing : reader.Flowing) (enough : reader.pendingReads < steps)
    (atEnd : (Utf8.decode reader.base.buffer).1 = [] → reader.base.pending = []) :
    ∃ after count, Reader.ReadsOn count reader after ∧ Attempts matcher reader count ∧
      outcome (settle matcher steps reader.base.buffer (Utf8.decode reader.base.buffer).1) reader =
        (.ok (matcher (shownAfter reader count), shownAfter reader count), after) := by
  induction steps generalizing reader with
  | zero => omega
  | succ steps ih =>
      have start : shownAfter reader 0 = (Utf8.decode reader.base.buffer).1 := by
        rw [shownAfter, Reader.bufferAfter_zero]
      rw [settle]
      by_cases satisfied : wantsMore (matcher (Utf8.decode reader.base.buffer).1)
          (Utf8.decode reader.base.buffer).1 = false
      · refine ⟨reader, 0, .refl flowing, .atOnce (.inl (by rwa [start])), ?_⟩
        simp [satisfied, start]
      have wanting := Bool.of_not_eq_false satisfied
      by_cases long : 3 < reader.base.buffer.length -
          (Text.Utf8.encode (Utf8.decode reader.base.buffer).1).length
      · have whole := wholeText_eq_of_long long
        refine ⟨reader, 0, .refl flowing, .atOnce (.inr (by rwa [start])), ?_⟩
        simp [wanting, long, start]
      rcases Reader.fill_of_flowing flowing with
        ⟨filled, brought, one, solid⟩ | ⟨filled, none, zero, last⟩
      · have bound := one.count_le
        have left := one.pendingReads_eq
        have visible : (Utf8.decode reader.base.buffer).1 ≠ [] := by
          intro empty
          rw [Reader.pendingReads, atEnd empty] at bound
          simp at bound
        have stillVisible := shown_ne_nil_of_readsOn one visible
        have readable : ∀ offending,
            Utf8.decode filled.base.buffer ≠ ([], .malformed offending) := by
          intro offending malformed
          exact stillVisible (by rw [malformed])
        obtain ⟨after, count, readsOn, attempts, settled⟩ :=
          ih one.flowing (by omega) fun empty => (stillVisible empty).elim
        rw [shownAfter_of_readsOn one] at settled
        refine ⟨after, 1 + count, one.trans readsOn, attempts.afterRead one (by rwa [start]), ?_⟩
        simp only [wanting, long, Bool.not_true, Bool.false_eq_true, if_false]
        rw [outcome_bind_of_ok (outcome_fill brought), if_pos rfl,
          outcome_bind_of_ok (outcome_peek (Reader.peek_of_buffer_ne_nil one.flowing solid)),
          outcome_bind_of_ok (outcome_decode readable filled)]
        exact settled
      · have whole : (Utf8.decode reader.base.buffer).1 = wholeText reader := by
          rw [wholeText, Reader.remaining, last]
          simp
        refine ⟨filled, 0, zero, .atOnce (.inr (by rwa [start])), ?_⟩
        simp only [wanting, long, Bool.not_true, Bool.false_eq_true, if_false]
        rw [outcome_bind_of_ok (outcome_fill none), if_neg (by simp), start]
        rfl

end Unformat.Scan
