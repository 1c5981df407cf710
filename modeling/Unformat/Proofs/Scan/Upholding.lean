import Unformat.Proofs.Scan.Reading

/-!
# What a run upholds

A run looks at what its reader shows, reads on, and consumes text that it has been shown; it asks
for nothing else.  So what these three operations uphold, a whole run upholds, whatever its matchers
make of the text, and whether it succeeds or stops.
-/

namespace Unformat.Scan

open Text (Utf8.decode Utf8.encode)

variable {α β : Type}

/-- What holds of a reader in front of bytes that it shows is upheld by looking, by reading on, and
by consuming these bytes, also when a read fails; and only certain reads fail. -/
structure Upheld (facing : List UInt8 → Reader → Prop) (fails : ReaderFault → Prop) : Prop where
  part : ∀ {part bytes reader}, part <+: bytes → facing bytes reader → facing part reader
  peek : ∀ {bytes reader}, facing bytes reader →
    (∃ shown after, reader.peek = (.ok shown, after) ∧ bytes <+: shown ∧ facing shown after) ∨
    ∃ fault after, reader.peek = (.error fault, after) ∧ fails fault ∧ facing [] after
  fill : ∀ {bytes reader}, facing bytes reader →
    (∃ added after, reader.fill = (.ok added, after) ∧ facing bytes after) ∨
    ∃ fault after, reader.fill = (.error fault, after) ∧ fails fault ∧ facing [] after
  consume : ∀ {bytes reader}, facing bytes reader →
    (∃ after, reader.consume bytes.length = (.ok (), after) ∧ facing [] after) ∨
    ∃ fault after, reader.consume bytes.length = (.error fault, after) ∧ fails fault ∧
      facing [] after

/-- The step yields something good, or it stops and what has to be upheld is. -/
def Upholds (facing : List UInt8 → Reader → Prop) (fails : ReaderFault → Prop)
    (good : α → Reader → Prop) (step : Scanning α) (reader : Reader) : Prop :=
  match outcome step reader with
  | (.ok value, after) => good value after
  | (.error stop, after) => facing [] after ∧ ∀ fault, stop = .reader fault → fails fault

variable {facing : List UInt8 → Reader → Prop} {fails : ReaderFault → Prop} {reader : Reader}

theorem upholds_pure {good : α → Reader → Prop} {value : α} (holds : good value reader) :
    Upholds facing fails good (pure value) reader := holds

theorem upholds_stop {good : α → Reader → Prop} {fault : ScanFault} (holds : facing [] reader) :
    Upholds facing fails good (stop fault) reader :=
  ⟨holds, by rintro other ⟨⟩⟩

theorem Upholds.bind {good : α → Reader → Prop} {goal : β → Reader → Prop} {step : Scanning α}
    {next : α → Scanning β} (first : Upholds facing fails good step reader)
    (later : ∀ value after, good value after → Upholds facing fails goal (next value) after) :
    Upholds facing fails goal (step >>= next) reader := by
  unfold Upholds at first ⊢
  rw [outcome_bind]
  generalize outcome step reader = result at first ⊢
  obtain ⟨stop | value, after⟩ := result
  · exact first
  · exact later value after first

/-- An operation on the reader, as a step. -/
theorem upholds_onReader {good : α → Reader → Prop}
    {operation : Reader → Except ReaderFault α × Reader}
    (cases : (∃ value after, operation reader = (.ok value, after) ∧ good value after) ∨
      ∃ fault after, operation reader = (.error fault, after) ∧ fails fault ∧ facing [] after) :
    Upholds facing fails good (onReader operation) reader := by
  have unfolded : outcome (onReader operation) reader =
      ((operation reader).1.mapError .reader, (operation reader).2) := rfl
  unfold Upholds
  rcases cases with ⟨value, after, came, holds⟩ | ⟨fault, after, failed, allowed, still⟩
  · rw [unfolded, came]
    exact holds
  · rw [unfolded, failed]
    refine ⟨still, ?_⟩
    rintro other ⟨⟩
    exact allowed

theorem upholds_convert (rule : Rule) (matched : List Char) (holds : facing [] reader) :
    Upholds facing fails (fun _ after => facing [] after) (Scan.convert rule matched) reader := by
  rw [Scan.convert]
  split
  · exact upholds_pure holds
  · split
    · exact upholds_pure holds
    · exact upholds_stop holds

/-- The text stands at the front of what the reader shows. -/
def Faced (facing : List UInt8 → Reader → Prop) (text : List Char) (reader : Reader) : Prop :=
  facing (Utf8.encode text) reader

namespace Upheld

variable (upheld : Upheld facing fails)

include upheld

theorem faced_of_prefix {part text : List Char} (beginning : part <+: text)
    (faced : Faced facing text reader) : Faced facing part reader := by
  obtain ⟨rest, rfl⟩ := beginning
  refine upheld.part ?_ faced
  rw [Text.Utf8.encode_append]
  exact List.prefix_append _ _

theorem nothing {bytes : List UInt8} (holds : facing bytes reader) : facing [] reader :=
  upheld.part List.nil_prefix holds

theorem looks {bytes : List UInt8} (holds : facing bytes reader) :
    Upholds facing fails (fun shown after => bytes <+: shown ∧ facing shown after) Scan.peek
      reader := by
  refine upholds_onReader ?_
  rcases upheld.peek holds with ⟨shown, after, looked, longer, still⟩ | failed
  · exact .inl ⟨shown, after, looked, longer, still⟩
  · exact .inr failed

theorem readsOn {bytes : List UInt8} (holds : facing bytes reader) :
    Upholds facing fails (fun _ after => facing bytes after) Scan.fill reader :=
  upholds_onReader (upheld.fill holds)

theorem decodes {bytes : List UInt8} (holds : facing bytes reader) :
    Upholds facing fails (Faced facing) (decode bytes) reader := by
  unfold Upholds
  by_cases malformed : ∃ offending, Utf8.decode bytes = ([], .malformed offending)
  · obtain ⟨offending, malformed⟩ := malformed
    rw [outcome_decode_of_malformed malformed]
    refine ⟨upheld.nothing holds, ?_⟩
    rintro fault ⟨⟩
  · rw [outcome_decode (not_exists.mp malformed)]
    obtain ⟨rest, standing, _⟩ := Text.Utf8.exists_of_decode bytes
    exact upheld.part ⟨rest, standing.symm⟩ holds

theorem consumes {text : List Char} (faced : Faced facing text reader) :
    Upholds facing fails (fun _ after => facing [] after) (consumeText text) reader := by
  refine upholds_onReader ?_
  rcases upheld.consume faced with ⟨after, consumed, still⟩ | failed
  · exact .inl ⟨(), after, consumed, still⟩
  · exact .inr failed

/-! ## The text at hand -/

theorem textWithin (steps : Nat) (holds : facing [] reader) :
    Upholds facing fails (Faced facing) (Scan.textWithin steps) reader := by
  induction steps generalizing reader with
  | zero =>
      apply (upheld.looks holds).bind
      rintro bytes after ⟨_, shows⟩
      exact upheld.decodes shows
  | succ steps ih =>
      apply (upheld.looks holds).bind
      rintro bytes after ⟨_, shows⟩
      apply (upheld.decodes shows).bind
      intro shown here faced
      split
      · apply (upheld.readsOn faced).bind
        intro added filled still
        cases added with
        | true => exact ih (upheld.nothing still)
        | false => exact upholds_pure still
      · exact upholds_pure faced

theorem text (holds : facing [] reader) :
    Upholds facing fails (Faced facing) Scan.text reader := by
  have unfolded : outcome Scan.text reader =
      outcome (Scan.textWithin reader.pendingReads) reader := by
    rw [Scan.text, outcome_bind_of_ok (outcome_pendingReads reader)]
  rw [Upholds, unfolded]
  exact upheld.textWithin reader.pendingReads holds

theorem settle (matcher : Matcher) (steps : Nat) (bytes : List UInt8) {shown : List Char}
    (faced : Faced facing shown reader) :
    Upholds facing fails (fun result after => Faced facing result.2 after)
      (Scan.settle matcher steps bytes shown) reader := by
  induction steps generalizing bytes shown reader with
  | zero => exact upholds_pure faced
  | succ steps ih =>
      rw [Scan.settle]
      split
      · exact upholds_pure faced
      split
      · exact upholds_pure faced
      apply (upheld.readsOn faced).bind
      intro added filled still
      cases added with
      | false => exact upholds_pure still
      | true =>
          apply (upheld.looks still).bind
          rintro more middle ⟨_, shows⟩
          apply (upheld.decodes shows).bind
          intro longer after faced
          exact ih more faced

/-! ## Segments and runs -/

theorem matchRemaining (literal : String) (remaining : List Char) (holds : facing [] reader) :
    Upholds facing fails (fun _ after => facing [] after) (Scan.matchRemaining literal remaining)
      reader := by
  -- A literal goes on behind the text at hand with fewer characters left.
  induction length : remaining.length using Nat.strongRecOn generalizing remaining reader with
  | _ length ih =>
      rw [Scan.matchRemaining]
      split
      · exact upholds_pure holds
      apply (upheld.text holds).bind
      intro shown middle faced
      split
      · next whole =>
          exact upheld.consumes (upheld.faced_of_prefix (by simpa using whole) faced)
      split
      · next rest _ =>
          split
          · apply (upheld.consumes faced).bind
            intro _ after still
            exact ih _ (by omega) rest still rfl
          · exact upholds_stop (upheld.nothing faced)
      · exact upholds_stop (upheld.nothing faced)

theorem matchPattern (matcher : Matcher) (pattern : String) (holds : facing [] reader) :
    Upholds facing fails (fun _ after => facing [] after) (Scan.matchPattern matcher pattern)
      reader := by
  apply (upheld.text holds).bind
  intro shown first faced
  apply (upheld.looks faced).bind
  rintro bytes second ⟨longer, shows⟩
  have still : Faced facing shown second := upheld.part longer shows
  have settled := upheld.settle matcher (second.pendingReads + 1) bytes still
  rw [Upholds, outcome_bind_of_ok (outcome_pendingReads second)]
  apply settled.bind
  rintro ⟨verdict, text⟩ third faced
  cases verdict with
  | matched length =>
      apply (upheld.consumes (upheld.faced_of_prefix (List.take_prefix length text) faced)).bind
      intro _ after still
      exact upholds_pure still
  | starved => exact upholds_stop (upheld.nothing faced)
  | failed => exact upholds_stop (upheld.nothing faced)

theorem runSegment (compiled : CompiledPlan) (segment : PlanSegment) (holds : facing [] reader) :
    Upholds facing fails (fun _ after => facing [] after) (Scan.runSegment compiled segment)
      reader := by
  cases segment with
  | literal literal =>
      apply (upheld.matchRemaining literal literal.toList holds).bind
      intro _ after still
      exact upholds_pure still
  | capture slot index =>
      rw [Scan.runSegment]
      split
      · exact upholds_pure holds
      · apply (upheld.matchPattern _ _ holds).bind
        intro matched middle still
        apply (upholds_convert _ matched still).bind
        intro value after still
        exact upholds_pure still

theorem runSegments (compiled : CompiledPlan) (segments : List PlanSegment)
    (holds : facing [] reader) :
    Upholds facing fails (fun _ after => facing [] after) (Scan.runSegments compiled segments)
      reader := by
  induction segments generalizing reader with
  | nil => exact upholds_pure holds
  | cons segment rest ih =>
      apply (upheld.runSegment compiled segment holds).bind
      intro first middle still
      apply (ih still).bind
      intro others after still
      exact upholds_pure still

/-- A run upholds what the operations on its reader uphold. -/
theorem execute (compiled : Except PatternFault CompiledPlan) (holds : facing [] reader) :
    Upholds facing fails (fun _ after => facing [] after) (Scan.execute compiled) reader := by
  cases compiled with
  | error fault =>
      refine ⟨holds, ?_⟩
      rintro other ⟨⟩
  | ok compiled =>
      apply (upheld.runSegments compiled compiled.plan.segments holds).bind
      intro outputs after still
      exact upholds_pure still

end Upheld

end Unformat.Scan
