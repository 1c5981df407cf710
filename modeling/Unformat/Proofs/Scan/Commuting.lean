import Unformat.Proofs.Scan.Reading

/-!
# Runs and maps of readers

A map of readers that commutes with looking, reading on and consuming, and that leaves alone what
else a run asks of its reader, commutes with whole runs: the run over the image of a reader comes to
the same result, and leaves the image of what it leaves of the reader.
-/

namespace Unformat.Scan

open Text (Utf8.encode)

variable {α β : Type}

/-- The map commutes with what a run asks of its reader. -/
structure Commutes (image : Reader → Reader) : Prop where
  peek : ∀ reader, (image reader).peek = (reader.peek.1, image reader.peek.2)
  fill : ∀ reader, (image reader).fill = (reader.fill.1, image reader.fill.2)
  consume : ∀ reader count,
    (image reader).consume count = ((reader.consume count).1, image (reader.consume count).2)
  pendingReads_eq : ∀ reader, (image reader).pendingReads = reader.pendingReads
  consumed_eq : ∀ reader, (image reader).consumed = reader.consumed

/-- The map commutes with the step. -/
def Carries (image : Reader → Reader) (step : Scanning α) : Prop :=
  ∀ reader, outcome step (image reader) = ((outcome step reader).1, image (outcome step reader).2)

variable {image : Reader → Reader}

theorem carries_pure (value : α) : Carries image (pure value) := fun _ => rfl

theorem carries_stop (fault : ScanFault) : Carries image (stop fault : Scanning α) := fun _ => rfl

theorem Carries.bind {step : Scanning α} {next : α → Scanning β} (first : Carries image step)
    (later : ∀ value, Carries image (next value)) : Carries image (step >>= next) := by
  intro reader
  rw [outcome_bind, outcome_bind, first reader]
  rcases outcome step reader with ⟨_ | value, after⟩
  · rfl
  · exact later value after

theorem carries_onReader {operation : Reader → Except ReaderFault α × Reader}
    (commutes : ∀ reader,
      operation (image reader) = ((operation reader).1, image (operation reader).2)) :
    Carries image (onReader operation) := by
  intro reader
  have unfolded (here : Reader) : outcome (onReader operation) here =
      ((operation here).1.mapError .reader, (operation here).2) := rfl
  rw [unfolded, unfolded, commutes]

theorem carries_convert (rule : Rule) (matched : List Char) :
    Carries image (Scan.convert rule matched) := by
  rw [Scan.convert]
  split
  · exact carries_pure none
  · split
    · exact carries_pure _
    · exact carries_stop _

namespace Commutes

variable (commutes : Commutes image)

include commutes

theorem peeks : Carries image Scan.peek := carries_onReader commutes.peek

theorem fills : Carries image Scan.fill := carries_onReader commutes.fill

theorem consumes (text : List Char) : Carries image (consumeText text) :=
  carries_onReader fun reader => commutes.consume reader _

theorem decodes (bytes : List UInt8) : Carries image (decode bytes) := by
  intro reader
  simp only [outcome, decode, ExceptT.run, StateT.run, commutes.consumed_eq]
  cases Text.Utf8.longestPrefix bytes <;> rfl

theorem counts : Carries image Scan.pendingReads := by
  intro reader
  rw [outcome_pendingReads, outcome_pendingReads, commutes.pendingReads_eq]

theorem textWithin (steps : Nat) : Carries image (Scan.textWithin steps) := by
  induction steps with
  | zero =>
      apply commutes.peeks.bind
      intro bytes
      exact commutes.decodes bytes
  | succ steps ih =>
      apply commutes.peeks.bind
      intro bytes
      apply (commutes.decodes bytes).bind
      intro text
      split
      · apply commutes.fills.bind
        intro added
        cases added with
        | true => exact ih
        | false => exact carries_pure text
      · exact carries_pure text

theorem text : Carries image Scan.text := commutes.counts.bind commutes.textWithin

theorem settle (matcher : Matcher) (steps : Nat) (bytes : List UInt8) (shown : List Char) :
    Carries image (Scan.settle matcher steps bytes shown) := by
  induction steps generalizing bytes shown with
  | zero => exact carries_pure _
  | succ steps ih =>
      rw [Scan.settle]
      split
      · exact carries_pure _
      split
      · exact carries_pure _
      apply commutes.fills.bind
      intro added
      cases added with
      | false => exact carries_pure _
      | true =>
          apply commutes.peeks.bind
          intro more
          apply (commutes.decodes more).bind
          intro longer
          exact ih more longer

/-! ## Segments and runs -/

theorem matchRemaining (literal : String) (remaining : List Char) :
    Carries image (Scan.matchRemaining literal remaining) := by
  -- A literal goes on behind the text at hand with fewer characters left.
  induction length : remaining.length using Nat.strongRecOn generalizing remaining with
  | _ length ih =>
      rw [Scan.matchRemaining]
      split
      · exact carries_pure ()
      apply commutes.text.bind
      intro shown
      split
      · exact commutes.consumes remaining
      split
      · next rest _ =>
          split
          · apply (commutes.consumes shown).bind
            intro _
            exact ih _ (by omega) rest rfl
          · exact carries_stop _
      · exact carries_stop _

theorem matchPattern (matcher : Matcher) (pattern : String) :
    Carries image (Scan.matchPattern matcher pattern) := by
  apply commutes.text.bind
  intro shown
  apply commutes.peeks.bind
  intro bytes
  apply commutes.counts.bind
  intro reads
  apply (commutes.settle matcher (reads + 1) bytes shown).bind
  rintro ⟨verdict, text⟩
  cases verdict with
  | matched length =>
      apply (commutes.consumes _).bind
      intro _
      exact carries_pure _
  | starved => exact carries_stop _
  | failed => exact carries_stop _

theorem runSegment (compiled : CompiledPlan) (segment : PlanSegment) :
    Carries image (Scan.runSegment compiled segment) := by
  cases segment with
  | literal literal =>
      apply (commutes.matchRemaining literal literal.toList).bind
      intro _
      exact carries_pure _
  | capture slot index =>
      rw [Scan.runSegment]
      split
      · exact carries_pure _
      · apply (commutes.matchPattern _ _).bind
        intro matched
        apply (carries_convert _ matched).bind
        intro value
        exact carries_pure _

theorem runSegments (compiled : CompiledPlan) (segments : List PlanSegment) :
    Carries image (Scan.runSegments compiled segments) := by
  induction segments with
  | nil => exact carries_pure []
  | cons segment rest ih =>
      apply (commutes.runSegment compiled segment).bind
      intro first
      apply ih.bind
      intro others
      exact carries_pure _

/-- The map commutes with runs. -/
theorem execute (compiled : Except PatternFault CompiledPlan) :
    Carries image (Scan.execute compiled) := by
  cases compiled with
  | error fault => exact fun _ => rfl
  | ok compiled =>
      apply (commutes.runSegments compiled compiled.plan.segments).bind
      intro outputs
      exact carries_pure _

end Commutes

end Unformat.Scan
