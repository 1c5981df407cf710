import Unformat.Proofs.Scan.LineAlone
import Unformat.Scanner

/-!
# One attempt at each line

A scan line by line over bytes that come without failures makes an attempt at each line, in order,
and then finds the end.  What an attempt leaves of its line does not matter to the next one.  When
faults are given back, each request for values makes one attempt.
-/

namespace Unformat

open Scan (Stop Echoes aloneOutcome)

/-! ## The lines to come -/

/-- What the attempts at a line and at those behind it come to, when `number` lines are before
it. -/
inductive Yields (compiled : Except PatternFault CompiledPlan) :
    Nat → Line → List (Except Stop (List Value)) → Prop
  | done {number : Nat} {line : Line} (none : line.chunks = []) : Yields compiled number line []
  | line {number : Nat} {line : Line} {result : Except Stop (List Value)}
      {results : List (Except Stop (List Value))} (some : line.chunks ≠ [])
      (echoes : Echoes (number + 1) line.before (aloneOutcome compiled line) result)
      (later : Yields compiled (number + 1) line.next results) :
      Yields compiled number line (result :: results)

theorem Line.flatten_first (before : Nat) (chunks : List (List UInt8)) :
    (first before chunks).chunks.flatten ++ (first before chunks).behind.flatten =
      chunks.flatten := by
  rw [first, flatten_lineChunks, flatten_behindChunks, firstLine_append_behindLine]

theorem OnLine.nextLine_of_start {line : Line} {reader : Reader}
    (onLine : OnLine line [] line.chunks reader) :
    ∃ after, reader.nextLine = (.ok (), after) ∧ OnLine line.next [] line.next.chunks after ∧
      after.base.rest = behindLine reader.base.rest := by
  obtain ⟨after, went, next⟩ := onLine.nextLine
  refine ⟨after, went, next, ?_⟩
  rw [next.rest_eq, Line.next, Line.flatten_first, onLine.behind_eq, if_neg List.not_mem_nil,
    flatten_behindChunks]
  rfl

theorem exists_yields (compiled : Except PatternFault CompiledPlan) {line : Line} {reader : Reader}
    (onLine : OnLine line [] line.chunks reader) (number : Nat) :
    ∃ results, Yields compiled number line results := by
  induction standing : reader.base.rest using byLines generalizing line reader number with
  | nil => exact ⟨[], .done ((onLine.eq_nil_iff List.not_mem_nil).mpr standing)⟩
  | cons bytes solid ih =>
      have some : line.chunks ≠ [] := fun none =>
        solid (standing ▸ (onLine.eq_nil_iff List.not_mem_nil).mp none)
      obtain ⟨_, _, _, _, _, _, echoes⟩ :=
        Scan.outcome_execute_of_onLine compiled onLine (number + 1)
      obtain ⟨after, _, next, left⟩ := onLine.nextLine_of_start
      obtain ⟨results, yields⟩ := ih next (number + 1) (standing ▸ left)
      exact ⟨_ :: results, .line some echoes yields⟩

theorem Yields.length_eq {compiled : Except PatternFault CompiledPlan} {number : Nat} {line : Line}
    {results : List (Except Stop (List Value))} {reader : Reader}
    (yields : Yields compiled number line results)
    (onLine : OnLine line [] line.chunks reader) :
    results.length = (linesOf reader.base.rest).length := by
  induction yields generalizing reader with
  | done none =>
      rw [(onLine.eq_nil_iff List.not_mem_nil).mp none]
      rfl
  | line some _ _ ih =>
      obtain ⟨after, _, next, left⟩ := onLine.nextLine_of_start
      have solid := mt (onLine.eq_nil_iff List.not_mem_nil).mpr some
      rw [linesOf_eq_cons solid, List.length_cons, List.length_cons, ih next, left]

/-! ## One attempt -/

namespace LineScan

@[simp] theorem settle_lineNumber (scan : LineScan) (attempt : LineAttempt) :
    (scan.settle attempt).2.lineNumber = attempt.line := by
  unfold settle
  dsimp only
  split
  · split <;> rfl
  all_goals rfl

@[simp] theorem settle_errors (scan : LineScan) (attempt : LineAttempt) :
    (scan.settle attempt).2.errors = scan.errors := by
  unfold settle
  dsimp only
  split
  · split <;> rfl
  all_goals rfl

end LineScan

namespace LineIteration

/-- The attempt at the next line, and the iteration after it. -/
def attempt (iteration : LineIteration) :
    Except ReaderFault (Option LineAttempt) × LineIteration :=
  match iteration.scan.attempt iteration.compiled iteration.reader with
  | (.ok (some attempt), reader) =>
      (.ok (some attempt), { iteration with scan := (iteration.scan.settle attempt).2, reader })
  | (other, reader) => (other, { iteration with reader })

/-- The iteration after so many attempts. -/
def afterAttempts : Nat → LineIteration → LineIteration
  | 0, iteration => iteration
  | count + 1, iteration => (afterAttempts count iteration).attempt.2

/-- The iteration after its next values have been asked for so many times. -/
def after : Nat → LineIteration → LineIteration
  | 0, iteration => iteration
  | count + 1, iteration => (after count iteration).next.2

/-- The next values, in at most `steps` attempts. -/
def nextWithin (steps : Nat) (iteration : LineIteration) : ScanStep × LineIteration :=
  let (step, scan, reader) := iteration.scan.nextWithin iteration.compiled steps iteration.reader
  (step, { iteration with scan, reader })

theorem next_eq (iteration : LineIteration) :
    iteration.next = iteration.nextWithin (iteration.reader.bytesLeft + 2) := rfl

/-- The iteration is before a line, which has `number` lines before it. -/
structure Before (compiled : Except PatternFault CompiledPlan) (number : Nat) (line : Line)
    (results : List (Except Stop (List Value))) (iteration : LineIteration) : Prop where
  compiled_eq : iteration.compiled = compiled
  number_eq : iteration.scan.lineNumber = number
  onLine : OnLine line [] line.chunks iteration.reader
  yields : Yields compiled number line results

variable {compiled : Except PatternFault CompiledPlan} {number : Nat} {line : Line}
  {results : List (Except Stop (List Value))} {iteration : LineIteration}

/-- Behind the last line there is none to try. -/
theorem Before.attempt_of_none (before : Before compiled number line [] iteration) :
    ∃ next, iteration.attempt = (.ok none, next) ∧ next.scan = iteration.scan ∧
      Before compiled number line [] next := by
  obtain ⟨same, count, onLine, yields⟩ := before
  obtain ⟨reader, asked, still⟩ := onLine.atEnd
  cases yields with
  | done none =>
      rw [none] at asked
      refine ⟨{ iteration with reader }, ?_, rfl, same, count, still, .done none⟩
      simp [attempt, LineScan.attempt, asked]

/-- The attempt at a line comes to what the line alone comes to, and leads to the line behind it. -/
theorem Before.attempt_of_line {result : Except Stop (List Value)}
    (before : Before compiled number line (result :: results) iteration) :
    ∃ next, iteration.attempt = (.ok (some ⟨number + 1, result, .ok ()⟩), next) ∧
      next.scan = (iteration.scan.settle ⟨number + 1, result, .ok ()⟩).2 ∧
        Before compiled (number + 1) line.next results next := by
  obtain ⟨same, count, onLine, yields⟩ := before
  cases yields with
  | line some echoes later =>
      obtain ⟨middle, asked, still⟩ := onLine.atEnd
      obtain ⟨_, _, outcome, ran, came, stays, here⟩ :=
        Scan.outcome_execute_of_onLine compiled still (number + 1)
      obtain ⟨reader, skipped, next⟩ := stays.nextLine
      have made : LineAttempt.make compiled (number + 1) middle =
          (⟨number + 1, result, .ok ()⟩, reader) := by
        unfold Scan.outcome at came
        rw [LineAttempt.make, came]
        simp only [skipped, here.unique echoes]
      refine ⟨{ iteration with scan := (iteration.scan.settle _).2, reader }, ?_, rfl, same, ?_,
        next, later⟩
      · simp [attempt, LineScan.attempt, asked, some, same, count, made]
      · simp

/-! ## One attempt after the other -/

theorem attempt_errors (iteration : LineIteration) :
    iteration.attempt.2.scan.errors = iteration.scan.errors := by
  rw [attempt]
  split <;> simp

theorem afterAttempts_errors (count : Nat) (iteration : LineIteration) :
    (iteration.afterAttempts count).scan.errors = iteration.scan.errors := by
  induction count with
  | zero => rfl
  | succ count ih => rw [afterAttempts, attempt_errors, ih]

theorem afterAttempts_add (first second : Nat) (iteration : LineIteration) :
    (iteration.afterAttempts first).afterAttempts second =
      iteration.afterAttempts (first + second) := by
  induction second with
  | zero => rfl
  | succ second ih => exact congrArg (fun iteration => iteration.attempt.2) ih

theorem afterAttempts_succ (count : Nat) (iteration : LineIteration) :
    iteration.afterAttempts (count + 1) = iteration.attempt.2.afterAttempts count := by
  rw [Nat.add_comm, ← afterAttempts_add]
  rfl

variable {offset : Nat} {chunks : List (List UInt8)}

/-- Every attempt leads from one line to the next. -/
theorem before_afterAttempts (before : Before compiled 0 (.nth offset chunks 0) results iteration)
    (count : Nat) (within : count ≤ results.length) :
    Before compiled count (.nth offset chunks count) (results.drop count)
      (iteration.afterAttempts count) := by
  induction count with
  | zero => exact before
  | succ count ih =>
      have here := ih (Nat.le_of_succ_le within)
      rw [List.drop_eq_getElem_cons within] at here
      obtain ⟨next, tried, _, there⟩ := here.attempt_of_line
      rw [afterAttempts, tried]
      exact there

theorem before_afterAttempts_of_le
    (before : Before compiled 0 (.nth offset chunks 0) results iteration) {count : Nat}
    (past : results.length ≤ count) :
    Before compiled results.length (.nth offset chunks results.length) []
      (iteration.afterAttempts count) := by
  obtain ⟨more, rfl⟩ := Nat.exists_eq_add_of_le past
  induction more with
  | zero => simpa using before_afterAttempts before results.length (Nat.le_refl _)
  | succ more ih =>
      obtain ⟨next, tried, _, there⟩ := (ih (Nat.le_add_right _ _)).attempt_of_none
      rw [← Nat.add_assoc, afterAttempts, tried]
      exact there

/-! ## Asking for the next values -/

theorem nextWithin_succ (steps : Nat) (iteration : LineIteration) :
    iteration.nextWithin (steps + 1) =
      match iteration.attempt.1 with
      | .error fault => (.stopped (.reader fault), iteration.attempt.2)
      | .ok none => (.finished, iteration.attempt.2)
      | .ok (some attempt) =>
          match (iteration.scan.settle attempt).1 with
          | some step => (step, iteration.attempt.2)
          | none => iteration.attempt.2.nextWithin steps := by
  simp only [nextWithin, attempt, LineScan.nextWithin]
  rcases iteration.scan.attempt iteration.compiled iteration.reader with
    ⟨_ | _ | attempt, reader⟩
  · rfl
  · rfl
  · rcases settled : iteration.scan.settle attempt with ⟨_ | step, scan⟩ <;> simp [settled]

theorem Before.nextWithin_of_none (before : Before compiled number line [] iteration)
    (steps : Nat) : iteration.nextWithin (steps + 1) = (.finished, iteration.attempt.2) := by
  obtain ⟨next, tried, _⟩ := before.attempt_of_none
  rw [nextWithin_succ, tried]

theorem Before.length_le (before : Before compiled number line results iteration) :
    results.length ≤ iteration.reader.bytesLeft := by
  rw [before.yields.length_eq before.onLine]
  exact Nat.le_trans (length_linesOf_le _) (ByteReader.length_rest_le _)

/-- What a request brings for an attempt that is given back. -/
def stepOf : Except Stop (List Value) → ScanStep
  | .ok values => .values values
  | .error stop => .stopped stop

theorem settle_of_raise {scan : LineScan} (raises : scan.errors = .raise) (line : Nat)
    (result : Except Stop (List Value)) :
    scan.settle ⟨line, result, .ok ()⟩ =
      (some (stepOf result), { scan with lineNumber := line }) := by
  obtain ⟨errors, _, _⟩ := scan
  obtain rfl : errors = .raise := raises
  rcases result with stop | values
  · cases stop <;> rfl
  · rfl

/-- When faults are given back, a request makes one attempt. -/
theorem Before.next_of_raise (before : Before compiled number line results iteration)
    (raises : iteration.scan.errors = .raise) :
    iteration.next = (results.head?.elim .finished stepOf, iteration.attempt.2) := by
  rw [next_eq]
  cases results with
  | nil => exact before.nextWithin_of_none _
  | cons result results =>
      obtain ⟨next, tried, _⟩ := before.attempt_of_line
      rw [nextWithin_succ, tried]
      simp only [settle_of_raise raises]
      rfl

theorem after_of_raise (before : Before compiled 0 (.nth offset chunks 0) results iteration)
    (raises : iteration.scan.errors = .raise) (asked : Nat) :
    iteration.after asked = iteration.afterAttempts asked ∧
      (iteration.after asked).next.1 = results[asked]?.elim .finished stepOf := by
  have brings (asked : Nat) : (iteration.afterAttempts asked).next =
      (results[asked]?.elim .finished stepOf, (iteration.afterAttempts asked).attempt.2) := by
    have still := (afterAttempts_errors asked iteration).trans raises
    rcases Nat.le_total asked results.length with within | past
    · rw [(before_afterAttempts before asked within).next_of_raise still, List.head?_drop]
    · rw [(before_afterAttempts_of_le before past).next_of_raise still,
        List.getElem?_eq_none past]
      rfl
  have same : iteration.after asked = iteration.afterAttempts asked := by
    induction asked with
    | zero => rfl
    | succ asked ih => rw [after, ih, brings, afterAttempts]
  rw [same, brings]
  exact ⟨rfl, rfl⟩

end LineIteration

end Unformat
