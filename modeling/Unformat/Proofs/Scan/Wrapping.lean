import Unformat.Proofs.Input.Doubling
import Unformat.Proofs.Scan.Commuting
import Unformat.Proofs.Scan.LineAnswers

/-!
# Lines of a line reader

A scan line by line over a line reader puts another line reader around it.  The attempt at the first
line comes to what it comes to over the byte reader.  Then only the outer line reader goes on to the
next line: the inner one is done with its line for good, and nothing more is found.
-/

namespace Unformat

open Scan (Stop Commutes outcome)

theorem commutes_doubled : Commutes Reader.doubled where
  peek := Reader.peek_doubled
  fill := Reader.fill_doubled
  consume := Reader.consume_doubled
  pendingReads_eq reader := by rw [Reader.pendingReads, Reader.base_doubled, Reader.pendingReads]
  consumed_eq reader := by rw [Reader.consumed, Reader.base_doubled, Reader.consumed]

/-! ## The inner line reader -/

theorem OnLine.eq_nil_of_mem {line : Line} {taken : List UInt8} {chunks : List (List UInt8)}
    {reader : Reader} (onLine : OnLine line taken chunks reader) (fed : lineFeed ∈ taken) :
    chunks = [] := by
  rw [onLine.chunks_eq, if_pos fed]

/-- Skipping within a line reader comes to the end of its line and no further. -/
theorem OnLine.skipLine {line : Line} {taken : List UInt8} {chunks : List (List UInt8)}
    {reader : Reader} (onLine : OnLine line taken chunks reader) {steps : Nat}
    (enough : chunks.length < steps) :
    ∃ after taken, Reader.skipLine steps reader = (.ok (), after) ∧ OnLine line taken [] after := by
  -- A step that finds no line feed takes a whole chunk of the line.
  induction steps generalizing taken chunks reader with
  | zero => omega
  | succ steps ih =>
      obtain ⟨middle, looked, here⟩ := onLine.peek
      rw [Reader.skipLine, looked]
      cases chunks with
      | nil => exact ⟨middle, taken, rfl, here⟩
      | cons chunk rest =>
          have full := onLine.solid chunk List.mem_cons_self
          rw [List.headD_cons] at looked ⊢
          simp only [List.isEmpty_iff, full, if_false]
          by_cases member : lineFeed ∈ chunk
          · obtain ⟨front, behind, absent, rfl⟩ := exists_front_of_mem member
            have within : front.length + 1 ≤
                (((front ++ lineFeed :: behind) :: rest).headD []).length := by simp
            obtain ⟨after, consumed, there⟩ := here.consume within
            rw [List.headD_cons, take_taking, List.take_length_add_append] at there
            have nothing := there.eq_nil_of_mem (by simp)
            rw [nothing] at there
            simp only [lineLength?_append absent]
            exact ⟨after, _, consumed, there⟩
          · have whole : chunk.length ≤ ((chunk :: rest).headD []).length := Nat.le_refl _
            obtain ⟨next, consumed, there⟩ := here.consume whole
            rw [List.headD_cons, taking_of_not_mem member, dropFront,
              if_pos (Nat.le_refl _)] at there
            simp only [lineLength?_of_not_mem member, consumed]
            exact ih there (by simpa using enough)

/-- The outer line reader goes on, and the inner one is done with its line. -/
theorem OnLine.nextLine_doubled {line : Line} {taken : List UInt8} {chunks : List (List UInt8)}
    {reader : Reader} (onLine : OnLine line taken chunks reader) :
    ∃ inner taken, reader.doubled.nextLine = (.ok (), inner.around false) ∧
      OnLine line taken [] inner := by
  obtain ⟨base, ⟨_, rfl, rfl, _⟩ | ⟨_, rfl, _⟩⟩ := onLine.cases
  · exact ⟨⟨base, [true]⟩, taken, rfl, onLine⟩
  · have enough : chunks.length < base.pending.length + 2 :=
      Nat.lt_succ_of_le onLine.length_le
    obtain ⟨inner, taken, skipped, done⟩ := onLine.skipLine enough
    refine ⟨inner, taken, ?_, done⟩
    simp only [Reader.doubled, Reader.nextLine, Reader.pendingReads, skipped]

/-! ## Attempts -/

namespace LineIteration

/-- The inner line reader is done with its line, and the outer one is before the next. -/
def Spent (iteration : LineIteration) : Prop :=
  ∃ inner line taken, iteration.reader = inner.around false ∧ OnLine line taken [] inner

/-- Then there is nothing to try. -/
theorem Spent.attempt {iteration : LineIteration} (spent : iteration.Spent) :
    iteration.attempt.1 = .ok none ∧ iteration.attempt.2.scan = iteration.scan ∧
      iteration.attempt.2.Spent := by
  obtain ⟨compiled, scan, reader⟩ := iteration
  obtain ⟨⟨base, lines⟩, line, taken, rfl, onLine⟩ := spent
  obtain ⟨after, looked, still⟩ := onLine.peek
  obtain ⟨middle, seen, rfl⟩ : ∃ middle, Reader.peekThrough lines base = (.ok [], middle) ∧
      after = ⟨middle, lines⟩ := by
    simp only [Reader.peek] at looked
    rcases seen : Reader.peekThrough lines base with ⟨result, middle⟩
    rw [seen] at looked
    cases looked
    exact ⟨middle, rfl, rfl⟩
  have ended : Reader.atEnd (Reader.around false ⟨base, lines⟩) =
      (.ok true, Reader.around false ⟨middle, lines⟩) := by
    simp only [Reader.atEnd, Reader.around, Reader.peek, Reader.peekThrough, seen]
    rfl
  simp only [LineIteration.attempt, LineScan.attempt, ended]
  exact ⟨trivial, trivial, _, line, taken, rfl, still⟩

variable {compiled : Except PatternFault CompiledPlan} {number : Nat} {line : Line}
  {results : List (Except Stop (List Value))} {iteration : LineIteration}

/-- The iteration with a line reader more around its reader. -/
def doubled (iteration : LineIteration) : LineIteration :=
  { iteration with reader := iteration.reader.doubled }

/-- Over a line reader the attempt at the first line comes to the same, and there is no other. -/
theorem Before.attempt_doubled (before : Before compiled number line results iteration) :
    iteration.doubled.attempt.1 = iteration.attempt.1 ∧
      iteration.doubled.attempt.2.scan = iteration.attempt.2.scan ∧
        iteration.doubled.attempt.2.Spent := by
  obtain ⟨rfl, _, onLine, _⟩ := before
  obtain ⟨compiled, scan, reader⟩ := iteration
  simp only at onLine
  obtain ⟨middle, asked, still⟩ := onLine.atEnd
  obtain ⟨base, ⟨fed, _⟩ | ⟨_, rfl, _⟩⟩ := onLine.cases
  · cases fed
  obtain ⟨other, ⟨fed, _⟩ | ⟨_, rfl, _⟩⟩ := still.cases
  · cases fed
  have askedDoubled := Reader.atEnd_doubled base []
  rw [asked] at askedDoubled
  by_cases none : line.chunks = []
  · simp only [none, List.not_mem_nil, not_false_eq_true, and_self, decide_true]
      at asked askedDoubled
    rw [none] at still
    simp only [doubled, attempt, LineScan.attempt, asked, askedDoubled]
    exact ⟨trivial, trivial, ⟨other, [false]⟩, line, [], rfl, still⟩
  · simp only [none, and_false, decide_false] at asked askedDoubled
    obtain ⟨taken, left, came, after, ran, stays, _⟩ :=
      Scan.outcome_execute_of_onLine compiled still (scan.lineNumber + 1)
    have ranDoubled := commutes_doubled.execute compiled ⟨other, [false]⟩
    rw [ran] at ranDoubled
    obtain ⟨next, went, _⟩ := stays.nextLine
    obtain ⟨inner, taken, wentDoubled, done⟩ := stays.nextLine_doubled
    unfold outcome at ran ranDoubled
    simp only [doubled, attempt, LineScan.attempt, asked, askedDoubled, LineAttempt.make, ran,
      ranDoubled, went, wentDoubled]
    exact ⟨trivial, trivial, inner, line, taken, rfl, done⟩

theorem Spent.afterAttempts {iteration : LineIteration} (spent : iteration.Spent) (count : Nat) :
    (iteration.afterAttempts count).Spent := by
  induction count with
  | zero => exact spent
  | succ count ih => exact ih.attempt.2.2

theorem Spent.tries {iteration : LineIteration} (spent : iteration.Spent) : Tries [] iteration :=
  .done fun count => (spent.afterAttempts count).attempt.1

/-- Over a line reader only the first line is tried. -/
theorem Before.tries_doubled (before : Before compiled number line results iteration) :
    Tries (results.take 1) iteration.doubled := by
  obtain ⟨same, _, spent⟩ := before.attempt_doubled
  cases results with
  | nil =>
      obtain ⟨next, tried, _⟩ := before.attempt_of_none
      apply Tries.done
      intro count
      cases count with
      | zero => exact same.trans (congrArg Prod.fst tried)
      | succ count =>
          rw [afterAttempts_succ]
          exact (spent.afterAttempts count).attempt.1
  | cons result results =>
      obtain ⟨next, tried, _⟩ := before.attempt_of_line
      refine .line ?_ (Nat.zero_le _) spent.tries
      rw [same, tried, ← before.number_eq]
      rfl

/-! ## Line readers stay around -/

/-- There are so many line readers around the bytes, whatever is tried. -/
def Depth (depth : Nat) (iteration : LineIteration) : Prop :=
  ∀ count, (iteration.afterAttempts count).reader.lines.length = depth

theorem Depth.next {depth : Nat} (keeps : iteration.Depth depth) :
    iteration.next.2.Depth depth := by
  obtain ⟨tried, came⟩ := exists_nextWithin_eq (iteration.reader.bytesLeft + 2) iteration
  intro count
  rw [next_eq, came, afterAttempts_add]
  exact keeps (tried + count)

theorem Before.depth (before : Before compiled number line results iteration) :
    iteration.Depth 1 := by
  intro count
  induction count generalizing number line results iteration with
  | zero =>
      have lines := before.onLine.lines_eq
      rw [afterAttempts, lines, List.length_singleton]
  | succ count ih =>
      rw [afterAttempts_succ]
      cases results with
      | nil =>
          obtain ⟨next, tried, _, there⟩ := before.attempt_of_none
          rw [tried]
          exact ih there
      | cons result results =>
          obtain ⟨next, tried, _, there⟩ := before.attempt_of_line
          rw [tried]
          exact ih there

theorem Before.depth_doubled (before : Before compiled number line results iteration) :
    iteration.doubled.Depth 2 := by
  obtain ⟨_, _, spent⟩ := before.attempt_doubled
  intro count
  cases count with
  | zero =>
      have lines := before.onLine.lines_eq
      rw [afterAttempts, doubled, Reader.doubled, lines]
      rfl
  | succ count =>
      obtain ⟨inner, line, taken, standing, onLine⟩ := spent.afterAttempts count
      rw [afterAttempts_succ, standing, Reader.around, onLine.lines_eq]
      rfl

end LineIteration

end Unformat
