import Unformat.CommandLine.Run
import Unformat.Proofs.Scan.Accounting
import Unformat.Proofs.Input.Steady
import Unformat.Proofs.Scan.Chunking
import Unformat.Proofs.Scan.Upholding

/-!
# Runs back to back and their progress

A run back to back takes the separator, unless it is the first, and the texts of its segments.  As
long as one of these has a character the scan goes on towards the end of its bytes, and is over
after no more runs than there are bytes.  Nothing else makes it go on: a run that takes nothing is
made again and again.
-/

namespace Unformat

open Reader (Passes)
open Scan (Known Obstacle Stop StopsIn TakesAll Upheld Upholds outcome)
open Text (Utf8.encode)

/-! ## Readers whose reads do not fail -/

namespace Reader

/-- What a byte reader has before it: bytes, reads, and the end until it is met. -/
def ahead (reader : Reader) : Nat :=
  reader.remaining.length + reader.pendingReads + if reader.base.ended then 0 else 1

/-- The second reader is the first one, or has less before it. -/
def GoesOn (first second : Reader) : Prop := second = first ∨ second.ahead < first.ahead

variable {first second third : Reader}

theorem GoesOn.trans (one : GoesOn first second) (other : GoesOn second third) :
    GoesOn first third := by
  rcases one with rfl | less
  · exact other
  · rcases other with rfl | more
    · exact .inr less
    · exact .inr (more.trans less)

theorem goesOn_fill (bare : first.lines = []) : GoesOn first first.fill.2 := by
  obtain ⟨⟨pending, buffer, ended, consumed⟩, lines⟩ := first
  obtain rfl : lines = [] := bare
  cases ended with
  | true => exact .inl rfl
  | false =>
      right
      match pending with
      | [] | .failure _ :: _ | .data [] :: _ =>
          simp [ahead, fill, fillThrough, ByteReader.fill, remaining, pendingReads,
            Delivery.content]
      | .data (_ :: _) :: _ =>
          simp [ahead, fill, fillThrough, ByteReader.fill, remaining, pendingReads,
            Delivery.content]

theorem goesOn_peek (bare : first.lines = []) : GoesOn first first.peek.2 := by
  obtain ⟨base, lines⟩ := first
  obtain rfl : lines = [] := bare
  cases standing : base.buffer with
  | cons byte buffer =>
      left
      simp [peek, peekThrough, ByteReader.peek, standing]
  | nil =>
      have same : (Reader.peek ⟨base, []⟩).2 = (Reader.fill ⟨base, []⟩).2 := by
        simp only [peek, peekThrough, fill, fillThrough, ByteReader.peek, standing]
        rcases base.fill with ⟨_ | _, _⟩ <;> rfl
      rw [same]
      exact goesOn_fill rfl

end Reader

/-- A byte reader whose reads do not fail has the bytes at hand.  It has come to this from the
first one, and no byte is lost between the two. -/
structure Unhindered (first : Reader) (bytes : List UInt8) (reader : Reader) : Prop where
  bare : reader.lines = []
  steady : reader.base.Steady
  atHand : bytes <+: reader.base.buffer
  goesOn : first.GoesOn reader
  total_eq : reader.consumed + reader.base.rest.length = first.consumed + first.base.rest.length

theorem ByteReader.headD_chunks_of_atHand {reader : ByteReader} {bytes : List UInt8}
    (atHand : bytes <+: reader.buffer) : bytes <+: reader.chunks.headD [] := by
  unfold chunks
  split
  · next empty =>
      rw [empty] at atHand
      rw [List.prefix_nil.mp atHand]
      exact List.nil_prefix
  · exact atHand

theorem upheld_unhindered (first : Reader) : Upheld (Unhindered first) fun _ => False where
  part beginning holds := { holds with atHand := beginning.trans holds.atHand }
  peek := by
    rintro bytes ⟨base, lines⟩ ⟨bare, steady, atHand, goesOn, whole⟩
    obtain rfl : lines = [] := bare
    obtain ⟨after, looked, stands, buffer⟩ := steady.stands.peek
    have came : Reader.peek ⟨base, []⟩ = (.ok (base.chunks.headD []), ⟨after, []⟩) := by
      rw [Reader.peek, Reader.peekThrough, looked]
    have onwards : Reader.GoesOn ⟨base, []⟩ (Reader.peek ⟨base, []⟩).2 := Reader.goesOn_peek rfl
    rw [came] at onwards
    left
    refine ⟨base.chunks.headD [], ⟨after, []⟩, came, ?_, rfl, stands.steady, ?_,
      goesOn.trans onwards, ?_⟩
    · exact ByteReader.headD_chunks_of_atHand atHand
    · rw [buffer]
    · rw [← whole]
      simp only [Reader.consumed, ByteReader.rest, stands.chunks_eq, stands.consumed_eq]
  fill := by
    rintro bytes ⟨base, lines⟩ ⟨bare, steady, atHand, goesOn, whole⟩
    obtain rfl : lines = [] := bare
    obtain ⟨after, filled, still, buffer, coming, same⟩ := ByteReader.fill_of_steady steady
    have came : Reader.fill ⟨base, []⟩ = (.ok (!base.toCome.isEmpty), ⟨after, []⟩) := by
      rw [Reader.fill, Reader.fillThrough, filled]
    have onwards : Reader.GoesOn ⟨base, []⟩ (Reader.fill ⟨base, []⟩).2 := Reader.goesOn_fill rfl
    rw [came] at onwards
    have rest : after.rest = base.rest := by
      rw [ByteReader.rest_eq, ByteReader.rest_eq, buffer, coming, List.append_assoc]
      cases base.toCome <;> rfl
    left
    refine ⟨!base.toCome.isEmpty, ⟨after, []⟩, came, rfl, still, ?_, goesOn.trans onwards, ?_⟩
    · rw [buffer]
      exact atHand.trans (List.prefix_append _ _)
    · rw [← whole]
      simp only [Reader.consumed, rest, same]
  consume := by
    rintro bytes reader ⟨bare, steady, atHand, goesOn, whole⟩
    left
    obtain ⟨more, split⟩ := atHand
    obtain ⟨base, lines⟩ := reader
    obtain rfl : lines = [] := bare
    have within : ¬ ((bytes.length : Int) < 0 ∨ (base.buffer.length : Int) < bytes.length) := by
      rw [← split, List.length_append]
      omega
    have later : ByteReader.toCome { base with
        buffer := base.buffer.drop bytes.length, consumed := base.consumed + bytes.length } =
          base.toCome := rfl
    have length : base.buffer.length = bytes.length + more.length := by
      rw [← split, List.length_append]
    refine ⟨⟨{ base with
      buffer := base.buffer.drop bytes.length, consumed := base.consumed + bytes.length }, []⟩,
      ?_, rfl, steady, List.nil_prefix, goesOn.trans ?_, ?_⟩
    · simp only [Reader.consume, Reader.consumeThrough, ByteReader.consume, if_neg within]
      rfl
    · cases bytes with
      | nil => exact .inl rfl
      | cons byte bytes =>
          right
          simp only [Reader.ahead, Reader.remaining, Reader.pendingReads, List.length_append,
            List.length_drop, List.length_cons] at length ⊢
          omega
    · rw [← whole]
      simp only [Reader.consumed, ByteReader.rest_eq, later, List.length_append, List.length_drop]
      omega

/-! ## What one run takes -/

theorem Scan.Obstacle.ne_pattern {offset : Nat} {stop : Stop} (obstacle : Obstacle offset stop)
    (fault : PatternFault) : stop ≠ .pattern fault := by
  cases obstacle <;> rintro ⟨⟩

theorem Scan.StopsIn.ne_pattern {compiled : CompiledPlan} {remaining : List UInt8} {offset : Nat}
    {segment : PlanSegment} {stop : Stop} {text : List Char}
    (stops : StopsIn compiled remaining offset segment stop text) (fault : PatternFault) :
    stop ≠ .pattern fault := by
  cases stops with
  | literal beginning short cause =>
      rcases cause with rfl | obstacle
      · rintro ⟨⟩
      · exact obstacle.ne_pattern fault
  | obstacle obstacle => exact obstacle.ne_pattern fault
  | mismatch found => rintro ⟨⟩
  | unconvertible found typed finds refuses => rintro ⟨⟩

namespace RepeatedScan

/-- The text that has to stand in front of the next run. -/
def between (scan : RepeatedScan) : String :=
  if 0 < scan.count then scan.separator.getD "" else ""

theorem step_eq (compiled : Except PatternFault CompiledPlan) (scan : RepeatedScan) :
    scan.step compiled = Scan.matchLiteral scan.between >>= fun _ => Scan.execute compiled := by
  have nothing : Scan.matchLiteral "" = pure () := by
    rw [Scan.matchLiteral, Scan.matchRemaining]
    rfl
  have alone : (pure () >>= fun _ => Scan.execute compiled : Scanning (List Value)) =
      Scan.execute compiled := pure_bind () _
  unfold step between
  cases scan.separator with
  | none =>
      rw [Option.getD_none, ite_self, nothing, alone]
  | some separator =>
      by_cases later : 0 < scan.count
      · simp only [if_pos later, Option.getD_some]
      · simp only [if_neg later, nothing, alone]

/-- A run takes the text that has to stand in front of it and, behind that, the texts of the
segments. -/
def Takes (compiled : CompiledPlan) (scan : RepeatedScan) (remaining taken : List UInt8) : Prop :=
  ∃ texts outputs,
    TakesAll compiled (remaining.drop (Utf8.encode scan.between.toList).length)
      compiled.plan.segments texts outputs ∧
    taken = Utf8.encode scan.between.toList ++ texts.flatMap Utf8.encode

theorem outcome_step {compiled : CompiledPlan} (known : Known compiled compiled.plan.segments)
    (scan : RepeatedScan) {reader : Reader} (bare : reader.lines = []) :
    (∃ values taken after, outcome (scan.step (.ok compiled)) reader = (.ok values, after) ∧
      scan.Takes compiled reader.remaining taken ∧ Passes taken reader after) ∨
    ∃ stop after, outcome (scan.step (.ok compiled)) reader = (.error stop, after) ∧
      ∀ fault, stop ≠ .pattern fault := by
  rw [step_eq]
  rcases Scan.outcome_matchRemaining scan.between scan.between.toList bare with
    ⟨middle, done, passes⟩ | ⟨stop, after, part, stopped, _, _, _, cause⟩
  · have first : outcome (Scan.matchLiteral scan.between) reader = (.ok (), middle) := done
    rw [Scan.outcome_bind_of_ok first, Scan.execute, Scan.run]
    rcases Scan.outcome_runSegments known passes.bare with
      ⟨texts, outputs, after, came, takes, later⟩ |
      ⟨stop, place, texts, part, after, stopped, ⟨_, _, _, _, _, _, _, stops⟩, _⟩
    · left
      rw [← passes.drop_eq] at takes
      exact ⟨_, _, after, Scan.outcome_bind_of_ok came _, ⟨texts, outputs, takes, rfl⟩,
        passes.trans later⟩
    · right
      exact ⟨stop, after, Scan.outcome_bind_of_error stopped _, stops.ne_pattern⟩
  · right
    have first : outcome (Scan.matchLiteral scan.between) reader = (.error stop, after) := stopped
    refine ⟨stop, after, Scan.outcome_bind_of_error first _, ?_⟩
    intro fault
    rcases cause with rfl | obstacle
    · rintro ⟨⟩
    · exact obstacle.ne_pattern fault

theorem upholds_step (compiled : CompiledPlan) (scan : RepeatedScan) {first reader : Reader}
    (unhindered : Unhindered first [] reader) :
    Upholds (Unhindered first) (fun _ => False) (fun _ after => Unhindered first [] after)
      (scan.step (.ok compiled)) reader := by
  have upheld := upheld_unhindered first
  rw [step_eq]
  apply (upheld.matchRemaining scan.between scan.between.toList unhindered).bind
  intro _ middle still
  exact upheld.execute (.ok compiled) still

end RepeatedScan

/-! ## One request -/

namespace RepeatedIteration

/-- The iteration of a plan over the bytes that a byte reader is to give. -/
def start (compiled : Except PatternFault CompiledPlan) (separator : Option String)
    (base : ByteReader) : RepeatedIteration :=
  { compiled, scan := { separator }, reader := ⟨base, []⟩ }

/-- The iteration is not over, and its reads do not fail. -/
structure Running (compiled : CompiledPlan) (iteration : RepeatedIteration) : Prop where
  compiled_eq : iteration.compiled = .ok compiled
  unfinished : iteration.scan.done = false
  bare : iteration.reader.lines = []
  steady : iteration.reader.base.Steady

/-- A request has brought the values of a run, which has taken the bytes. -/
structure Runs (compiled : CompiledPlan) (taken : List UInt8)
    (iteration next : RepeatedIteration) : Prop where
  takes : iteration.scan.Takes compiled iteration.reader.remaining taken
  consumed_eq : next.reader.consumed = iteration.reader.consumed + taken.length
  rest_eq : iteration.reader.base.rest.length = taken.length + next.reader.base.rest.length
  goesOn : iteration.reader.GoesOn next.reader
  between_eq : next.scan.between = iteration.scan.separator.getD ""
  separator_eq : next.scan.separator = iteration.scan.separator

variable {compiled : CompiledPlan} {iteration : RepeatedIteration}

theorem running_start (compiled : CompiledPlan) (separator : Option String) {base : ByteReader}
    (steady : base.Steady) : Running compiled (start (.ok compiled) separator base) :=
  ⟨rfl, rfl, rfl, steady⟩

/-- A request brings the values of one more run, or the iteration is over. -/
theorem Running.next (known : Known compiled compiled.plan.segments)
    (running : Running compiled iteration) :
    (∃ values taken, iteration.next.1 = .values values ∧
      Runs compiled taken iteration iteration.next.2 ∧ Running compiled iteration.next.2) ∨
    (iteration.next.1 = .finished ∧ iteration.next.2.scan.done = true) := by
  obtain ⟨_, scan, reader⟩ := iteration
  obtain ⟨rfl, unfinished, bare, steady⟩ := running
  simp only at unfinished bare steady
  have upheld := upheld_unhindered reader
  have begins : Unhindered reader [] reader := ⟨bare, steady, List.nil_prefix, .inl rfl, rfl⟩
  simp only [RepeatedIteration.next, RepeatedScan.next, unfinished, Bool.false_eq_true, if_false]
  rcases upheld.peek begins with ⟨shown, middle, looked, _, visible⟩ | ⟨_, _, _, never, _⟩
  swap
  · exact never.elim
  have nothing : Passes [] reader middle := by
    rcases Reader.peek_of_bare bare with ⟨other, otherLooked, passes, _⟩ | ⟨_, other, failed, _⟩
    · rw [looked] at otherLooked
      cases otherLooked
      exact passes
    · rw [looked] at failed
      cases failed
  have here := upheld.nothing visible
  rw [looked]
  cases shown with
  | nil => exact .inr ⟨rfl, rfl⟩
  | cons byte bytes =>
      have stays := scan.upholds_step compiled here
      unfold Upholds at stays
      rcases scan.outcome_step known here.bare with
        ⟨values, taken, after, came, takes, passes⟩ | ⟨stop, after, stopped, notPattern⟩
      · left
        rw [came] at stays
        have both : Passes taken reader after := by simpa using nothing.trans passes
        have same : middle.remaining = reader.remaining := by simpa using nothing.remaining_eq.symm
        have total := stays.total_eq
        rw [same] at takes
        rw [both.consumed_eq] at total
        unfold outcome at came
        simp only [came]
        refine ⟨values, taken, rfl, ⟨takes, both.consumed_eq, ?_, stays.goesOn, ?_, rfl⟩,
          rfl, rfl, stays.bare, stays.steady⟩
        · simp only
          omega
        · exact if_pos (Nat.succ_pos scan.count)
      · right
        rw [stopped] at stays
        unfold outcome at stopped
        simp only [stopped]
        cases stop with
        | pattern fault => exact (notPattern fault rfl).elim
        | reader fault => exact (stays.2 fault rfl).elim
        | fault diagnostic => exact ⟨rfl, rfl⟩

end RepeatedIteration

end Unformat
