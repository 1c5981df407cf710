import Unformat.Plan.Build
import Unformat.Proofs.Input.Supply
import Unformat.Proofs.Scan.LineAttempts
import Unformat.Proofs.Scan.Upholding
import Unformat.Proofs.ScanType.Equality

/-!
# Where attempts at lines begin when reads fail

Reads may fail at any time.  An attempt takes bytes of one line whether its own reads fail or not,
and so does looking for the end.  Only a read that fails while the rest of a line is skipped leaves
the reader in the middle of that line, and the next attempt begins there.
-/

namespace Unformat

open Scan (Stop Upheld Upholds)

/-! ## One attempt -/

/-- A line reader is along the first line of the bytes, and shows these of it. -/
def Shows (offset : Nat) (bytes shown : List UInt8) (reader : Reader) : Prop :=
  ∃ taken, Along offset bytes taken reader ∧
    shown <+: if lineFeed ∈ taken then [] else firstLine reader.base.buffer

section Shows

variable {offset : Nat} {bytes shown : List UInt8} {base after : ByteReader}

theorem Shows.nothing {reader : Reader} (shows : Shows offset bytes shown reader) :
    Shows offset bytes [] reader := by
  obtain ⟨taken, along, _⟩ := shows
  exact ⟨taken, along, List.nil_prefix⟩

/-- A line reader that is not done shows bytes at hand. -/
theorem Shows.atHand (shows : Shows offset bytes shown ⟨base, [false]⟩) :
    ∃ taken, Along offset bytes taken ⟨base, [false]⟩ ∧ lineFeed ∉ taken ∧
      shown <+: firstLine base.buffer := by
  obtain ⟨taken, along, opens⟩ := shows
  have unfed : lineFeed ∉ taken := by simpa using along.lines_eq
  rw [if_neg unfed] at opens
  exact ⟨taken, along, unfed, opens⟩

theorem Shows.waits (shows : Shows offset bytes shown ⟨base, [false]⟩)
    (waits : base.Waits after) : Shows offset bytes shown ⟨after, [false]⟩ := by
  obtain ⟨taken, along, unfed, opens⟩ := shows.atHand
  refine ⟨taken, along.waits waits, ?_⟩
  rw [if_neg unfed]
  exact opens.trans (firstLine_opens_of_opens waits.longer)

/-- A line reader that is done has nothing to show. -/
theorem Shows.cases {reader : Reader} (shows : Shows offset bytes shown reader) :
    ∃ base, (reader = ⟨base, [true]⟩ ∧ shown = []) ∨ reader = ⟨base, [false]⟩ := by
  obtain ⟨taken, along, opens⟩ := shows
  obtain ⟨base, ⟨fed, rfl⟩ | ⟨_, rfl⟩⟩ := along.cases
  · rw [if_pos fed] at opens
    exact ⟨base, .inl ⟨rfl, List.prefix_nil.mp opens⟩⟩
  · exact ⟨base, .inr rfl⟩

end Shows

/-- A run keeps to the line, also when a read fails. -/
theorem upheld_shows (offset : Nat) (bytes : List UInt8) :
    Upheld (Shows offset bytes) fun fault => ∃ failure, fault = .read failure where
  part := by
    rintro part shown reader opens ⟨taken, along, shows⟩
    exact ⟨taken, along, opens.trans shows⟩
  peek := by
    intro shown reader shows
    obtain ⟨base, ⟨rfl, rfl⟩ | rfl⟩ := shows.cases
    · exact .inl ⟨[], _, rfl, List.nil_prefix, shows⟩
    · rcases base.peek_waits with ⟨middle, looked, waits, _⟩ | ⟨failure, after, failed, waits, _⟩
      · obtain ⟨taken, along, unfed, opens⟩ := (shows.waits waits).atHand
        refine .inl ⟨firstLine middle.buffer, ⟨middle, [false]⟩, ?_, opens, taken, along, ?_⟩
        · simp only [Reader.peek, Reader.peekThrough, looked]
          rfl
        · exact ⟨[], by rw [List.append_nil, if_neg unfed]⟩
      · refine .inr ⟨.read failure, ⟨after, [false]⟩, ?_, ⟨failure, rfl⟩,
          (shows.waits waits).nothing⟩
        simp only [Reader.peek, Reader.peekThrough, failed]
        rfl
  fill := by
    intro shown reader shows
    obtain ⟨base, ⟨rfl, rfl⟩ | rfl⟩ := shows.cases
    · exact .inl ⟨false, _, rfl, shows⟩
    · simp only [Reader.fill, Reader.fillThrough, Reader.peekThrough]
      rcases base.peek_waits with ⟨middle, looked, waits, _⟩ | ⟨failure, after, failed, waits, _⟩
      · rw [looked]
        by_cases whole : middle.buffer.contains lineFeed = true
        · simp only [whole, if_true]
          exact .inl ⟨false, _, rfl, shows.waits waits⟩
        · simp only [whole]
          rcases middle.fill_waits with ⟨added, after, filled, later⟩ |
            ⟨failure, after, failed, later⟩
          · rw [filled]
            exact .inl ⟨added, _, rfl, shows.waits (waits.trans later)⟩
          · rw [failed]
            exact .inr ⟨.read failure, _, rfl, ⟨failure, rfl⟩,
              (shows.waits (waits.trans later)).nothing⟩
      · rw [failed]
        exact .inr ⟨.read failure, _, rfl, ⟨failure, rfl⟩, (shows.waits waits).nothing⟩
  consume := by
    intro shown reader shows
    obtain ⟨base, ⟨rfl, rfl⟩ | rfl⟩ := shows.cases
    · exact .inl ⟨_, rfl, shows⟩
    · rcases base.peek_waits with ⟨middle, looked, waits, _⟩ | ⟨failure, after, failed, waits, _⟩
      · obtain ⟨taken, along, unfed, visible⟩ := (shows.waits waits).atHand
        obtain ⟨took, after, consumed, opens, split, place, same⟩ :=
          Reader.consume_of_peek looked visible.length_le
        exact .inl ⟨_, consumed, taken ++ took, along.take unfed opens split place same,
          List.nil_prefix⟩
      · refine .inr ⟨.read failure, ⟨after, [false]⟩, ?_, ⟨failure, rfl⟩,
          (shows.waits waits).nothing⟩
        simp only [Reader.consume, Reader.consumeThrough, Reader.peekThrough, failed]

/-- An attempt takes the present line, unless a read fails while the rest of the line is skipped:
then it has taken some of the line, and not the line feed. -/
theorem LineAttempt.make_of_along (compiled : Except PatternFault CompiledPlan) (line : Nat)
    {offset : Nat} {bytes : List UInt8} {reader : Reader} (along : Along offset bytes [] reader) :
    ∃ outcome skipped took base, LineAttempt.make compiled line reader =
        (⟨line, outcome, skipped⟩, ⟨base, [false]⟩) ∧
      bytes = took ++ base.supply ∧ base.consumed = offset + took.length ∧
        ((skipped = .ok () ∧ took = firstLine bytes) ∨
          ∃ failure, skipped = .error (.read failure) ∧ lineFeed ∉ took ∧ took ≠ []) := by
  have ran := (upheld_shows offset bytes).execute compiled ⟨[], along, List.nil_prefix⟩
  obtain ⟨result, after, came, taken, still, _⟩ : ∃ result after,
      Scan.outcome (Scan.execute compiled) reader = (result, after) ∧
        Shows offset bytes [] after := by
    unfold Upholds at ran
    split at ran
    · next values after came => exact ⟨_, after, came, ran⟩
    · next stop after came => exact ⟨_, after, came, ran.1⟩
  unfold Scan.outcome at came
  obtain ⟨took, base, split, place, ⟨went, whole⟩ | ⟨failure, failed, rest⟩⟩ := still.nextLine
  · refine ⟨result.mapError (noted line), .ok (), took, base, ?_, split, place, .inl ⟨rfl, whole⟩⟩
    rw [LineAttempt.make, came]
    simp only [went]
  · refine ⟨result.mapError (noted line), .error (.read failure), took, base, ?_, split, place,
      .inr ⟨failure, rfl, rest⟩⟩
    rw [LineAttempt.make, came]
    simp only [failed]

/-! ## One attempt after the other -/

/-- The bytes before the place are none, or the last of them is a line feed. -/
def BeginsLine (stream : List UInt8) (place : Nat) : Prop :=
  ∀ byte, (stream.take place).getLast? = some byte → byte = lineFeed

theorem beginsLine_append {front rest : List UInt8} :
    BeginsLine (front ++ rest) front.length ↔
      ∀ byte, front.getLast? = some byte → byte = lineFeed := by
  rw [BeginsLine, List.take_left]

/-- Behind the first line another one begins, or nothing is left. -/
theorem beginsLine_behind_firstLine {front bytes : List UInt8} (solid : behindLine bytes ≠ []) :
    BeginsLine (front ++ bytes) (front ++ firstLine bytes).length := by
  have member : lineFeed ∈ bytes := by
    by_contra absent
    exact solid (behindLine_of_not_mem absent)
  obtain ⟨line, rest, absent, rfl⟩ := exists_front_of_mem member
  have split : front ++ (line ++ lineFeed :: rest) =
      front ++ firstLine (line ++ lineFeed :: rest) ++ rest := by
    rw [firstLine_append absent]
    simp
  rw [split, beginsLine_append, firstLine_append absent]
  intro byte last
  simpa [eq_comm] using last

theorem not_beginsLine_of_not_mem {front took rest : List UInt8} (unfed : lineFeed ∉ took)
    (solid : took ≠ []) : ¬ BeginsLine (front ++ took ++ rest) (front ++ took).length := by
  rw [beginsLine_append]
  intro begins
  have last : (front ++ took).getLast? = some (took.getLast solid) := by
    rw [List.getLast?_append, List.getLast?_eq_some_getLast solid]
    rfl
  exact unfed (begins _ last ▸ List.getLast_mem solid)

namespace LineIteration

/-- What came of skipping the rest of the line in the last attempt, if there was one. -/
def lastSkip : Nat → LineIteration → Except ReaderFault Unit
  | 0, _ => .ok ()
  | count + 1, iteration =>
      match (iteration.afterAttempts count).attempt.1 with
      | .ok (some attempt) => attempt.skipped
      | _ => iteration.lastSkip count

/-- The iteration is between two attempts at a stream.  It is before the first byte of a line, or
before nothing, exactly when the rest of the last line could be skipped. -/
structure Between (stream : List UInt8) (offset : Nat) (skipped : Except ReaderFault Unit)
    (iteration : LineIteration) : Prop where
  lines_eq : iteration.reader.lines = [false]
  exists_front : ∃ front, stream = front ++ iteration.reader.base.supply ∧
    iteration.reader.consumed = offset + front.length ∧
      ((skipped = .ok () ∧ (iteration.reader.base.supply ≠ [] → BeginsLine stream front.length)) ∨
        ∃ failure, skipped = .error (.read failure) ∧ ¬ BeginsLine stream front.length)

variable {stream : List UInt8} {offset : Nat} {skipped : Except ReaderFault Unit}
  {iteration : LineIteration}

theorem between_start (compiled : Except PatternFault CompiledPlan) (scan : LineScan)
    (base : ByteReader) :
    Between base.supply base.consumed (.ok ()) ⟨compiled, scan, ⟨base, [false]⟩⟩ where
  lines_eq := rfl
  exists_front := ⟨[], rfl, rfl, .inl ⟨rfl, fun _ _ last => by cases last⟩⟩

/-- An attempt, if there is something left to try, leads to where the next one begins. -/
theorem Between.attempt (between : Between stream offset skipped iteration) :
    Between stream offset
        (match iteration.attempt.1 with
          | .ok (some attempt) => attempt.skipped
          | _ => skipped) iteration.attempt.2 ∧
      ∀ attempt, iteration.attempt.1 = .ok (some attempt) →
        iteration.attempt.2.reader.base.supply.length < iteration.reader.base.supply.length := by
  obtain ⟨compiled, scan, ⟨base, lines⟩⟩ := iteration
  obtain ⟨rfl, front, split, place, skips⟩ := between
  simp only at split place skips
  obtain ⟨middle, waits, ⟨failure, failed⟩ | ⟨ended, _⟩ | ⟨goes, along⟩⟩ := Reader.atEnd_waits base
  · simp only [LineIteration.attempt, LineScan.attempt, failed]
    refine ⟨⟨rfl, front, ?_, waits.consumed_eq.trans place, ?_⟩, by simp⟩
    · rw [waits.supply_eq, split]
    · rw [waits.supply_eq]
      exact skips
  · simp only [LineIteration.attempt, LineScan.attempt, ended]
    refine ⟨⟨rfl, front, ?_, waits.consumed_eq.trans place, ?_⟩, by simp⟩
    · rw [waits.supply_eq, split]
    · rw [waits.supply_eq]
      exact skips
  · obtain ⟨came, rest, took, after, made, left, there, skip⟩ :=
      LineAttempt.make_of_along compiled (scan.lineNumber + 1) along
    have solid : base.supply ≠ [] := by
      rw [← waits.supply_eq]
      exact fun none => along.solid rfl (List.append_eq_nil_iff.mp none).1
    simp only [LineIteration.attempt, LineScan.attempt, goes, made]
    have taken : took ≠ [] := by
      rcases skip with ⟨_, rfl⟩ | ⟨_, _, _, some⟩
      · exact mt firstLine_eq_nil_iff.mp solid
      · exact some
    have fewer : after.supply.length < base.supply.length := by
      rw [left, List.length_append]
      exact Nat.lt_add_of_pos_left (List.length_pos_of_ne_nil taken)
    refine ⟨⟨rfl, front ++ took, ?_, ?_, ?_⟩, fun _ _ => fewer⟩
    · rw [split, left, List.append_assoc]
    · rw [List.length_append, ← Nat.add_assoc]
      exact there.trans (congrArg (· + took.length) place)
    · rcases skip with ⟨rfl, rfl⟩ | ⟨failure, rfl, unfed, _⟩
      · have behind : behindLine base.supply = after.supply :=
          List.append_cancel_left ((firstLine_append_behindLine base.supply).trans left)
        refine .inl ⟨rfl, fun more => ?_⟩
        rw [split]
        apply beginsLine_behind_firstLine
        rw [behind]
        exact more
      · refine .inr ⟨failure, rfl, ?_⟩
        rw [split, left, ← List.append_assoc]
        exact not_beginsLine_of_not_mem unfed taken

theorem Between.afterAttempts (between : Between stream offset (.ok ()) iteration) (count : Nat) :
    Between stream offset (iteration.lastSkip count) (iteration.afterAttempts count) := by
  induction count with
  | zero => exact between
  | succ count ih => exact ih.attempt.1

/-- What the next attempt comes to is given back. -/
def Brings (step : ScanStep) (iteration : LineIteration) : Prop :=
  match iteration.attempt.1 with
  | .error fault => step = .stopped (.reader fault)
  | .ok none => step = .finished
  | .ok (some attempt) => (iteration.scan.settle attempt).1 = some step

/-- A request makes attempts one after the other, and gives back what the last one comes to. -/
theorem Between.nextWithin (between : Between stream offset skipped iteration) {steps : Nat}
    (enough : iteration.reader.base.supply.length < steps) :
    ∃ tried, (iteration.nextWithin steps).2 = iteration.afterAttempts (tried + 1) ∧
      Brings (iteration.nextWithin steps).1 (iteration.afterAttempts tried) := by
  -- An attempt that is put aside takes some of what is left, so the steps outlast the attempts.
  induction steps generalizing iteration skipped with
  | zero => omega
  | succ steps ih =>
      obtain ⟨after, fewer⟩ := between.attempt
      have first (step : ScanStep) (brings : Brings step iteration)
          (came : iteration.nextWithin (steps + 1) = (step, iteration.attempt.2)) :
          ∃ tried, (iteration.nextWithin (steps + 1)).2 = iteration.afterAttempts (tried + 1) ∧
            Brings (iteration.nextWithin (steps + 1)).1 (iteration.afterAttempts tried) := by
        rw [came]
        exact ⟨0, rfl, brings⟩
      rcases tried : iteration.attempt.1 with fault | _ | attempt
      · apply first (.stopped (.reader fault))
        · rw [Brings, tried]
        · rw [nextWithin_succ, tried]
      · apply first .finished
        · rw [Brings, tried]
        · rw [nextWithin_succ, tried]
      · rcases settled : (iteration.scan.settle attempt).1 with _ | step
        · have less := fewer attempt tried
          obtain ⟨more, came, brings⟩ := ih after (by omega)
          have goesOn : iteration.nextWithin (steps + 1) =
              iteration.attempt.2.nextWithin steps := by
            rw [nextWithin_succ, tried]
            simp only [settled]
          rw [← afterAttempts_succ] at came brings
          rw [goesOn]
          exact ⟨more + 1, came, brings⟩
        · apply first step
          · rw [Brings, tried]
            exact settled
          · rw [nextWithin_succ, tried]
            simp only [settled]

theorem Between.next (between : Between stream offset skipped iteration) :
    ∃ tried, iteration.next.2 = iteration.afterAttempts (tried + 1) ∧
      Brings iteration.next.1 (iteration.afterAttempts tried) := by
  have few := ByteReader.length_supply_le iteration.reader
  rw [next_eq]
  exact between.nextWithin (by omega)

theorem Between.exists_after_eq (between : Between stream offset (.ok ()) iteration)
    (asked : Nat) : ∃ tried, iteration.after asked = iteration.afterAttempts tried := by
  induction asked with
  | zero => exact ⟨0, rfl⟩
  | succ asked ih =>
      obtain ⟨before, same⟩ := ih
      obtain ⟨more, came, _⟩ := (between.afterAttempts before).next
      refine ⟨before + (more + 1), ?_⟩
      rw [LineIteration.after, same, came, afterAttempts_add]

/-- Each request gives back what some attempt comes to, the last that it makes. -/
theorem Between.next_after (between : Between stream offset (.ok ()) iteration) (asked : Nat) :
    ∃ tried, iteration.after (asked + 1) = iteration.afterAttempts (tried + 1) ∧
      Brings (iteration.after asked).next.1 (iteration.afterAttempts tried) := by
  obtain ⟨before, same⟩ := between.exists_after_eq asked
  obtain ⟨more, came, brings⟩ := (between.afterAttempts before).next
  rw [afterAttempts_add] at came brings
  refine ⟨before + more, ?_, ?_⟩
  · rw [LineIteration.after, same, came, Nat.add_assoc]
  · rw [same]
    exact brings

/-- The lines of a byte reader, whose reads may fail at any time, are scanned by attempts one after
the other, and each request gives back what one of them comes to.  An attempt begins at the first
byte of a line of the bytes delivered exactly when the rest of the line before could be skipped.
That fails only with a read; reads that fail at any other time, while the end is looked for or
while a line is tried, never take an attempt into the middle of a line. -/
theorem attempt_begins_line_iff (compiled : Except PatternFault CompiledPlan) (errors : LineErrors)
    (base : ByteReader) :
    let iteration : LineIteration := ⟨compiled, { errors }, ⟨base, [false]⟩⟩
    (∀ asked, ∃ tried, iteration.after (asked + 1) = iteration.afterAttempts (tried + 1) ∧
      Brings (iteration.after asked).next.1 (iteration.afterAttempts tried)) ∧
    ∀ tried,
      (∀ attempt, (iteration.afterAttempts tried).attempt.1 = .ok (some attempt) →
        (BeginsLine base.supply ((iteration.afterAttempts tried).reader.consumed - base.consumed) ↔
          iteration.lastSkip tried = .ok ())) ∧
      ∀ fault, iteration.lastSkip tried = .error fault → ∃ failure, fault = .read failure := by
  intro iteration
  have between := between_start compiled { errors } base
  refine ⟨between.next_after, fun tried => ?_⟩
  have here := between.afterAttempts tried
  obtain ⟨front, split, place, skips⟩ := here.exists_front
  constructor
  · intro attempt made
    have fewer := here.attempt.2 attempt made
    have left : (iteration.afterAttempts tried).reader.base.supply ≠ [] := by
      intro none
      rw [none] at fewer
      exact Nat.not_lt_zero _ fewer
    have length : (iteration.afterAttempts tried).reader.consumed - base.consumed =
        front.length := by
      rw [place, Nat.add_sub_cancel_left]
    rw [length]
    rcases skips with ⟨skipped, begins⟩ | ⟨failure, failed, middle⟩
    · exact ⟨fun _ => skipped, fun _ => begins left⟩
    · rw [failed]
      exact ⟨fun begins => (middle begins).elim, fun never => nomatch never⟩
  · intro fault failed
    rcases skips with ⟨skipped, _⟩ | ⟨failure, other, _⟩
    · rw [skipped] at failed
      cases failed
    · rw [other] at failed
      cases failed
      exact ⟨failure, rfl⟩

/-- A read fails while the rest of the first line is skipped.  The request brings the failure, and
the next one brings a character from the tail of that line, behind two bytes that are consumed. -/
theorem tail_scanned_behind_failed_skip :
    let plan : Plan := ⟨[.capture (some 0) 0], [.default .character], 1, "\x7b\x7d"⟩
    let base : ByteReader :=
      { pending := [.data [0x61, 0x62], .failure (.failed "gone"), .data [0x63, 0x64, 0x0A]] }
    let iteration : LineIteration := ⟨plan.compile, { errors := .raise }, ⟨base, [false]⟩⟩
    Plan.build "\x7b\x7d" { positional := [.default .character] } = .ok plan ∧
      base.supply = [0x61, 0x62, 0x63, 0x64, 0x0A] ∧
      iteration.next.1 = .stopped (.reader (.read (.failed "gone"))) ∧
      (iteration.after 1).reader.consumed = 2 ∧
      ¬ BeginsLine base.supply 2 ∧
      (iteration.after 1).next.1 = .values [.text "c"] := by
  refine ⟨by decide +kernel, by decide, by decide +kernel, by decide +kernel, ?_, by decide +kernel⟩
  intro begins
  have wrong : (0x62 : UInt8) = lineFeed := begins 0x62 (by decide)
  exact absurd wrong (by decide)

end LineIteration

end Unformat
