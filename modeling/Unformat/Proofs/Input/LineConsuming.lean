import Unformat.Proofs.Input.Doubling
import Unformat.Proofs.Input.Supply

/-!
# What a line reader refuses to consume

A line reader is asked for bytes of its line.  It refuses a negative number of them, and more than
it shows while no line feed is at hand; then it has looked and nothing else has happened.  Behind a
line feed its bounds are those of the bytes at hand: bytes of the next lines are consumed, and where
too many are asked for, the line is done although nothing of it has been consumed.
-/

namespace Unformat

namespace ByteReader

theorem length_pending_le_of_peek {base after : ByteReader} {shown : List UInt8}
    (looked : base.peek = (.ok shown, after)) : after.pending.length ≤ base.pending.length := by
  obtain ⟨pending, buffer, ended, consumed⟩ := base
  cases buffer with
  | cons byte buffer =>
      cases looked
      exact Nat.le_refl _
  | nil =>
      cases ended with
      | true =>
          cases looked
          exact Nat.le_refl _
      | false =>
          match pending with
          | [] | .data [] :: _ | .data (_ :: _) :: _ =>
              cases looked
              simp
          | .failure _ :: _ => cases looked

end ByteReader

namespace Reader

/-! ## Going on to the next line after a look -/

theorem skipLine_succ_of_enough {steps : Nat} {base : ByteReader}
    (enough : base.pending.length + (if base.buffer = [] then 1 else 2) ≤ steps) :
    skipLine (steps + 1) ⟨base, []⟩ = skipLine steps ⟨base, []⟩ := by
  -- A step that finds no line feed drops all bytes at hand, so the next one has to read.
  induction steps generalizing base with
  | zero =>
      split at enough <;> omega
  | succ steps ih =>
      rw [skipLine.eq_2 _ (steps + 1), skipLine.eq_2 _ steps, peek, peekThrough]
      rcases base.peek_waits with ⟨middle, looked, _, _, read⟩ | ⟨failure, after, failed, _⟩
      · rw [looked]
        by_cases none : middle.buffer = []
        · simp only [none, List.isEmpty_nil, if_true]
        by_cases member : lineFeed ∈ middle.buffer
        · obtain ⟨length, after, found, consumed, _⟩ := exists_consume_of_mem member
          simp only [found]
        · obtain ⟨next, consumed, _, buffer, _, pending⟩ := exists_consume_buffer middle
          have fewer : next.pending.length + (if next.buffer = [] then 1 else 2) ≤ steps := by
            rw [if_pos buffer, pending]
            rcases read none with rfl | ⟨empty, less⟩
            · rw [if_neg none] at enough
              omega
            · rw [if_pos empty] at enough
              omega
          simp only [lineLength?_of_not_mem member, consumed, ih fewer]
      · rw [failed]

theorem skipLine_add_of_enough {steps : Nat} {base : ByteReader}
    (enough : base.pending.length + (if base.buffer = [] then 1 else 2) ≤ steps) (more : Nat) :
    skipLine (steps + more) ⟨base, []⟩ = skipLine steps ⟨base, []⟩ := by
  induction more with
  | zero => rfl
  | succ more ih => rw [← Nat.add_assoc, skipLine_succ_of_enough (by omega), ih]

/-- A look takes nothing from what the next line is found by. -/
theorem nextLine_of_peek {base middle : ByteReader} {shown : List UInt8}
    (looked : base.peek = (.ok shown, middle)) :
    Reader.nextLine ⟨middle, [false]⟩ = Reader.nextLine ⟨base, [false]⟩ := by
  have fewer := ByteReader.length_pending_le_of_peek looked
  have enough : middle.pending.length + (if middle.buffer = [] then 1 else 2) ≤
      middle.pending.length + 2 := by
    split <;> omega
  have same : skipLine (base.pending.length + 2) ⟨base, []⟩ =
      skipLine (middle.pending.length + 2) ⟨middle, []⟩ :=
    calc skipLine (base.pending.length + 2) ⟨base, []⟩
      _ = skipLine (base.pending.length + 2) ⟨middle, []⟩ := by
          rw [skipLine.eq_2 ⟨base, []⟩, skipLine.eq_2 ⟨middle, []⟩]
          simp only [peek, peekThrough, looked, ByteReader.peek_of_peek looked]
      _ = skipLine (middle.pending.length + 2 + (base.pending.length - middle.pending.length))
            ⟨middle, []⟩ := by
          congr 1
          omega
      _ = skipLine (middle.pending.length + 2) ⟨middle, []⟩ := skipLine_add_of_enough enough _
  simp only [nextLine, pendingReads, same]

/-! ## What is refused -/

/-- A call that fails although no read does. -/
def Refused (result : Except ReaderFault Unit) : Prop :=
  ∃ fault, result = .error fault ∧ ∀ failure, fault ≠ .read failure

/-- The reader has looked and done nothing else: it shows what it would have shown and goes on to
the next line as it would have done. -/
structure LooksOnly (reader looked : Reader) : Prop where
  lines_eq : looked.lines = reader.lines
  consumed_eq : looked.consumed = reader.consumed
  settled : reader.base.buffer ≠ [] → looked = reader
  peek_eq : looked.peek = reader.peek
  nextLine_eq : looked.nextLine = reader.nextLine

/-- The reader refuses exactly what it does not show, and has then looked and done nothing else. -/
structure KeepsBounds (reader looked : Reader) (shown : List UInt8) (count : Int) : Prop where
  refused_iff : Refused (reader.consume count).1 ↔ count < 0 ∨ (shown.length : Int) < count
  unchanged : Refused (reader.consume count).1 → (reader.consume count).2 = looked

theorem not_refused_ok : ¬ Refused (.ok ()) := by
  rintro ⟨fault, came, _⟩
  cases came

theorem refused_overrun (count : Int) (buffered : Nat) :
    Refused (.error (.overrun count buffered)) := ⟨_, rfl, by simp⟩

theorem LooksOnly.refl (reader : Reader) : LooksOnly reader reader :=
  ⟨rfl, rfl, fun _ => rfl, rfl, rfl⟩

theorem looksOnly_of_peek {base middle : ByteReader}
    (looked : base.peek = (.ok middle.buffer, middle)) (waits : base.Waits middle) :
    LooksOnly ⟨base, [false]⟩ ⟨middle, [false]⟩ where
  lines_eq := rfl
  consumed_eq := waits.consumed_eq
  settled := by
    intro solid
    simp only [ByteReader.peek, Prod.mk.injEq] at looked
    rw [looked.2]
  peek_eq := by
    simp only [peek, peekThrough, looked, ByteReader.peek_of_peek looked]
  nextLine_eq := nextLine_of_peek looked

/-- A line reader that is done refuses everything but no bytes. -/
theorem keepsBounds_of_done (base : ByteReader) (count : Int) :
    KeepsBounds ⟨base, [true]⟩ ⟨base, [true]⟩ [] count := by
  have came : Reader.consume ⟨base, [true]⟩ count =
      (if count = 0 then .ok () else .error .pastLine, ⟨base, [true]⟩) := rfl
  by_cases none : count = 0
  · rw [if_pos none] at came
    refine ⟨?_, fun _ => by rw [came]⟩
    rw [came]
    constructor
    · intro refused
      exact (not_refused_ok refused).elim
    · intro outside
      simp only [List.length_nil] at outside
      omega
  · rw [if_neg none] at came
    refine ⟨?_, fun _ => by rw [came]⟩
    rw [came]
    constructor
    · intro _
      simp only [List.length_nil]
      omega
    · intro _
      exact ⟨_, rfl, by simp⟩

section OnLine

variable {base middle : ByteReader} {count : Int}

theorem consume_of_outside (looked : base.peek = (.ok middle.buffer, middle))
    (outside : count < 0 ∨ ((firstLine middle.buffer).length : Int) < count) :
    Reader.consume ⟨base, [false]⟩ count =
      ((middle.consume count).1,
        ⟨(middle.consume count).2, [decide (lineFeed ∈ middle.buffer ∧ 0 ≤ count)]⟩) := by
  simp only [Reader.consume, consumeThrough, peekThrough, looked]
  by_cases member : lineFeed ∈ middle.buffer
  · obtain ⟨front, rest, absent, standing⟩ := exists_front_of_mem member
    rw [standing, firstLine_append absent, List.length_append, List.length_singleton] at outside
    have same : withLineEnd middle.buffer front.length count = count :=
      withLineEnd_of_outside _ (by omega)
    have past : (front.length : Int) < count ↔ 0 ≤ count := by omega
    rw [standing, lineLength?_append absent, ← standing]
    simp only [same, around, past, member, true_and]
  · simp only [lineLength?_of_not_mem member, around, member, false_and, decide_false]

theorem keepsBounds_of_inside (looked : base.peek = (.ok middle.buffer, middle))
    (least : 0 ≤ count) (most : count ≤ (firstLine middle.buffer).length) :
    KeepsBounds ⟨base, [false]⟩ ⟨middle, [false]⟩ (firstLine middle.buffer) count := by
  obtain ⟨took, after, came, _⟩ :=
    consume_of_peek looked (show count.toNat ≤ (firstLine middle.buffer).length by omega)
  rw [Int.toNat_of_nonneg least] at came
  have accepted : ¬ Refused (Reader.consume ⟨base, [false]⟩ count).1 := by
    rw [came]
    exact not_refused_ok
  refine ⟨⟨fun refused => (accepted refused).elim, ?_⟩, fun refused => (accepted refused).elim⟩
  intro outside
  omega

/-- While no line feed is at hand, the bounds of a line reader are those of the bytes at hand. -/
theorem keepsBounds_of_overrun (looked : base.peek = (.ok middle.buffer, middle))
    (outside : count < 0 ∨ ((firstLine middle.buffer).length : Int) < count)
    (inLine : ¬ (lineFeed ∈ middle.buffer ∧ 0 ≤ count)) :
    KeepsBounds ⟨base, [false]⟩ ⟨middle, [false]⟩ (firstLine middle.buffer) count := by
  have overrun : count < 0 ∨ (middle.buffer.length : Int) < count := by
    by_cases member : lineFeed ∈ middle.buffer
    · exact .inl (Int.not_le.mp fun least => inLine ⟨member, least⟩)
    · rwa [firstLine_of_not_mem member] at outside
  have came := consume_of_outside looked outside
  rw [ByteReader.consume, if_pos overrun, decide_eq_false inLine] at came
  constructor
  · rw [came]
    exact ⟨fun _ => outside, fun _ => refused_overrun _ _⟩
  · intro _
    rw [came]

/-- Past a line feed at hand the line is done, whether the bytes at hand are enough or not. -/
theorem not_keepsBounds_of_past (looked : base.peek = (.ok middle.buffer, middle))
    (member : lineFeed ∈ middle.buffer)
    (past : ((firstLine middle.buffer).length : Int) < count) :
    ¬ KeepsBounds ⟨base, [false]⟩ ⟨middle, [false]⟩ (firstLine middle.buffer) count := by
  intro keeps
  have same := keeps.unchanged (keeps.refused_iff.mpr (.inr past))
  rw [consume_of_outside looked (.inr past)] at same
  have marked : [decide (lineFeed ∈ middle.buffer ∧ 0 ≤ count)] = [false] :=
    congrArg Reader.lines same
  simp only [member, true_and, List.cons.injEq, decide_eq_false_iff_not, and_true] at marked
  omega

theorem keepsBounds_iff (looked : base.peek = (.ok middle.buffer, middle)) :
    KeepsBounds ⟨base, [false]⟩ ⟨middle, [false]⟩ (firstLine middle.buffer) count ↔
      ¬ (lineFeed ∈ firstLine middle.buffer ∧
        ((firstLine middle.buffer).length : Int) < count) := by
  rw [mem_firstLine_iff]
  constructor
  · rintro keeps ⟨member, past⟩
    exact not_keepsBounds_of_past looked member past keeps
  · intro within
    by_cases outside : count < 0 ∨ ((firstLine middle.buffer).length : Int) < count
    · apply keepsBounds_of_overrun looked outside
      rintro ⟨member, least⟩
      exact within ⟨member, outside.resolve_left (Int.not_lt.mpr least)⟩
    · rw [not_or, Int.not_lt, Int.not_lt] at outside
      exact keepsBounds_of_inside looked outside.1 outside.2

end OnLine

/-- What a line reader around a byte reader does when it is asked for `count` bytes.  When it cannot
be looked at, it fails as looking does.  Otherwise it refuses exactly what it does not show, and has
then only looked, unless a line feed is shown and more is asked for than what is shown.  In that
case the line is done in any event: bytes behind it are consumed if there are enough at hand, and
if not, the call fails. -/
theorem consume_keeps_bounds_iff (base : ByteReader) (done : Bool) (count : Int) :
    let reader : Reader := ⟨base, [done]⟩
    match reader.peek with
    | (.error fault, looked) => reader.consume count = (.error fault, looked)
    | (.ok shown, looked) =>
        LooksOnly reader looked ∧
          (KeepsBounds reader looked shown count ↔
            ¬ (lineFeed ∈ shown ∧ (shown.length : Int) < count)) ∧
          (lineFeed ∈ shown → (shown.length : Int) < count →
            reader.consume count =
              if count ≤ looked.base.buffer.length then
                (.ok (), ⟨{ looked.base with
                  buffer := looked.base.buffer.drop count.toNat
                  consumed := looked.base.consumed + count.toNat }, [true]⟩)
              else (.error (.overrun count looked.base.buffer.length), ⟨looked.base, [true]⟩)) := by
  intro reader
  cases done with
  | true =>
      have looks : reader.peek = (.ok [], reader) := rfl
      rw [looks]
      refine ⟨.refl reader, ?_, by simp⟩
      simpa using keepsBounds_of_done base count
  | false =>
      rcases base.peek_waits with ⟨middle, looked, waits, _⟩ | ⟨failure, after, failed, _⟩
      · have looks : reader.peek = (.ok (firstLine middle.buffer), ⟨middle, [false]⟩) := by
          simp only [reader, peek, peekThrough, looked]
          rfl
        rw [looks]
        refine ⟨looksOnly_of_peek looked waits, keepsBounds_iff looked, ?_⟩
        intro member past
        rw [mem_firstLine_iff] at member
        have least : 0 ≤ count := by omega
        rw [consume_of_outside looked (.inr past), decide_eq_true ⟨member, least⟩,
          ByteReader.consume]
        by_cases enough : count ≤ middle.buffer.length
        · rw [if_pos enough, if_neg (by omega)]
        · rw [if_neg enough, if_pos (by omega)]
      · have looks : reader.peek = (.error (.read failure), ⟨after, [false]⟩) := by
          simp only [reader, peek, peekThrough, failed]
          rfl
        rw [looks]
        simp only [reader, consume, consumeThrough, peekThrough, failed]

/-- More bytes are asked for than a line of two letters has: nothing is consumed, and the line is
gone.  Where another line is at hand, a byte of it is consumed. -/
theorem line_done_by_refused_call :
    let reader : Reader := (Reader.ofDeliveries [.data [0x61, 0x62, 0x0A]]).byLine
    let after := (reader.consume 4).2
    let longer : Reader :=
      (Reader.ofDeliveries [.data [0x61, 0x62, 0x0A, 0x63, 0x64, 0x0A]]).byLine
    reader.peek.1 = .ok [0x61, 0x62, 0x0A] ∧ (reader.consume 4).1 = .error (.overrun 4 3) ∧
      after.consumed = 0 ∧ after.peek.1 = .ok [] ∧
        longer.peek.1 = .ok [0x61, 0x62, 0x0A] ∧ (longer.consume 4).1 = .ok () ∧
          (longer.consume 4).2.consumed = 4 := by
  decide

end Reader

end Unformat
