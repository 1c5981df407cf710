import Unformat.Proofs.Input.LineChunks

/-!
# Line readers whose reads may fail

A read that fails brings nothing, and the reads behind it go on with the bytes that follow.  What a
byte reader is still to give does not change when it looks or reads on, whether the read fails or
not; and a line reader around it still takes bytes of one line only.  Going on to the next line is
different: when a read fails while a line is skipped, the reader stays in the middle of that line.
-/

namespace Unformat

/-- What reads bring before the end, failing reads passed over. -/
def delivered : List Delivery → List UInt8
  | [] => []
  | .data [] :: _ => []
  | .data (byte :: bytes) :: pending => byte :: bytes ++ delivered pending
  | .failure _ :: pending => delivered pending

namespace ByteReader

/-- The bytes that are still to be given, failing reads passed over. -/
def supply (reader : ByteReader) : List UInt8 :=
  reader.buffer ++ if reader.ended then [] else delivered reader.pending

theorem length_delivered_le (pending : List Delivery) :
    (delivered pending).length ≤ (pending.flatMap Delivery.content).length := by
  induction pending with
  | nil => exact Nat.le_refl 0
  | cons delivery pending ih =>
      rw [List.flatMap_cons, List.length_append]
      match delivery with
      | .data [] => exact Nat.zero_le _
      | .failure _ => exact Nat.le_trans ih (Nat.le_add_left _ _)
      | .data (byte :: bytes) =>
          rw [delivered, List.length_append]
          exact Nat.add_le_add_left ih _

theorem length_supply_le (reader : Reader) : reader.base.supply.length ≤ reader.bytesLeft := by
  have coming := length_delivered_le reader.base.pending
  rw [← Reader.length_remaining_eq, Reader.remaining, supply, List.length_append,
    List.length_append]
  split
  · exact Nat.add_le_add_left (Nat.zero_le _) _
  · exact Nat.add_le_add_left coming _

/-- The reader has not consumed anything, and nothing is lost. -/
structure Waits (reader after : ByteReader) : Prop where
  supply_eq : after.supply = reader.supply
  consumed_eq : after.consumed = reader.consumed
  longer : reader.buffer <+: after.buffer

variable {reader middle after : ByteReader}

theorem Waits.refl (reader : ByteReader) : Waits reader reader := ⟨rfl, rfl, List.prefix_rfl⟩

theorem Waits.trans (first : Waits reader middle) (second : Waits middle after) :
    Waits reader after where
  supply_eq := second.supply_eq.trans first.supply_eq
  consumed_eq := second.consumed_eq.trans first.consumed_eq
  longer := first.longer.trans second.longer

theorem fill_waits (reader : ByteReader) :
    (∃ added after, reader.fill = (.ok added, after) ∧ Waits reader after) ∨
    ∃ failure after, reader.fill = (.error (.read failure), after) ∧ Waits reader after := by
  obtain ⟨pending, buffer, ended, consumed⟩ := reader
  cases ended with
  | true => exact .inl ⟨false, _, rfl, .refl _⟩
  | false =>
      match pending with
      | [] | .data [] :: _ =>
          exact .inl ⟨false, _, rfl, by simp [supply, delivered], rfl, List.prefix_rfl⟩
      | .failure reason :: _ => exact .inr ⟨reason, _, rfl, rfl, rfl, List.prefix_rfl⟩
      | .data (byte :: bytes) :: _ =>
          exact .inl ⟨true, _, rfl, by simp [supply, delivered], rfl, List.prefix_append _ _⟩

/-- Looking shows the bytes at hand, of which there are none only at the end. -/
theorem peek_waits (reader : ByteReader) :
    (∃ after, reader.peek = (.ok after.buffer, after) ∧ Waits reader after ∧
      (after.buffer = [] → after.supply = []) ∧
        (after.buffer ≠ [] → after = reader ∨
          reader.buffer = [] ∧ after.pending.length < reader.pending.length)) ∨
    ∃ failure after, reader.peek = (.error (.read failure), after) ∧ Waits reader after ∧
      reader.buffer = [] := by
  obtain ⟨pending, buffer, ended, consumed⟩ := reader
  cases buffer with
  | cons byte buffer => exact .inl ⟨_, rfl, .refl _, by simp, fun _ => .inl rfl⟩
  | nil =>
      cases ended with
      | true => exact .inl ⟨_, rfl, .refl _, by simp [supply], fun _ => .inl rfl⟩
      | false =>
          match pending with
          | [] | .data [] :: _ =>
              refine .inl ⟨_, rfl, ⟨by simp [supply, delivered], rfl, List.prefix_rfl⟩, ?_, ?_⟩
              · simp [supply]
              · simp
          | .failure reason :: _ =>
              exact .inr ⟨reason, _, rfl, ⟨rfl, rfl, List.prefix_rfl⟩, rfl⟩
          | .data (byte :: bytes) :: _ =>
              refine .inl ⟨_, rfl, ⟨by simp [supply, delivered], rfl, List.nil_prefix⟩, ?_, ?_⟩
              · simp
              · simp

/-- Bytes at hand are consumed. -/
theorem consume_of_le (reader : ByteReader) {count : Nat} (within : count ≤ reader.buffer.length) :
    ∃ after, reader.consume count = (.ok (), after) ∧
      reader.supply = reader.buffer.take count ++ after.supply ∧
        after.buffer = reader.buffer.drop count ∧ after.consumed = reader.consumed + count ∧
          after.pending = reader.pending := by
  have inside : ¬ ((count : Int) < 0 ∨ (reader.buffer.length : Int) < count) := by omega
  refine ⟨{ reader with buffer := reader.buffer.drop count, consumed := reader.consumed + count },
    by rw [consume, if_neg inside]; rfl, ?_, rfl, rfl, rfl⟩
  simp only [supply]
  rw [← List.append_assoc, List.take_append_drop]

end ByteReader

/-! ## Within a line -/

/-- A line reader, `offset` bytes into a stream, had `bytes` before it when bytes of them were at
hand.  Since then it has taken some of their first line. -/
structure Along (offset : Nat) (bytes taken : List UInt8) (reader : Reader) : Prop where
  lines_eq : reader.lines = [decide (lineFeed ∈ taken)]
  bytes_eq : bytes = taken ++ reader.base.supply
  consumed_eq : reader.consumed = offset + taken.length
  opens : taken <+: firstLine bytes
  solid : taken = [] → reader.base.buffer ≠ []

namespace Along

variable {offset : Nat} {bytes taken : List UInt8} {reader : Reader}

theorem cases (along : Along offset bytes taken reader) :
    ∃ base, (lineFeed ∈ taken ∧ reader = ⟨base, [true]⟩) ∨
      (lineFeed ∉ taken ∧ reader = ⟨base, [false]⟩) := by
  obtain ⟨base, lines⟩ := reader
  obtain rfl : lines = [decide (lineFeed ∈ taken)] := along.lines_eq
  by_cases fed : lineFeed ∈ taken
  · exact ⟨base, .inl ⟨fed, by simp [fed]⟩⟩
  · exact ⟨base, .inr ⟨fed, by simp [fed]⟩⟩

theorem waits {base after : ByteReader} {lines : List Bool}
    (along : Along offset bytes taken ⟨base, lines⟩) (waits : base.Waits after) :
    Along offset bytes taken ⟨after, lines⟩ where
  lines_eq := along.lines_eq
  bytes_eq := by rw [along.bytes_eq, waits.supply_eq]
  consumed_eq := waits.consumed_eq.trans along.consumed_eq
  opens := along.opens
  solid empty := mt (fun none => List.prefix_nil.mp (none ▸ waits.longer)) (along.solid empty)

/-- What is left of the first line comes first. -/
theorem firstLine_eq (along : Along offset bytes taken reader) :
    firstLine bytes = if lineFeed ∈ taken then taken
      else taken ++ firstLine reader.base.supply := by
  split
  · next fed =>
      obtain ⟨left, split⟩ := along.opens
      have whole : (firstLine bytes).length ≤ taken.length :=
        length_firstLine_le_of_mem (by rwa [← split, List.take_left])
      rw [← split, List.length_append] at whole
      rw [← split, List.length_eq_zero_iff.mp (show left.length = 0 by omega), List.append_nil]
  · next unfed =>
      rw [along.bytes_eq, firstLine_append_of_not_mem unfed]

end Along

theorem firstLine_opens_of_opens {bytes more : List UInt8} (opens : bytes <+: more) :
    firstLine bytes <+: firstLine more := by
  obtain ⟨rest, rfl⟩ := opens
  by_cases member : lineFeed ∈ bytes
  · exact ⟨[], by rw [List.append_nil, firstLine_append_of_mem member]⟩
  · rw [firstLine_of_not_mem member, firstLine_append_of_not_mem member]
    exact List.prefix_append _ _

theorem take_firstLine {bytes : List UInt8} {count : Nat}
    (bound : count ≤ (firstLine bytes).length) :
    (firstLine bytes).take count = bytes.take count := by
  have front := List.prefix_iff_eq_take.mp (firstLine_opens bytes)
  rw [front, List.take_take, Nat.min_eq_left bound]

theorem ByteReader.buffer_opens (reader : ByteReader) : reader.buffer <+: reader.supply :=
  List.prefix_append _ _

/-- More of the line is taken. -/
theorem Along.take {offset : Nat} {bytes taken took : List UInt8} {base after : ByteReader}
    (along : Along offset bytes taken ⟨base, [false]⟩) (unfed : lineFeed ∉ taken)
    (opens : took <+: firstLine base.buffer) (split : base.supply = took ++ after.supply)
    (place : after.consumed = base.consumed + took.length)
    (same : took = [] → after.buffer = base.buffer) :
    Along offset bytes (taken ++ took) ⟨after, [decide (lineFeed ∈ took)]⟩ where
  lines_eq := by simp [unfed]
  bytes_eq := by
    rw [along.bytes_eq, List.append_assoc]
    exact congrArg (taken ++ ·) split
  consumed_eq := by
    rw [List.length_append, ← Nat.add_assoc]
    exact place.trans (congrArg (· + took.length) along.consumed_eq)
  opens := by
    rw [along.firstLine_eq, if_neg unfed, List.prefix_append_right_inj]
    exact opens.trans (firstLine_opens_of_opens base.buffer_opens)
  solid empty := by
    obtain ⟨none, rfl⟩ := List.append_eq_nil_iff.mp empty
    have stays : after.buffer = base.buffer := same rfl
    rw [stays]
    exact along.solid none

namespace Reader

/-- A line reader that is not done takes the bytes asked for and the end of the line behind them,
and is done when the line feed is among them. -/
theorem consume_of_peek {base middle : ByteReader}
    (looked : base.peek = (.ok middle.buffer, middle)) {count : Nat}
    (within : count ≤ (firstLine middle.buffer).length) :
    ∃ took after, Reader.consume ⟨base, [false]⟩ count =
        (.ok (), ⟨after, [decide (lineFeed ∈ took)]⟩) ∧ took <+: firstLine middle.buffer ∧
      middle.supply = took ++ after.supply ∧ after.consumed = middle.consumed + took.length ∧
        (took = [] → after.buffer = middle.buffer) := by
  have shorter := (firstLine_opens middle.buffer).length_le
  have bound := taking_le within
  obtain ⟨after, consumed, split, buffer, place, _⟩ :=
    middle.consume_of_le (Nat.le_trans bound shorter)
  have length : ((firstLine middle.buffer).take (taking (firstLine middle.buffer) count)).length =
      taking (firstLine middle.buffer) count := List.length_take_of_le bound
  rw [← take_firstLine bound] at split
  refine ⟨(firstLine middle.buffer).take (taking (firstLine middle.buffer) count), after, ?_,
    List.take_prefix _ _, split, by rw [length, place], ?_⟩
  · simp only [Reader.consume, Reader.consumeThrough, Reader.peekThrough, looked]
    by_cases member : lineFeed ∈ middle.buffer
    · obtain ⟨head, rest, absent, standing⟩ := exists_front_of_mem member
      rw [standing, firstLine_append absent] at within consumed
      rw [List.length_append, List.length_singleton] at within
      simp only [standing, firstLine_append absent, lineLength?_append absent,
        withLineEnd_eq_taking rest within, consumed, mem_take_iff absent]
      simp [Reader.around]
    · rw [firstLine_of_not_mem member] at consumed ⊢
      rw [taking_of_not_mem member] at consumed ⊢
      have before : lineFeed ∉ middle.buffer.take count :=
        fun inside => member (List.mem_of_mem_take inside)
      simp only [lineLength?_of_not_mem member, consumed, before]
      simp [Reader.around]
  · intro none
    rw [none, List.length_nil] at length
    rw [buffer, ← length, List.drop_zero]

/-- What skipping a line has come to: all that was left of it is taken, unless a read has failed;
then the bytes at hand are taken and what else came of the line. -/
def Skips (base : ByteReader) (result : Except ReaderFault Unit × Reader) : Prop :=
  ∃ took after, base.supply = took ++ after.supply ∧
    after.consumed = base.consumed + took.length ∧
      ((result = (.ok (), ⟨after, []⟩) ∧ took = firstLine base.supply) ∨
        ∃ failure, result = (.error (.read failure), ⟨after, []⟩) ∧
          lineFeed ∉ took ∧ base.buffer <+: took)

/-- A line feed at hand ends the line, which is consumed. -/
theorem exists_consume_of_mem {base : ByteReader} (member : lineFeed ∈ base.buffer) :
    ∃ length after, lineLength? base.buffer = some length ∧
      Reader.consume ⟨base, []⟩ (length + 1) = (.ok (), ⟨after, []⟩) ∧
        base.supply = firstLine base.supply ++ after.supply ∧
          after.consumed = base.consumed + (firstLine base.supply).length := by
  obtain ⟨front, rest, absent, standing⟩ := exists_front_of_mem member
  have inside : front.length + 1 ≤ base.buffer.length := by
    rw [standing, List.length_append, List.length_cons]
    omega
  obtain ⟨after, consumed, split, _, place, _⟩ := base.consume_of_le inside
  have line : base.buffer.take (front.length + 1) = front ++ [lineFeed] := by
    rw [standing, List.take_length_add_append, List.take_one, List.head?_cons,
      Option.toList_some]
  rw [line] at split
  have first : firstLine base.supply = front ++ [lineFeed] := by
    rw [split, firstLine_append_of_mem (by simp), firstLine_append absent]
  refine ⟨front.length, after, ?_, ?_, ?_, ?_⟩
  · rw [standing, lineLength?_append absent]
  · simp only [Reader.consume, Reader.consumeThrough]
    rw [show ((front.length : Int) + 1) = ((front.length + 1 : Nat) : Int) from rfl, consumed]
  · rw [first]
    exact split
  · rw [place, first, List.length_append]
    rfl

/-- The bytes at hand are all consumed. -/
theorem exists_consume_buffer (base : ByteReader) :
    ∃ after, Reader.consume ⟨base, []⟩ base.buffer.length = (.ok (), ⟨after, []⟩) ∧
      base.supply = base.buffer ++ after.supply ∧ after.buffer = [] ∧
        after.consumed = base.consumed + base.buffer.length ∧ after.pending = base.pending := by
  obtain ⟨after, consumed, split, buffer, place, pending⟩ :=
    base.consume_of_le (Nat.le_refl base.buffer.length)
  rw [List.take_length] at split
  rw [List.drop_length] at buffer
  refine ⟨after, ?_, split, buffer, place, pending⟩
  rw [Reader.consume, Reader.consumeThrough, consumed]

/-- Bytes without a line feed are skipped before the rest of the line. -/
theorem Skips.behind {base after : ByteReader} {result : Except ReaderFault Unit × Reader}
    (skips : Skips after result) (split : base.supply = base.buffer ++ after.supply)
    (place : after.consumed = base.consumed + base.buffer.length)
    (unfed : lineFeed ∉ base.buffer) : Skips base result := by
  obtain ⟨took, last, left, there, came⟩ := skips
  refine ⟨base.buffer ++ took, last, ?_, ?_, ?_⟩
  · rw [split, left, List.append_assoc]
  · rw [there, place, List.length_append, Nat.add_assoc]
  · rcases came with ⟨skipped, rfl⟩ | ⟨failure, failed, absent, _⟩
    · exact .inl ⟨skipped, by rw [split, firstLine_append_of_not_mem unfed]⟩
    · exact .inr ⟨failure, failed, by simp [unfed, absent], List.prefix_append _ _⟩

/-- Looking first makes no difference. -/
theorem Skips.of_waits {base middle : ByteReader} {result : Except ReaderFault Unit × Reader}
    (skips : Skips middle result) (waits : base.Waits middle) : Skips base result := by
  obtain ⟨took, after, left, there, came⟩ := skips
  rw [waits.supply_eq] at left came
  refine ⟨took, after, left, there.trans (congrArg (· + took.length) waits.consumed_eq), ?_⟩
  rcases came with done | ⟨failure, failed, absent, opens⟩
  · exact .inl done
  · exact .inr ⟨failure, failed, absent, waits.longer.trans opens⟩

theorem skips_skipLine {steps : Nat} {base : ByteReader}
    (enough : base.pending.length + (if base.buffer = [] then 1 else 2) ≤ steps) :
    Skips base (Reader.skipLine steps ⟨base, []⟩) := by
  -- A step that finds no line feed drops all bytes at hand, so the next one has to read.
  induction steps generalizing base with
  | zero =>
      split at enough <;> omega
  | succ steps ih =>
      rw [Reader.skipLine, Reader.peek, Reader.peekThrough]
      rcases base.peek_waits with ⟨middle, looked, waits, ended, read⟩ |
        ⟨failure, after, failed, waits, empty⟩
      · rw [looked]
        refine Skips.of_waits ?_ waits
        by_cases none : middle.buffer = []
        · have nothing := ended none
          refine ⟨[], middle, rfl, rfl, .inl ⟨?_, ?_⟩⟩
          · simp only [none, List.isEmpty_nil, if_true]
          · rw [nothing]
            rfl
        simp only [List.isEmpty_iff, none, if_false]
        by_cases member : lineFeed ∈ middle.buffer
        · obtain ⟨length, after, found, consumed, split, place⟩ := exists_consume_of_mem member
          simp only [found, consumed]
          exact ⟨_, after, split, place, .inl ⟨rfl, rfl⟩⟩
        · obtain ⟨next, consumed, split, buffer, place, pending⟩ := exists_consume_buffer middle
          have fewer : next.pending.length + (if next.buffer = [] then 1 else 2) ≤ steps := by
            rw [if_pos buffer, pending]
            rcases read none with rfl | ⟨empty, less⟩
            · rw [if_neg none] at enough
              omega
            · rw [if_pos empty] at enough
              omega
          simp only [lineLength?_of_not_mem member, consumed]
          exact (ih fewer).behind split place member
      · rw [failed]
        refine ⟨[], after, waits.supply_eq.symm, waits.consumed_eq, .inr ⟨failure, rfl, ?_, ?_⟩⟩
        · exact List.not_mem_nil
        · exact empty ▸ List.nil_prefix

/-- Asking for the end is looking: when something is left, a line begins to be taken. -/
theorem atEnd_waits (base : ByteReader) :
    ∃ after, base.Waits after ∧
      ((∃ failure, Reader.atEnd ⟨base, [false]⟩ = (.error (.read failure), ⟨after, [false]⟩)) ∨
        Reader.atEnd ⟨base, [false]⟩ = (.ok true, ⟨after, [false]⟩) ∧ base.supply = [] ∨
        Reader.atEnd ⟨base, [false]⟩ = (.ok false, ⟨after, [false]⟩) ∧
          Along base.consumed base.supply [] ⟨after, [false]⟩) := by
  rcases base.peek_waits with ⟨middle, looked, waits, ended, _⟩ |
    ⟨failure, after, failed, waits, _⟩
  · refine ⟨middle, waits, ?_⟩
    simp only [Reader.atEnd, Reader.peek, Reader.peekThrough, looked]
    by_cases none : middle.buffer = []
    · right; left
      rw [none, ← waits.supply_eq]
      exact ⟨rfl, ended none⟩
    · right; right
      refine ⟨?_, by simp, waits.supply_eq.symm, waits.consumed_eq, List.nil_prefix, fun _ => none⟩
      have solid := mt firstLine_eq_nil_iff.mp none
      simp [Except.map, solid]
  · refine ⟨after, waits, .inl ⟨failure, ?_⟩⟩
    simp only [Reader.atEnd, Reader.peek, Reader.peekThrough, failed]
    rfl

end Reader

/-- Going on to the next line takes the rest of the line, unless a read fails: then some of the line
has been taken, and its line feed has not. -/
theorem Along.nextLine {offset : Nat} {bytes taken : List UInt8} {reader : Reader}
    (along : Along offset bytes taken reader) :
    ∃ took base, bytes = took ++ base.supply ∧ base.consumed = offset + took.length ∧
      ((reader.nextLine = (.ok (), ⟨base, [false]⟩) ∧ took = firstLine bytes) ∨
        ∃ failure, reader.nextLine = (.error (.read failure), ⟨base, [false]⟩) ∧
          lineFeed ∉ took ∧ took ≠ []) := by
  have first := along.firstLine_eq
  obtain ⟨base, ⟨fed, rfl⟩ | ⟨unfed, rfl⟩⟩ := along.cases
  · rw [if_pos fed] at first
    exact ⟨taken, base, along.bytes_eq, along.consumed_eq, .inl ⟨rfl, first.symm⟩⟩
  · rw [if_neg unfed] at first
    have enough : base.pending.length + (if base.buffer = [] then 1 else 2) ≤
        base.pending.length + 2 := by
      split <;> omega
    obtain ⟨took, after, left, place, came⟩ := Reader.skips_skipLine enough
    refine ⟨taken ++ took, after, ?_, ?_, ?_⟩
    · rw [along.bytes_eq, List.append_assoc]
      exact congrArg (taken ++ ·) left
    · rw [place, List.length_append, ← Nat.add_assoc]
      exact congrArg (· + took.length) along.consumed_eq
    · simp only [Reader.nextLine, Reader.pendingReads]
      rcases came with ⟨skipped, whole⟩ | ⟨failure, failed, rest, opens⟩
      · rw [skipped]
        exact .inl ⟨rfl, by rw [first, whole]⟩
      · rw [failed]
        refine .inr ⟨failure, rfl, by simp [unfed, rest], ?_⟩
        intro none
        obtain ⟨empty, rfl⟩ := List.append_eq_nil_iff.mp none
        exact along.solid empty (List.prefix_nil.mp opens)

end Unformat
