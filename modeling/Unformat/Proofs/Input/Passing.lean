import Unformat.Proofs.Input.Flowing

/-!
# What a byte reader passes over

A reader with no line readers around it may have come to any state, and its reads may fail.
Whatever it is asked for, the bytes that it consumes come off the front of those that remain, and
an operation that fails consumes none.
-/

namespace Unformat

namespace Reader

/-- The reader has consumed `bytes`, and nothing else of what remains is lost. -/
structure Passes (bytes : List UInt8) (reader after : Reader) : Prop where
  bare : after.lines = []
  remaining_eq : reader.remaining = bytes ++ after.remaining
  consumed_eq : after.consumed = reader.consumed + bytes.length

namespace Passes

variable {reader middle after : Reader} {bytes more : List UInt8}

theorem refl (bare : reader.lines = []) : Passes [] reader reader :=
  ⟨bare, rfl, rfl⟩

theorem trans (first : Passes bytes reader middle) (second : Passes more middle after) :
    Passes (bytes ++ more) reader after where
  bare := second.bare
  remaining_eq := by
    rw [first.remaining_eq, second.remaining_eq, List.append_assoc]
  consumed_eq := by
    rw [second.consumed_eq, first.consumed_eq, List.length_append, Nat.add_assoc]

theorem drop_eq (passes : Passes bytes reader after) :
    reader.remaining.drop bytes.length = after.remaining := by
  rw [passes.remaining_eq, List.drop_left]

end Passes

/-! ## The operations on a bare reader -/

theorem peek_of_buffer {base : ByteReader} (solid : base.buffer ≠ []) :
    Reader.peek ⟨base, []⟩ = (.ok base.buffer, ⟨base, []⟩) := by
  obtain ⟨byte, rest, standing⟩ := List.exists_cons_of_ne_nil solid
  simp [peek, peekThrough, ByteReader.peek, standing]

/-- Looking reads when there is nothing at hand. -/
theorem peek_eq_fill {base : ByteReader} (empty : base.buffer = []) :
    Reader.peek ⟨base, []⟩ =
      ((Reader.fill ⟨base, []⟩).1.map fun _ => (Reader.fill ⟨base, []⟩).2.base.buffer,
        (Reader.fill ⟨base, []⟩).2) := by
  simp only [peek, peekThrough, fill, fillThrough, ByteReader.peek, empty]
  rcases base.fill with ⟨_ | _, _⟩ <;> rfl

theorem consume_of_bare_of_outside {base : ByteReader} {count : Int}
    (outside : count < 0 ∨ (base.buffer.length : Int) < count) :
    Reader.consume ⟨base, []⟩ count = (.error (.overrun count base.buffer.length), ⟨base, []⟩) := by
  simp only [consume, consumeThrough, ByteReader.consume, if_pos outside]

theorem consume_of_bare_of_within {base : ByteReader} {count : Int}
    (within : ¬ (count < 0 ∨ (base.buffer.length : Int) < count)) :
    Reader.consume ⟨base, []⟩ count =
      (.ok (), ⟨{ base with buffer := base.buffer.drop count.toNat
                            consumed := base.consumed + count.toNat }, []⟩) := by
  simp only [consume, consumeThrough, ByteReader.consume, if_neg within]

theorem fill_of_bare {reader : Reader} (bare : reader.lines = []) :
    (∃ added after, reader.fill = (.ok added, after) ∧ Passes [] reader after ∧
      reader.base.buffer <+: after.base.buffer) ∨
    (∃ failure after, reader.fill = (.error (.read failure), after) ∧ Passes [] reader after) := by
  obtain ⟨⟨pending, buffer, ended, consumed⟩, lines⟩ := reader
  obtain rfl : lines = [] := bare
  simp only [fill, fillThrough, ByteReader.fill]
  cases ended with
  | true => exact .inl ⟨_, _, rfl, .refl rfl, List.prefix_rfl⟩
  | false =>
      cases pending with
      | nil => exact .inl ⟨_, _, rfl, ⟨rfl, rfl, rfl⟩, List.prefix_rfl⟩
      | cons delivery pending =>
          cases delivery with
          | failure reason => exact .inr ⟨_, _, rfl, ⟨rfl, rfl, rfl⟩⟩
          | data bytes =>
              cases bytes with
              | nil => exact .inl ⟨_, _, rfl, ⟨rfl, rfl, rfl⟩, List.prefix_rfl⟩
              | cons byte bytes =>
                  refine .inl ⟨_, _, rfl, ⟨rfl, ?_, rfl⟩, List.prefix_append _ _⟩
                  simp [remaining, Delivery.content]

theorem peek_of_bare {reader : Reader} (bare : reader.lines = []) :
    (∃ after, reader.peek = (.ok after.base.buffer, after) ∧ Passes [] reader after ∧
      reader.base.buffer <+: after.base.buffer) ∨
    (∃ failure after, reader.peek = (.error (.read failure), after) ∧ Passes [] reader after) := by
  obtain ⟨base, lines⟩ := reader
  obtain rfl : lines = [] := bare
  by_cases empty : base.buffer = []
  · rw [peek_eq_fill empty]
    rcases fill_of_bare (show (⟨base, []⟩ : Reader).lines = [] from rfl) with
      ⟨added, after, filled, passes, longer⟩ | ⟨failure, after, failed, passes⟩
    · rw [filled]
      exact .inl ⟨after, rfl, passes, longer⟩
    · rw [failed]
      exact .inr ⟨failure, after, rfl, passes⟩
  · exact .inl ⟨⟨base, []⟩, peek_of_buffer empty, .refl rfl, List.prefix_rfl⟩

theorem consume_of_bare {reader : Reader} (bare : reader.lines = []) {bytes : List UInt8}
    (atHand : bytes <+: reader.base.buffer) :
    ∃ after, reader.consume bytes.length = (.ok (), after) ∧ Passes bytes reader after := by
  obtain ⟨⟨pending, buffer, ended, consumed⟩, lines⟩ := reader
  obtain rfl : lines = [] := bare
  obtain ⟨rest, rfl⟩ := atHand
  have within : ¬ ((bytes.length : Int) < 0 ∨ ((bytes ++ rest).length : Int) < bytes.length) := by
    rw [List.length_append]
    omega
  simp only [consume, consumeThrough, ByteReader.consume, if_neg within]
  refine ⟨_, rfl, rfl, ?_, rfl⟩
  simp [remaining]

end Reader

end Unformat
