import Unformat.Input.Reader

/-!
# Readers that flow

A reader flows when it reads bytes alone, every read to come brings some, and none comes after the
end.  What such a reader holds and what it is to read together are the bytes that remain; reading
on moves the border between the two and changes nothing else.
-/

namespace Unformat

def Delivery.content : Delivery → List UInt8
  | .data bytes => bytes
  | .failure _ => []

namespace Reader

/-- The bytes at hand after `count` more reads. -/
def bufferAfter (reader : Reader) (count : Nat) : List UInt8 :=
  reader.base.buffer ++ (reader.base.pending.take count).flatMap Delivery.content

/-- The bytes that have not been consumed. -/
def remaining (reader : Reader) : List UInt8 :=
  reader.base.buffer ++ reader.base.pending.flatMap Delivery.content

theorem foldl_eq_length_content {add : Nat → Delivery → Nat}
    (addData : ∀ count bytes, add count (.data bytes) = count + bytes.length)
    (addFailure : ∀ count reason, add count (.failure reason) = count) (pending : List Delivery)
    (count : Nat) :
    pending.foldl add count = count + (pending.flatMap Delivery.content).length := by
  induction pending generalizing count with
  | nil => rfl
  | cons delivery pending ih =>
      rw [List.foldl_cons, ih]
      cases delivery with
      | data bytes => simp [addData, Delivery.content, Nat.add_assoc]
      | failure reason => simp [addFailure, Delivery.content]

theorem length_remaining_eq (reader : Reader) : reader.remaining.length = reader.bytesLeft := by
  rw [remaining, bytesLeft, List.length_append,
    foldl_eq_length_content (by intros; rfl) (by intros; rfl), Nat.zero_add]

/-- No line reader is around the bytes, every read to come brings some, and none comes after the
end. -/
structure Flowing (reader : Reader) : Prop where
  bare : reader.lines = []
  feeding : ∀ delivery ∈ reader.base.pending, ∃ bytes, bytes ≠ [] ∧ delivery = .data bytes
  ended : reader.base.ended = true → reader.base.pending = []

/-- The reader has read on, `count` times with success, and has consumed nothing. -/
structure ReadsOn (count : Nat) (reader after : Reader) : Prop where
  flowing : after.Flowing
  buffer_eq : after.base.buffer = reader.bufferAfter count
  pending_eq : after.base.pending = reader.base.pending.drop count
  consumed_eq : after.consumed = reader.consumed
  count_le : count ≤ reader.pendingReads

@[simp] theorem bufferAfter_zero (reader : Reader) :
    reader.bufferAfter 0 = reader.base.buffer := by
  simp [bufferAfter]

theorem bufferAfter_append (reader : Reader) (count : Nat) :
    reader.bufferAfter count ++ (reader.base.pending.drop count).flatMap Delivery.content =
      reader.remaining := by
  rw [bufferAfter, List.append_assoc, ← List.flatMap_append, List.take_append_drop, remaining]

namespace ReadsOn

variable {reader middle after : Reader} {count more : Nat}

theorem refl (flowing : reader.Flowing) : ReadsOn 0 reader reader where
  flowing := flowing
  buffer_eq := (bufferAfter_zero reader).symm
  pending_eq := rfl
  consumed_eq := rfl
  count_le := Nat.zero_le _

theorem bufferAfter_eq (readsOn : ReadsOn count reader after) (more : Nat) :
    after.bufferAfter more = reader.bufferAfter (count + more) := by
  rw [bufferAfter, readsOn.buffer_eq, readsOn.pending_eq, bufferAfter, bufferAfter, List.take_add,
    List.flatMap_append, List.append_assoc]

theorem pendingReads_eq (readsOn : ReadsOn count reader after) :
    after.pendingReads = reader.pendingReads - count := by
  rw [pendingReads, readsOn.pending_eq, List.length_drop, pendingReads]

theorem remaining_eq (readsOn : ReadsOn count reader after) :
    after.remaining = reader.remaining := by
  rw [remaining, readsOn.buffer_eq, readsOn.pending_eq, bufferAfter_append]

theorem trans (first : ReadsOn count reader middle) (second : ReadsOn more middle after) :
    ReadsOn (count + more) reader after where
  flowing := second.flowing
  buffer_eq := by rw [second.buffer_eq, first.bufferAfter_eq]
  pending_eq := by rw [second.pending_eq, first.pending_eq, List.drop_drop]
  consumed_eq := second.consumed_eq.trans first.consumed_eq
  count_le := by
    have bound := second.count_le
    have firstBound := first.count_le
    rw [first.pendingReads_eq] at bound
    omega

end ReadsOn

/-! ## The operations on a reader that flows -/

/-- Reading on brings bytes, or there are none left to come. -/
theorem fill_of_flowing {reader : Reader} (flowing : reader.Flowing) :
    (∃ after, reader.fill = (.ok true, after) ∧ ReadsOn 1 reader after ∧
      after.base.buffer ≠ []) ∨
    (∃ after, reader.fill = (.ok false, after) ∧ ReadsOn 0 reader after ∧
      reader.base.pending = []) := by
  obtain ⟨⟨pending, buffer, ended, consumed⟩, lines⟩ := reader
  obtain ⟨bare, feeding, noneAfterEnd⟩ := flowing
  simp only at bare feeding noneAfterEnd
  subst bare
  simp only [fill, fillThrough, ByteReader.fill]
  by_cases done : ended = true
  · right
    obtain rfl := noneAfterEnd done
    exact ⟨_, by rw [if_pos done], ReadsOn.refl ⟨rfl, by simp, by simp⟩, rfl⟩
  · rw [if_neg done]
    cases pending with
    | nil =>
        right
        refine ⟨_, rfl, ?_, rfl⟩
        exact ⟨⟨rfl, by simp, by simp⟩, by simp, rfl, rfl, Nat.zero_le _⟩
    | cons delivery pending =>
        obtain ⟨bytes, solid, rfl⟩ := feeding delivery List.mem_cons_self
        obtain ⟨byte, bytes, rfl⟩ := List.exists_cons_of_ne_nil solid
        left
        refine ⟨_, rfl, ?_, by simp⟩
        refine ⟨⟨rfl, ?_, by simp [done]⟩, ?_, rfl, rfl, by simp [pendingReads]⟩
        · exact fun other member => feeding other (List.mem_cons_of_mem _ member)
        · simp [bufferAfter, Delivery.content]

theorem peek_of_buffer_ne_nil {reader : Reader} (flowing : reader.Flowing)
    (atHand : reader.base.buffer ≠ []) : reader.peek = (.ok reader.base.buffer, reader) := by
  obtain ⟨byte, buffer, standing⟩ := List.exists_cons_of_ne_nil atHand
  obtain ⟨base, lines⟩ := reader
  obtain rfl : lines = [] := flowing.bare
  simp only at standing
  simp [peek, peekThrough, ByteReader.peek, standing]

theorem peek_of_buffer_eq_nil {reader after : Reader} {added : Bool} (flowing : reader.Flowing)
    (empty : reader.base.buffer = []) (filled : reader.fill = (.ok added, after)) :
    reader.peek = (.ok after.base.buffer, after) := by
  obtain ⟨base, lines⟩ := reader
  obtain rfl : lines = [] := flowing.bare
  simp only at empty
  simp only [fill, fillThrough, peek, peekThrough, ByteReader.peek, empty] at filled ⊢
  generalize base.fill = result at filled
  obtain ⟨result, base⟩ := result
  simp only [Prod.mk.injEq] at filled
  obtain ⟨rfl, rfl⟩ := filled
  rfl

/-- Looking shows the bytes at hand, of which there are none only at the end. -/
theorem peek_of_flowing {reader : Reader} (flowing : reader.Flowing) :
    ∃ after count, reader.peek = (.ok after.base.buffer, after) ∧ ReadsOn count reader after ∧
      (after.base.buffer = [] → after.base.pending = []) ∧
        ∀ earlier < count, reader.bufferAfter earlier = [] := by
  by_cases empty : reader.base.buffer = []
  · rcases fill_of_flowing flowing with ⟨after, filled, readsOn, solid⟩ |
      ⟨after, filled, readsOn, none⟩
    · refine ⟨after, 1, peek_of_buffer_eq_nil flowing empty filled, readsOn,
        fun empty => (solid empty).elim, ?_⟩
      intro earlier bound
      obtain rfl : earlier = 0 := by omega
      simpa using empty
    · refine ⟨after, 0, peek_of_buffer_eq_nil flowing empty filled, readsOn, ?_, by simp⟩
      intro _
      simp [readsOn.pending_eq, none]
  · exact ⟨reader, 0, peek_of_buffer_ne_nil flowing empty, ReadsOn.refl flowing,
      fun none => (empty none).elim, by simp⟩

theorem consume_of_flowing {reader : Reader} (flowing : reader.Flowing) {count : Nat}
    (atHand : count ≤ reader.base.buffer.length) :
    ∃ after, reader.consume count = (.ok (), after) ∧ after.Flowing ∧
      after.remaining = reader.remaining.drop count ∧
        after.consumed = reader.consumed + count := by
  obtain ⟨⟨pending, buffer, ended, consumed⟩, lines⟩ := reader
  obtain ⟨bare, feeding, noneAfterEnd⟩ := flowing
  simp only at bare feeding noneAfterEnd atHand
  subst bare
  have within : ¬ ((count : Int) < 0 ∨ (buffer.length : Int) < count) := by omega
  simp only [consume, consumeThrough, ByteReader.consume, if_neg within]
  refine ⟨_, rfl, ⟨rfl, feeding, noneAfterEnd⟩, ?_, rfl⟩
  simp [remaining, List.drop_append_of_le_length atHand]

end Reader

end Unformat
