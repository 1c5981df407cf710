import Unformat.Proofs.Input.Chunks

/-!
# Byte readers whose reads do not fail

What such a reader is still to give are chunks: the bytes at hand, and what each read to come brings
before the end.  Looking and reading on move chunks to the bytes at hand, and consuming takes bytes
off the front of the first chunk.
-/

namespace Unformat

/-- No read fails before the end. -/
inductive Unfailing : List Delivery → Prop
  | nil : Unfailing []
  | last (pending : List Delivery) : Unfailing (.data [] :: pending)
  | more {byte : UInt8} {bytes : List UInt8} {pending : List Delivery}
      (later : Unfailing pending) : Unfailing (.data (byte :: bytes) :: pending)

/-- What the reads bring before the end. -/
def incoming : List Delivery → List (List UInt8)
  | .data (byte :: bytes) :: pending => (byte :: bytes) :: incoming pending
  | _ => []

theorem headD_prefix_flatten (chunks : List (List UInt8)) : chunks.headD [] <+: chunks.flatten := by
  cases chunks with
  | nil => exact List.prefix_rfl
  | cons chunk rest => exact List.prefix_append chunk rest.flatten

/-- Take bytes off the front of the first chunk. -/
def dropFront (count : Nat) : List (List UInt8) → List (List UInt8)
  | [] => []
  | chunk :: rest => if chunk.length ≤ count then rest else chunk.drop count :: rest

theorem flatten_dropFront {count : Nat} {chunks : List (List UInt8)}
    (atHand : count ≤ (chunks.headD []).length) :
    (dropFront count chunks).flatten = chunks.flatten.drop count := by
  cases chunks with
  | nil => simp [dropFront]
  | cons chunk rest =>
      simp only [List.headD_cons] at atHand
      rw [dropFront, List.flatten_cons, List.drop_append_of_le_length atHand]
      split
      · rw [List.drop_of_length_le ‹_›, List.nil_append]
      · rfl

theorem take_append_dropFront {count : Nat} {chunks : List (List UInt8)}
    (atHand : count ≤ (chunks.headD []).length) :
    (chunks.headD []).take count ++ (dropFront count chunks).flatten = chunks.flatten := by
  cases chunks with
  | nil => simp [dropFront]
  | cons chunk rest =>
      rw [List.headD_cons] at atHand ⊢
      have front : chunk.take count = (chunk :: rest).flatten.take count := by
        rw [List.flatten_cons, List.take_append_of_le_length atHand]
      rw [flatten_dropFront (by simpa using atHand), front, List.take_append_drop]

/-- Put the first two chunks together. -/
def joinFirst : List (List UInt8) → List (List UInt8)
  | first :: second :: rest => (first ++ second) :: rest
  | chunks => chunks

theorem flatten_joinFirst (chunks : List (List UInt8)) :
    (joinFirst chunks).flatten = chunks.flatten := by
  match chunks with
  | [] => rfl
  | [_] => rfl
  | first :: second :: rest => simp [joinFirst]

theorem solid_incoming (pending : List Delivery) : ∀ chunk ∈ incoming pending, chunk ≠ [] := by
  induction pending with
  | nil => simp [incoming]
  | cons delivery pending ih =>
      cases delivery with
      | failure reason => simp [incoming]
      | data bytes =>
          cases bytes with
          | nil => simp [incoming]
          | cons byte bytes => simpa [incoming] using ih

theorem length_incoming_le (pending : List Delivery) :
    (incoming pending).length ≤ pending.length := by
  induction pending with
  | nil => simp [incoming]
  | cons delivery pending ih =>
      cases delivery with
      | failure reason => simp [incoming]
      | data bytes =>
          cases bytes with
          | nil => simp [incoming]
          | cons byte bytes => simpa [incoming] using ih

theorem unfailing_data (chunks : List (List UInt8)) : Unfailing (chunks.map .data) := by
  induction chunks with
  | nil => exact .nil
  | cons chunk rest ih =>
      cases chunk with
      | nil => exact .last _
      | cons byte bytes => exact .more ih

theorem incoming_data {chunks : List (List UInt8)} (solid : ∀ chunk ∈ chunks, chunk ≠ []) :
    incoming (chunks.map .data) = chunks := by
  induction chunks with
  | nil => rfl
  | cons chunk rest ih =>
      obtain ⟨byte, bytes, rfl⟩ := List.exists_cons_of_ne_nil (solid chunk List.mem_cons_self)
      have later := ih fun chunk member => solid chunk (List.mem_cons_of_mem _ member)
      rw [List.map_cons, incoming, later]

namespace ByteReader

def Steady (reader : ByteReader) : Prop := reader.ended = false → Unfailing reader.pending

/-- What the reads to come bring. -/
def toCome (reader : ByteReader) : List (List UInt8) :=
  if reader.ended then [] else incoming reader.pending

/-- The bytes at hand and what the reads to come bring. -/
def chunks (reader : ByteReader) : List (List UInt8) :=
  if reader.buffer = [] then reader.toCome else reader.buffer :: reader.toCome

/-- The bytes that are still to be given. -/
def rest (reader : ByteReader) : List UInt8 := reader.chunks.flatten

/-- The reader is steady, and has come to a place with the given chunks before it. -/
structure Stands (reader : ByteReader) (chunks : List (List UInt8)) (consumed : Nat) : Prop where
  steady : reader.Steady
  chunks_eq : reader.chunks = chunks
  consumed_eq : reader.consumed = consumed

variable {reader : ByteReader} {chunks : List (List UInt8)} {consumed : Nat}

theorem Steady.stands (steady : reader.Steady) : reader.Stands reader.chunks reader.consumed :=
  ⟨steady, rfl, rfl⟩

theorem stands_ofChunks {chunks : List (List UInt8)} (solid : ∀ chunk ∈ chunks, chunk ≠ []) :
    (Reader.ofChunks chunks).base.Stands chunks 0 :=
  ⟨fun _ => unfailing_data chunks, incoming_data solid, rfl⟩

theorem rest_eq (reader : ByteReader) : reader.rest = reader.buffer ++ reader.toCome.flatten := by
  rw [rest, ByteReader.chunks]
  split
  · rename_i empty
    rw [empty, List.nil_append]
  · rfl

theorem Stands.solid (stands : reader.Stands chunks consumed) : ∀ chunk ∈ chunks, chunk ≠ [] := by
  have coming : ∀ chunk ∈ reader.toCome, chunk ≠ [] := by
    rw [toCome]
    split
    · simp
    · exact solid_incoming _
  rw [← stands.chunks_eq, ByteReader.chunks]
  split
  · exact coming
  · intro chunk member
    rcases List.mem_cons.mp member with rfl | member
    · assumption
    · exact coming chunk member

theorem Stands.length_le (stands : reader.Stands chunks consumed) :
    chunks.length ≤ reader.pending.length + 1 := by
  have coming : reader.toCome.length ≤ reader.pending.length := by
    rw [toCome]
    split
    · simp
    · exact length_incoming_le _
  rw [← stands.chunks_eq, ByteReader.chunks]
  split
  · omega
  · rw [List.length_cons]
    omega

theorem length_incoming_flatten_le {add : Nat → Delivery → Nat}
    (addData : ∀ count bytes, add count (.data bytes) = count + bytes.length)
    (addFailure : ∀ count reason, add count (.failure reason) = count) (pending : List Delivery)
    (count : Nat) : count + (incoming pending).flatten.length ≤ pending.foldl add count := by
  induction pending generalizing count with
  | nil => simp [incoming]
  | cons delivery pending ih =>
      rw [List.foldl_cons]
      refine Nat.le_trans ?_ (ih _)
      cases delivery with
      | failure reason => simp [incoming, addFailure]
      | data bytes =>
          rw [addData]
          cases bytes with
          | nil => simp [incoming]
          | cons byte bytes =>
              exact Nat.le_of_eq (by
                rw [incoming, List.flatten_cons, List.length_append, Nat.add_assoc])

/-- No more bytes are still to be given than a reader counts. -/
theorem length_rest_le (reader : Reader) : reader.base.rest.length ≤ reader.bytesLeft := by
  have coming : reader.base.toCome.flatten.length ≤
      (incoming reader.base.pending).flatten.length := by
    rw [toCome]
    split <;> simp
  rw [rest_eq, List.length_append, Reader.bytesLeft]
  refine Nat.add_le_add_left (Nat.le_trans coming ?_) _
  rw [← Nat.zero_add (incoming reader.base.pending).flatten.length]
  exact length_incoming_flatten_le (by intros; rfl) (by intros; rfl) reader.base.pending 0

/-! ## The operations -/

/-- Reading on brings the next chunk, or there is none. -/
theorem fill_of_steady (steady : reader.Steady) :
    ∃ after, reader.fill = (.ok (!reader.toCome.isEmpty), after) ∧ after.Steady ∧
      after.buffer = reader.buffer ++ reader.toCome.headD [] ∧
        after.toCome = reader.toCome.tail ∧ after.consumed = reader.consumed := by
  obtain ⟨pending, buffer, ended, consumed⟩ := reader
  cases ended with
  | true => exact ⟨_, rfl, steady, by simp [toCome], by simp [toCome], rfl⟩
  | false =>
      cases steady rfl with
      | nil | last =>
          refine ⟨_, rfl, by simp [Steady], ?_, ?_, rfl⟩ <;> simp [toCome, incoming]
      | more later => exact ⟨_, rfl, fun _ => later, by simp [toCome, incoming], rfl, rfl⟩

/-- Looking shows the first chunk, which is then at hand. -/
theorem Stands.peek (stands : reader.Stands chunks consumed) :
    ∃ after, reader.peek = (.ok (chunks.headD []), after) ∧ after.Stands chunks consumed ∧
      after.buffer = chunks.headD [] := by
  obtain ⟨steady, rfl, rfl⟩ := stands
  cases standing : reader.buffer with
  | cons byte buffer =>
      refine ⟨reader, ?_, ⟨steady, rfl, rfl⟩, ?_⟩ <;>
        simp [ByteReader.peek, ByteReader.chunks, standing]
  | nil =>
      have all : reader.chunks = reader.toCome := by simp [ByteReader.chunks, standing]
      have solid := steady.stands.solid
      obtain ⟨after, filled, still, buffer, coming, same⟩ := fill_of_steady steady
      rw [standing, List.nil_append] at buffer
      rw [all] at solid ⊢
      refine ⟨after, ?_, ⟨still, ?_, same⟩, buffer⟩
      · simp [ByteReader.peek, standing, filled, buffer]
      · rw [ByteReader.chunks, buffer, coming]
        cases first : reader.toCome with
        | nil => rfl
        | cons chunk rest => simp [solid chunk (by simp [first])]

theorem Stands.toCome_eq (stands : reader.Stands chunks consumed)
    (atHand : reader.buffer = chunks.headD []) : reader.toCome = chunks.tail := by
  have solid := stands.solid
  have standing := stands.chunks_eq
  rw [ByteReader.chunks] at standing
  split at standing
  · rename_i empty
    rw [standing]
    cases chunks with
    | nil => rfl
    | cons chunk rest =>
        rw [empty, List.headD_cons] at atHand
        exact (solid chunk List.mem_cons_self atHand.symm).elim
  · rw [← standing, List.tail_cons]

/-- Reading on when the first chunk is at hand adds the second one to it, if there is one. -/
theorem Stands.fill (stands : reader.Stands chunks consumed)
    (atHand : reader.buffer = chunks.headD []) :
    ∃ after, reader.fill = (.ok (decide (1 < chunks.length)), after) ∧
      after.Stands (joinFirst chunks) consumed := by
  have coming := stands.toCome_eq atHand
  have solid := stands.solid
  obtain ⟨after, filled, steady, buffer, later, same⟩ := fill_of_steady stands.steady
  rw [atHand, coming] at buffer
  rw [coming] at filled later
  have kept : after.consumed = consumed := same.trans stands.consumed_eq
  match chunks with
  | [] =>
      refine ⟨after, filled, steady, ?_, kept⟩
      simp [ByteReader.chunks, buffer, later, joinFirst]
  | [chunk] =>
      have full := solid chunk List.mem_cons_self
      refine ⟨after, filled, steady, ?_, kept⟩
      simp [ByteReader.chunks, buffer, later, joinFirst, full]
  | first :: second :: rest =>
      have full := solid first List.mem_cons_self
      refine ⟨after, by simpa using filled, steady, ?_, kept⟩
      simp [ByteReader.chunks, buffer, later, joinFirst, full]

theorem Stands.consume (stands : reader.Stands chunks consumed)
    (atHand : reader.buffer = chunks.headD []) {count : Nat}
    (within : count ≤ (chunks.headD []).length) :
    ∃ after, reader.consume count = (.ok (), after) ∧
      after.Stands (dropFront count chunks) (consumed + count) := by
  have coming := stands.toCome_eq atHand
  have inside : ¬ ((count : Int) < 0 ∨ (reader.buffer.length : Int) < count) := by
    rw [atHand]
    omega
  refine ⟨{ reader with buffer := reader.buffer.drop count, consumed := reader.consumed + count },
    by rw [ByteReader.consume, if_neg inside]; rfl, stands.steady, ?_,
    congrArg (· + count) stands.consumed_eq⟩
  have later : ByteReader.toCome
      { reader with buffer := reader.buffer.drop count, consumed := reader.consumed + count } =
        chunks.tail := coming
  rw [ByteReader.chunks, later, atHand]
  cases chunks with
  | nil => simp [dropFront]
  | cons chunk rest => simp [dropFront, List.drop_eq_nil_iff]

end ByteReader

end Unformat
