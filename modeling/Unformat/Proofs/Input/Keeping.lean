import Unformat.Config
import Unformat.Proofs.Input.Passing

/-!
# A byte reader keeps the bytes that it is given

Whatever a byte reader is asked for, and in any order, what it has consumed and what it has at hand
are the bytes that its reads have brought.  A request that fails changes neither of them, and no
read is made behind one that has brought the end.
-/

namespace Unformat

/-! ## Requests -/

/-- What a byte reader can be asked for. -/
inductive Request where
  | peek
  | fill
  | atEnd
  | consume (count : Int)
  deriving Repr, DecidableEq

namespace Request

/-- The reader behind a request. -/
def after : Request → Reader → Reader
  | .peek, reader => reader.peek.2
  | .fill, reader => reader.fill.2
  | .atEnd, reader => reader.atEnd.2
  | .consume count, reader => (reader.consume count).2

/-- The bytes that a request consumes: those at the front of the bytes at hand, if the request does
not fail. -/
def takes : Request → Reader → List UInt8
  | .peek, _ | .fill, _ | .atEnd, _ => []
  | .consume count, reader =>
      match (reader.consume count).1 with
      | .ok () => reader.base.buffer.take count.toNat
      | .error _ => []

/-- The reader behind some requests. -/
def afterAll : List Request → Reader → Reader
  | [], reader => reader
  | request :: requests, reader => afterAll requests (request.after reader)

/-- The bytes that some requests consume. -/
def takesAll : List Request → Reader → List UInt8
  | [], _ => []
  | request :: requests, reader => request.takes reader ++ takesAll requests (request.after reader)

end Request

/-! ## What is kept -/

/-- The reads of the source have brought `made` so far, of which `given` was consumed.  Behind the
deliveries comes the end, and behind the end no read. -/
structure Keeps (deliveries made : List Delivery) (given : List UInt8) (reader : Reader) :
    Prop where
  bare : reader.lines = []
  made_within : made <+: deliveries ++ [.data []]
  pending_eq : reader.base.pending = deliveries.drop made.length
  bytes_eq : given ++ reader.base.buffer = made.flatMap Delivery.content
  consumed_eq : reader.consumed = given.length
  ended_iff : reader.base.ended = true ↔ .data [] ∈ made
  ended_last : ∀ front behind, made = front ++ .data [] :: behind → behind = []

/-- What asking for another read comes to.  Behind the end none is made; otherwise it brings bytes,
or the end, or fails as the source does. -/
inductive Reads (deliveries made : List Delivery) (given : List UInt8) (reader : Reader) :
    Except ReaderFault Bool × Reader → Prop
  | past (ended : .data [] ∈ made) : Reads deliveries made given reader (.ok false, reader)
  | brings {bytes : List UInt8} {after : Reader} (solid : bytes ≠ [])
      (keeps : Keeps deliveries (made ++ [.data bytes]) given after)
      (buffer_eq : after.base.buffer = reader.base.buffer ++ bytes) :
      Reads deliveries made given reader (.ok true, after)
  | ends {after : Reader} (keeps : Keeps deliveries (made ++ [.data []]) given after)
      (buffer_eq : after.base.buffer = reader.base.buffer) :
      Reads deliveries made given reader (.ok false, after)
  | fails {reason : ReadFailure} {after : Reader}
      (keeps : Keeps deliveries (made ++ [.failure reason]) given after)
      (buffer_eq : after.base.buffer = reader.base.buffer) :
      Reads deliveries made given reader (.error (.read reason), after)

variable {deliveries made : List Delivery} {given : List UInt8} {reader : Reader}

/-! ## One request -/

theorem keeps_start (deliveries : List Delivery) :
    Keeps deliveries [] [] (.ofDeliveries deliveries) where
  bare := rfl
  made_within := List.nil_prefix
  pending_eq := rfl
  bytes_eq := rfl
  consumed_eq := rfl
  ended_iff := by simp [Reader.ofDeliveries]
  ended_last := by simp

namespace Keeps

/-- As long as the end has not come, a read brings the next delivery, or the end behind the
last. -/
theorem made_append (keeps : Keeps deliveries made given reader)
    (unended : Delivery.data [] ∉ made) :
    (∃ delivery rest, reader.base.pending = delivery :: rest ∧
      made ++ [delivery] <+: deliveries ++ [.data []] ∧
        rest = deliveries.drop (made ++ [delivery]).length) ∨
    (reader.base.pending = [] ∧ made ++ [.data []] <+: deliveries ++ [.data []] ∧
      deliveries.drop (made ++ [Delivery.data []]).length = []) := by
  have inside : made <+: deliveries := by
    rcases List.prefix_concat_iff.mp keeps.made_within with whole | inside
    · exact (unended (whole ▸ by simp)).elim
    · exact inside
  obtain ⟨rest, rfl⟩ := inside
  have left := keeps.pending_eq
  rw [List.drop_left] at left
  cases rest with
  | nil =>
      right
      exact ⟨left, by simp, by simp⟩
  | cons delivery rest =>
      left
      refine ⟨delivery, rest, left, ⟨rest ++ [.data []], by simp⟩, ?_⟩
      have split : made ++ delivery :: rest = (made ++ [delivery]) ++ rest := by simp
      rw [split, List.drop_left]

/-- Behind one more read, what it has brought is at hand. -/
theorem read {delivery : Delivery} {after : Reader} (keeps : Keeps deliveries made given reader)
    (unended : Delivery.data [] ∉ made) (bare : after.lines = [])
    (made_within : made ++ [delivery] <+: deliveries ++ [.data []])
    (pending_eq : after.base.pending = deliveries.drop (made ++ [delivery]).length)
    (buffer_eq : after.base.buffer = reader.base.buffer ++ delivery.content)
    (consumed_eq : after.consumed = reader.consumed)
    (ended_iff : after.base.ended = true ↔ delivery = .data []) :
    Keeps deliveries (made ++ [delivery]) given after where
  bare := bare
  made_within := made_within
  pending_eq := pending_eq
  bytes_eq := by
    rw [buffer_eq, ← List.append_assoc, keeps.bytes_eq, List.flatMap_append, List.flatMap_singleton]
  consumed_eq := consumed_eq.trans keeps.consumed_eq
  ended_iff := by
    rw [ended_iff, List.mem_append, List.mem_singleton]
    exact ⟨fun last => .inr last.symm, fun member => (member.resolve_left unended).symm⟩
  ended_last := by
    intro front behind split
    rcases List.append_eq_append_iff.mp split with ⟨more, _, rest⟩ | ⟨more, earlier, rest⟩
    · cases more with
      | nil =>
          rw [List.nil_append] at rest
          exact (List.cons.inj rest).2.symm
      | cons other more => simp at rest
    · cases more with
      | nil =>
          rw [List.nil_append] at rest
          exact (List.cons.inj rest).2
      | cons other more =>
          obtain rfl : .data [] = other := (List.cons.inj rest).1
          exact (unended (earlier ▸ by simp)).elim

theorem fill (keeps : Keeps deliveries made given reader) :
    Reads deliveries made given reader reader.fill := by
  obtain ⟨⟨pending, buffer, ended, consumed⟩, lines⟩ := reader
  obtain rfl : lines = [] := keeps.bare
  by_cases last : .data [] ∈ made
  · obtain rfl : ended = true := keeps.ended_iff.mpr last
    exact .past last
  have unended : ended = false := by
    have not := mt keeps.ended_iff.mp last
    simpa using not
  subst unended
  rcases keeps.made_append last with ⟨delivery, rest, standing, inside, left⟩ |
    ⟨standing, inside, left⟩
  · obtain rfl : pending = delivery :: rest := standing
    match delivery with
    | .failure reason =>
        exact .fails
          (keeps.read last rfl inside left (by simp [Delivery.content]) rfl (by simp)) rfl
    | .data [] =>
        exact .ends
          (keeps.read last rfl inside left (by simp [Delivery.content]) rfl (by simp)) rfl
    | .data (byte :: bytes) =>
        exact .brings (List.cons_ne_nil byte bytes)
          (keeps.read last rfl inside left rfl rfl (by simp)) rfl
  · obtain rfl : pending = [] := standing
    exact .ends
      (keeps.read last rfl inside left.symm (by simp [Delivery.content]) rfl (by simp)) rfl

/-- Consuming takes bytes off the front of those at hand. -/
theorem consume (keeps : Keeps deliveries made given reader) {count : Int}
    (within : ¬ (count < 0 ∨ (reader.base.buffer.length : Int) < count)) :
    ∃ after, reader.consume count = (.ok (), after) ∧
      Keeps deliveries made (given ++ reader.base.buffer.take count.toNat) after := by
  obtain ⟨base, lines⟩ := reader
  obtain rfl : lines = [] := keeps.bare
  refine ⟨_, Reader.consume_of_bare_of_within within, rfl, keeps.made_within, keeps.pending_eq, ?_,
    ?_, keeps.ended_iff, keeps.ended_last⟩
  · rw [List.append_assoc, List.take_append_drop]
    exact keeps.bytes_eq
  · have bound : count.toNat ≤ base.buffer.length := by
      simp only at within
      omega
    rw [List.length_append, List.length_take_of_le bound]
    exact congrArg (· + count.toNat) keeps.consumed_eq

end Keeps

/-- Behind a read, the reader keeps what has been brought. -/
theorem Reads.exists_keeps {result : Except ReaderFault Bool × Reader}
    (reads : Reads deliveries made given reader result)
    (keeps : Keeps deliveries made given reader) :
    ∃ more, Keeps deliveries more given result.2 := by
  cases reads with
  | past => exact ⟨_, keeps⟩
  | brings _ keeps | ends keeps | fails keeps => exact ⟨_, keeps⟩

theorem Reads.grows_iff {result : Except ReaderFault Bool × Reader}
    (reads : Reads deliveries made given reader result) :
    result.1 = .ok true ↔ reader.base.buffer.length < result.2.base.buffer.length := by
  cases reads with
  | past => simp
  | brings solid _ buffer_eq =>
      have longer := List.length_pos_iff.mpr solid
      rw [buffer_eq, List.length_append]
      simpa using longer
  | ends _ buffer_eq | fails _ buffer_eq => simp [buffer_eq]

namespace Keeps

theorem exists_keeps_peek (keeps : Keeps deliveries made given reader) :
    ∃ more, Keeps deliveries more given reader.peek.2 := by
  obtain ⟨base, lines⟩ := reader
  obtain rfl : lines = [] := keeps.bare
  by_cases empty : base.buffer = []
  · rw [Reader.peek_eq_fill empty]
    exact keeps.fill.exists_keeps keeps
  · rw [Reader.peek_of_buffer empty]
    exact ⟨made, keeps⟩

theorem atEnd_eq (keeps : Keeps deliveries made given reader) :
    reader.atEnd = (reader.peek.1.map List.isEmpty, reader.peek.2) := by
  obtain ⟨base, lines⟩ := reader
  obtain rfl : lines = [] := keeps.bare
  rfl

/-- A request consumes what it takes, and nothing is lost or brought twice. -/
theorem request (keeps : Keeps deliveries made given reader) (request : Request) :
    ∃ more, Keeps deliveries more (given ++ request.takes reader) (request.after reader) := by
  cases request with
  | peek =>
      rw [Request.takes, List.append_nil]
      exact keeps.exists_keeps_peek
  | atEnd =>
      rw [Request.takes, List.append_nil, Request.after, keeps.atEnd_eq]
      exact keeps.exists_keeps_peek
  | fill =>
      rw [Request.takes, List.append_nil]
      exact keeps.fill.exists_keeps keeps
  | consume count =>
      refine ⟨made, ?_⟩
      by_cases within : count < 0 ∨ (reader.base.buffer.length : Int) < count
      · obtain ⟨base, lines⟩ := reader
        obtain rfl : lines = [] := keeps.bare
        have refused := Reader.consume_of_bare_of_outside within
        simpa only [Request.takes, Request.after, refused, List.append_nil] using keeps
      · obtain ⟨after, consumed, still⟩ := keeps.consume within
        simpa only [Request.takes, Request.after, consumed] using still

theorem requests (keeps : Keeps deliveries made given reader) (requests : List Request) :
    ∃ more, Keeps deliveries more (given ++ Request.takesAll requests reader)
      (Request.afterAll requests reader) := by
  induction requests generalizing made given reader with
  | nil => exact ⟨made, by rwa [Request.takesAll, List.append_nil]⟩
  | cons request requests ih =>
      obtain ⟨more, later⟩ := keeps.request request
      rw [Request.takesAll, Request.afterAll, ← List.append_assoc]
      exact ih later

end Keeps

/-! ## Sources -/

/-- What a source has to bring, one read or piece after the other. -/
def Source.chunks (size : Nat) : Source → List Delivery
  | .pieces items => items
  | source => (source.deliveries size).toOption.getD []

/-- Pieces that are passed over bring nothing. -/
theorem exists_pieces_of_take (items : List Delivery) (count : Nat) :
    ∃ read, read <+: items ∧ read.flatMap Delivery.content =
      ((Source.deliverPieces items).take count).flatMap Delivery.content := by
  induction items generalizing count with
  | nil => exact ⟨[], List.prefix_rfl, by simp [Source.deliverPieces]⟩
  | cons item items ih =>
      cases count with
      | zero => exact ⟨[], List.nil_prefix, by simp⟩
      | succ count =>
          match item with
          | .failure reason =>
              obtain ⟨read, inside, same⟩ := ih count
              refine ⟨.failure reason :: read, List.cons_prefix_cons.mpr ⟨rfl, inside⟩, ?_⟩
              rw [Source.deliverPieces, List.take_succ_cons, List.flatMap_cons, List.flatMap_cons,
                same]
          | .data [] =>
              obtain ⟨read, inside, same⟩ := ih (count + 1)
              exact ⟨.data [] :: read, List.cons_prefix_cons.mpr ⟨rfl, inside⟩, same⟩
          | .data (byte :: bytes) =>
              obtain ⟨read, inside, same⟩ := ih count
              refine ⟨.data (byte :: bytes) :: read, List.cons_prefix_cons.mpr ⟨rfl, inside⟩, ?_⟩
              rw [Source.deliverPieces, List.take_succ_cons, List.flatMap_cons, List.flatMap_cons,
                same]
              exact List.cons_ne_nil _ _

theorem Source.exists_chunks_of_take {source : Source} {size : Nat}
    (delivered : source.deliveries size = .ok deliveries) (count : Nat) :
    ∃ read, read <+: source.chunks size ∧
      read.flatMap Delivery.content = (deliveries.take count).flatMap Delivery.content := by
  have plain (same : source.chunks size = (source.deliveries size).toOption.getD []) :
      ∃ read, read <+: source.chunks size ∧
        read.flatMap Delivery.content = (deliveries.take count).flatMap Delivery.content := by
    rw [same, delivered]
    exact ⟨deliveries.take count, List.take_prefix _ _, rfl⟩
  cases source with
  | pieces items =>
      cases delivered
      exact exists_pieces_of_take items count
  | text _ | bytes _ | textFile _ | reads _ | unreadable _ => exact plain rfl

/-- The reads made so far have brought what that many deliveries bring. -/
theorem Keeps.bytes_eq_take (keeps : Keeps deliveries made given reader) :
    given ++ reader.base.buffer = (deliveries.take made.length).flatMap Delivery.content := by
  rw [keeps.bytes_eq]
  rcases List.prefix_concat_iff.mp keeps.made_within with whole | inside
  · rw [whole, List.take_of_length_le (by simp), List.flatMap_append]
    simp [Delivery.content]
  · rw [← List.prefix_iff_eq_take.mp inside]

/-- A byte reader keeps what its reads have brought, and so it does behind any request: asking for
another read brings bytes exactly if there are more at hand than before, looking reads only when
there are none, and consuming is refused exactly if it is for a negative number of bytes or more
than there are, and then nothing has happened. -/
structure KeepsBytes (deliveries made : List Delivery) (given : List UInt8) (reader : Reader) :
    Prop extends Keeps deliveries made given reader where
  reads : Reads deliveries made given reader reader.fill
  grows_iff : reader.fill.1 = .ok true ↔
    reader.base.buffer.length < reader.fill.2.base.buffer.length
  peek_eq : reader.peek =
    if reader.base.buffer = [] then
      (reader.fill.1.map fun _ => reader.fill.2.base.buffer, reader.fill.2)
    else (.ok reader.base.buffer, reader)
  atEnd_eq : reader.atEnd = (reader.peek.1.map List.isEmpty, reader.peek.2)
  refuses : ∀ count : Int, count < 0 ∨ (reader.base.buffer.length : Int) < count →
    reader.consume count = (.error (.overrun count reader.base.buffer.length), reader)
  consumes : ∀ count : Int, ¬ (count < 0 ∨ (reader.base.buffer.length : Int) < count) →
    ∃ after, reader.consume count = (.ok (), after) ∧
      Keeps deliveries made (given ++ reader.base.buffer.take count.toNat) after

theorem Keeps.keepsBytes (keeps : Keeps deliveries made given reader) :
    KeepsBytes deliveries made given reader where
  toKeeps := keeps
  reads := keeps.fill
  grows_iff := keeps.fill.grows_iff
  peek_eq := by
    obtain ⟨base, lines⟩ := reader
    obtain rfl : lines = [] := keeps.bare
    by_cases empty : base.buffer = []
    · rw [if_pos empty, Reader.peek_eq_fill empty]
    · rw [if_neg empty, Reader.peek_of_buffer empty]
  atEnd_eq := keeps.atEnd_eq
  refuses := by
    intro count outside
    obtain ⟨base, lines⟩ := reader
    obtain rfl : lines = [] := keeps.bare
    exact Reader.consume_of_bare_of_outside outside
  consumes := by
    intro count within
    exact keeps.consume within

/-- Whatever a reader of a source is asked for, in any order, failing requests included: the bytes
that it has consumed and those at hand are what the source has brought so far, a request that fails
leaves both as they are, and behind the end no read is made. -/
theorem Source.bytes_kept {size : Int} {source : Source} {reader : Reader}
    (opens : Reader.ofSource size source = .ok reader) (requests : List Request) :
    ∃ deliveries made read, source.deliveries size.toNat = .ok deliveries ∧
      KeepsBytes deliveries made (Request.takesAll requests reader)
        (Request.afterAll requests reader) ∧
      read <+: source.chunks size.toNat ∧
        Request.takesAll requests reader ++ (Request.afterAll requests reader).base.buffer =
          read.flatMap Delivery.content := by
  rw [Reader.ofSource] at opens
  split at opens
  · cases opens
  split at opens
  · next deliveries delivered =>
      cases opens
      obtain ⟨made, keeps⟩ := (keeps_start deliveries).requests requests
      rw [List.nil_append] at keeps
      obtain ⟨read, inside, same⟩ := Source.exists_chunks_of_take delivered made.length
      exact ⟨deliveries, made, read, delivered, keeps.keepsBytes, inside,
        keeps.bytes_eq_take.trans same.symm⟩
  · cases opens

/-- A file that fails once in the middle and reports its end too early: too many bytes are asked
for, and the reader is read behind the end. -/
theorem Source.bytes_kept_of_early_end :
    let source : Source := .reads [.data [0x61, 0x62], .failure (.failed "gone"), .data [0x63],
      .data [], .data [0x64]]
    let requests : List Request :=
      [.peek, .consume 3, .consume 1, .fill, .fill, .consume (-1), .fill, .fill, .atEnd, .consume 2]
    ∃ reader, Reader.ofSource 8 source = .ok reader ∧
      Request.takesAll requests reader = [0x61, 0x62, 0x63] ∧
        (Request.afterAll requests reader).base.pending = [.data [0x64]] ∧
      ∃ deliveries made read, source.deliveries (8 : Int).toNat = .ok deliveries ∧
        KeepsBytes deliveries made (Request.takesAll requests reader)
          (Request.afterAll requests reader) ∧
        read <+: source.chunks (8 : Int).toNat ∧
          Request.takesAll requests reader ++ (Request.afterAll requests reader).base.buffer =
            read.flatMap Delivery.content := by
  intro source requests
  have opens : Reader.ofSource 8 source = .ok (.ofDeliveries [.data [0x61, 0x62],
      .failure (.failed "gone"), .data [0x63], .data [], .data [0x64]]) := rfl
  exact ⟨_, opens, by decide, by decide, Source.bytes_kept opens requests⟩

/-- A sequence that fails between two pieces goes on behind the failure, as a file does. -/
example : let source : Source := .pieces [.data [0x61], .data [], .failure (.failed "gone"),
      .data [0x62]]
    ∃ reader, Reader.ofSource 8 source = .ok reader ∧
      (Request.afterAll [.fill, .fill, .fill] reader).base.buffer = [0x61, 0x62] :=
  ⟨_, rfl, rfl⟩

end Unformat
