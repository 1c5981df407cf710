import Unformat.Proofs.Input.Flowing

/-!
# Bytes cut into chunks

However bytes are cut into pieces, a reader that gets them piece by piece flows, and they are what
remains.
-/

namespace Unformat

/-- Pieces of bytes, none of them empty, which together are `bytes`. -/
structure Cuts (bytes : List UInt8) (chunks : List (List UInt8)) : Prop where
  solid : ∀ chunk ∈ chunks, chunk ≠ []
  flatten_eq : chunks.flatten = bytes

/-- The reader that each read brings one chunk. -/
def Reader.ofChunks (chunks : List (List UInt8)) : Reader := .ofDeliveries (chunks.map .data)

/-- Bytes that are delivered so many at a time are cut so. -/
theorem cuts_cut (size : Nat) (bytes : List UInt8) : Cuts bytes (cut size bytes) := by
  induction bytes using cut.induct size with
  | case1 bytes last empty =>
      rw [cut, if_pos last, if_pos empty]
      exact ⟨by simp, by simpa using empty.symm⟩
  | case2 bytes last solid =>
      rw [cut, if_pos last, if_neg solid]
      exact ⟨by simpa using solid, by simp⟩
  | case3 bytes more ih =>
      rw [cut, if_neg more]
      obtain ⟨longer, positive⟩ := not_or.mp more
      refine ⟨?_, by simp [ih.flatten_eq]⟩
      intro chunk member
      rcases List.mem_cons.mp member with rfl | member
      · intro empty
        rw [List.take_eq_nil_iff] at empty
        rcases empty with none | none
        · exact positive none
        · simp [none] at longer
      · exact ih.solid chunk member

namespace Reader

variable {bytes : List UInt8} {chunks : List (List UInt8)}

theorem content_ofChunks (chunks : List (List UInt8)) :
    (chunks.map Delivery.data).flatMap Delivery.content = chunks.flatten := by
  rw [List.flatMap_map]
  exact List.flatMap_id'

theorem flowing_ofChunks (cuts : Cuts bytes chunks) : (ofChunks chunks).Flowing where
  bare := rfl
  feeding := by
    intro delivery member
    obtain ⟨chunk, chunkMember, rfl⟩ := List.mem_map.mp member
    exact ⟨chunk, cuts.solid chunk chunkMember, rfl⟩
  ended := by
    intro ended
    cases ended

theorem remaining_ofChunks (cuts : Cuts bytes chunks) : (ofChunks chunks).remaining = bytes := by
  rw [← cuts.flatten_eq, ← content_ofChunks chunks]
  rfl

theorem bufferAfter_ofChunks (chunks : List (List UInt8)) (count : Nat) :
    (ofChunks chunks).bufferAfter count = (chunks.take count).flatten := by
  rw [← content_ofChunks, List.map_take]
  rfl

end Reader

end Unformat
