import Unformat.Proofs.Input.Lines
import Unformat.Proofs.Input.Steady

/-!
# The chunks of a line

When bytes come in chunks, so does their first line, whose last chunk ends with the line feed.  The
end of a line, which is a line feed or a carriage return and a line feed, goes with the bytes before
it.
-/

namespace Unformat

/-! ## The chunks of a line -/

/-- The chunks of the first line. -/
def lineChunks : List (List UInt8) → List (List UInt8)
  | [] => []
  | chunk :: rest => if lineFeed ∈ chunk then [firstLine chunk] else chunk :: lineChunks rest

/-- The chunks behind the first line. -/
def behindChunks : List (List UInt8) → List (List UInt8)
  | [] => []
  | chunk :: rest =>
      if lineFeed ∈ chunk then
        if behindLine chunk = [] then rest else behindLine chunk :: rest
      else behindChunks rest

theorem flatten_lineChunks (chunks : List (List UInt8)) :
    (lineChunks chunks).flatten = firstLine chunks.flatten := by
  induction chunks with
  | nil => rfl
  | cons chunk rest ih =>
      rw [lineChunks, List.flatten_cons]
      split
      · rename_i member
        rw [firstLine_append_of_mem member, List.flatten_singleton]
      · rename_i absent
        rw [firstLine_append_of_not_mem absent, List.flatten_cons, ih]

theorem headD_lineChunks (chunks : List (List UInt8)) :
    (lineChunks chunks).headD [] = firstLine (chunks.headD []) := by
  cases chunks with
  | nil => rfl
  | cons chunk rest =>
      rw [lineChunks]
      split
      · rfl
      · rename_i absent
        exact (firstLine_of_not_mem absent).symm

theorem solid_lineChunks {chunks : List (List UInt8)} (solid : ∀ chunk ∈ chunks, chunk ≠ []) :
    ∀ chunk ∈ lineChunks chunks, chunk ≠ [] := by
  induction chunks with
  | nil => simp [lineChunks]
  | cons chunk rest ih =>
      have here := solid chunk List.mem_cons_self
      rw [lineChunks]
      split
      · simpa [firstLine_eq_nil_iff] using here
      · intro other member
        rcases List.mem_cons.mp member with rfl | member
        · exact here
        · exact ih (fun chunk member => solid chunk (List.mem_cons_of_mem _ member)) other member

theorem length_lineChunks_le (chunks : List (List UInt8)) :
    (lineChunks chunks).length ≤ chunks.length := by
  induction chunks with
  | nil => exact Nat.le_refl _
  | cons chunk rest ih =>
      rw [lineChunks]
      split
      · simp
      · simpa using ih

/-- The chunks of one line are those of their first line. -/
theorem lineChunks_lineChunks (chunks : List (List UInt8)) :
    lineChunks (lineChunks chunks) = lineChunks chunks := by
  induction chunks with
  | nil => rfl
  | cons chunk rest ih =>
      by_cases member : lineFeed ∈ chunk
      · obtain ⟨front, behind, absent, rfl⟩ := exists_front_of_mem member
        simp [lineChunks, firstLine_append absent]
      · simp [lineChunks, member, ih]

theorem lineChunks_joinFirst {chunks : List (List UInt8)} (absent : lineFeed ∉ chunks.headD []) :
    lineChunks (joinFirst chunks) = joinFirst (lineChunks chunks) := by
  match chunks with
  | [] => rfl
  | [chunk] =>
      rw [List.headD_cons] at absent
      simp [joinFirst, lineChunks, absent]
  | first :: second :: rest =>
      rw [List.headD_cons] at absent
      by_cases member : lineFeed ∈ second
      · simp [joinFirst, lineChunks, absent, member, firstLine_append_of_not_mem absent]
      · simp [joinFirst, lineChunks, absent, member]

theorem one_lt_length_lineChunks {chunks : List (List UInt8)}
    (absent : lineFeed ∉ chunks.headD []) :
    1 < (lineChunks chunks).length ↔ 1 < chunks.length := by
  match chunks with
  | [] => rfl
  | [chunk] =>
      rw [List.headD_cons] at absent
      simp [lineChunks, absent]
  | first :: second :: rest =>
      rw [List.headD_cons] at absent
      by_cases member : lineFeed ∈ second <;> simp [lineChunks, absent, member]

theorem lineChunks_of_mem {chunks : List (List UInt8)} (member : lineFeed ∈ chunks.headD []) :
    lineChunks chunks = [firstLine (chunks.headD [])] := by
  cases chunks with
  | nil => simp at member
  | cons chunk rest =>
      rw [List.headD_cons] at member ⊢
      rw [lineChunks, if_pos member]

theorem lineChunks_dropFront {chunks : List (List UInt8)} {count : Nat}
    (before : lineFeed ∉ (chunks.headD []).take count) :
    lineChunks (dropFront count chunks) = dropFront count (lineChunks chunks) := by
  cases chunks with
  | nil => rfl
  | cons chunk rest =>
      rw [List.headD_cons] at before
      by_cases member : lineFeed ∈ chunk
      · obtain ⟨front, behind, absent, rfl⟩ := exists_front_of_mem member
        have short : count ≤ front.length := by
          by_contra long
          exact before (List.mem_take_iff_getElem.mpr ⟨front.length, by simp; omega, by simp⟩)
        have later : lineFeed ∉ front.drop count :=
          fun inside => absent (List.mem_of_mem_drop inside)
        have inside : ¬ front.length + 1 ≤ count := by omega
        have within : ¬ front.length + (behind.length + 1) ≤ count := by omega
        simp [lineChunks, dropFront, firstLine_append absent, firstLine_append later, inside,
          within, List.drop_append_of_le_length short]
      · have later : lineFeed ∉ chunk.drop count :=
          fun inside => member (List.mem_of_mem_drop inside)
        rw [dropFront, lineChunks, if_neg member, dropFront]
        split
        · rfl
        · rw [lineChunks, if_neg later]

theorem mem_take_iff {front : List UInt8} (absent : lineFeed ∉ front) (count : Nat) :
    lineFeed ∈ (front ++ [lineFeed]).take count ↔ front.length < count := by
  have early : lineFeed ∉ front.take count := fun inside => absent (List.mem_of_mem_take inside)
  rw [List.take_append, List.mem_append]
  constructor
  · rintro (inside | inside)
    · exact (early inside).elim
    · by_contra short
      simp [Nat.sub_eq_zero_of_le (Nat.not_lt.mp short)] at inside
  · intro long
    obtain ⟨more, rfl⟩ := Nat.exists_eq_add_of_lt long
    right
    have positive : front.length + more + 1 - front.length = more + 1 := by omega
    simp [positive]

/-- Nothing is left of a line behind its line feed. -/
theorem length_firstLine_le_of_mem {bytes : List UInt8} {count : Nat}
    (member : lineFeed ∈ (firstLine bytes).take count) : (firstLine bytes).length ≤ count := by
  have inside := mem_firstLine_iff.mp (List.mem_of_mem_take member)
  obtain ⟨front, rest, absent, rfl⟩ := exists_front_of_mem inside
  rw [firstLine_append absent] at member ⊢
  rw [mem_take_iff absent] at member
  rwa [List.length_append, List.length_singleton]

/-! ## The chunks behind a line -/

theorem flatten_behindChunks (chunks : List (List UInt8)) :
    (behindChunks chunks).flatten = behindLine chunks.flatten := by
  induction chunks with
  | nil => rfl
  | cons chunk rest ih =>
      rw [behindChunks, List.flatten_cons]
      by_cases member : lineFeed ∈ chunk
      · rw [if_pos member, behindLine_append_of_mem member]
        split
        · rename_i empty
          rw [empty, List.nil_append]
        · rw [List.flatten_cons]
      · rw [if_neg member, behindLine_append_of_not_mem member, ih]

theorem length_behindChunks_le (chunks : List (List UInt8)) :
    (behindChunks chunks).length ≤ chunks.length := by
  induction chunks with
  | nil => exact Nat.le_refl _
  | cons chunk rest ih =>
      rw [behindChunks, List.length_cons]
      split
      · split <;> simp
      · omega

theorem behindChunks_joinFirst {chunks : List (List UInt8)}
    (absent : lineFeed ∉ chunks.headD []) :
    behindChunks (joinFirst chunks) = behindChunks chunks := by
  match chunks with
  | [] => rfl
  | [_] => rfl
  | first :: second :: rest =>
      rw [List.headD_cons] at absent
      by_cases member : lineFeed ∈ second <;>
        simp [joinFirst, behindChunks, absent, member, behindLine_append_of_not_mem absent]

theorem behindChunks_dropFront {chunks : List (List UInt8)} {count : Nat}
    (before : lineFeed ∉ (chunks.headD []).take count) :
    behindChunks (dropFront count chunks) = behindChunks chunks := by
  cases chunks with
  | nil => rfl
  | cons chunk rest =>
      rw [List.headD_cons] at before
      have split := List.take_append_drop count chunk
      have behind := behindLine_append_of_not_mem before (chunk.drop count)
      have member : lineFeed ∈ chunk ↔ lineFeed ∈ chunk.drop count := by
        rw [← split, List.mem_append]
        simp [before]
      rw [split] at behind
      rw [dropFront]
      split
      · rename_i short
        rw [List.drop_of_length_le short] at member
        rw [behindChunks, if_neg (by simpa using member)]
      · rw [behindChunks, behindChunks, behind]
        simp only [member]

theorem behindChunks_lineChunks (chunks : List (List UInt8)) :
    behindChunks (lineChunks chunks) = [] := by
  induction chunks with
  | nil => rfl
  | cons chunk rest ih =>
      by_cases member : lineFeed ∈ chunk
      · obtain ⟨front, behind, absent, rfl⟩ := exists_front_of_mem member
        simp [lineChunks, behindChunks, firstLine_append absent, behindLine_append absent]
      · simp [lineChunks, behindChunks, member, ih]

/-- What is left of the chunks when the first one has the line feed of the line. -/
theorem dropFront_of_mem {chunks : List (List UInt8)} (member : lineFeed ∈ chunks.headD []) :
    dropFront (firstLine (chunks.headD [])).length chunks = behindChunks chunks := by
  cases chunks with
  | nil => rfl
  | cons chunk rest =>
      rw [List.headD_cons] at member ⊢
      rw [behindChunks, if_pos member, dropFront, behindLine]
      simp only [List.drop_eq_nil_iff]

/-! ## Taking bytes off a line -/

/-- The line feed is taken together with all that is left of the line, or not at all. -/
theorem eq_or_not_mem_of_le {bytes : List UInt8} {count : Nat}
    (bound : count ≤ (firstLine bytes).length) :
    (lineFeed ∈ (firstLine bytes).take count ∧ lineFeed ∈ bytes ∧
      count = (firstLine bytes).length) ∨
    (lineFeed ∉ (firstLine bytes).take count ∧ lineFeed ∉ bytes.take count) := by
  by_cases fed : lineFeed ∈ (firstLine bytes).take count
  · exact .inl ⟨fed, mem_firstLine_iff.mp (List.mem_of_mem_take fed),
      Nat.le_antisymm bound (length_firstLine_le_of_mem fed)⟩
  · have same : bytes.take count = (firstLine bytes).take count := by
      obtain ⟨behind, whole⟩ := firstLine_opens bytes
      rw [← List.take_append_of_le_length bound, whole]
    exact .inr ⟨fed, same ▸ fed⟩

theorem dropFront_lineChunks {chunks : List (List UInt8)} {count : Nat}
    (bound : count ≤ (firstLine (chunks.headD [])).length) :
    dropFront count (lineChunks chunks) =
      if lineFeed ∈ (firstLine (chunks.headD [])).take count then []
      else lineChunks (dropFront count chunks) := by
  rcases eq_or_not_mem_of_le bound with ⟨fed, inside, rfl⟩ | ⟨unfed, before⟩
  · rw [if_pos fed, lineChunks_of_mem inside, dropFront, if_pos (Nat.le_refl _)]
  · rw [if_neg unfed, lineChunks_dropFront before]

theorem behindChunks_eq {chunks : List (List UInt8)} {count : Nat}
    (bound : count ≤ (firstLine (chunks.headD [])).length) :
    behindChunks chunks =
      if lineFeed ∈ (firstLine (chunks.headD [])).take count then dropFront count chunks
      else behindChunks (dropFront count chunks) := by
  rcases eq_or_not_mem_of_le bound with ⟨fed, inside, rfl⟩ | ⟨unfed, before⟩
  · rw [if_pos fed, dropFront_of_mem inside]
  · rw [if_neg unfed, behindChunks_dropFront before]

/-! ## The end of a line -/

/-- The bytes that are left of a line when they are its end, and none otherwise. -/
def lineEnd (left : List UInt8) : List UInt8 :=
  if left = [lineFeed] ∨ left = [carriageReturn, lineFeed] then left else []

/-- How many bytes are consumed when a line reader shows some and `count` of them are asked for. -/
def taking (shown : List UInt8) (count : Nat) : Nat := count + (lineEnd (shown.drop count)).length

theorem lineEnd_opens (left : List UInt8) : lineEnd left <+: left := by
  rw [lineEnd]
  split
  · exact List.prefix_rfl
  · exact List.nil_prefix

theorem taking_le {shown : List UInt8} {count : Nat} (within : count ≤ shown.length) :
    taking shown count ≤ shown.length := by
  have bound := (lineEnd_opens (shown.drop count)).length_le
  rw [List.length_drop] at bound
  rw [taking]
  omega

theorem take_taking (shown : List UInt8) (count : Nat) :
    shown.take (taking shown count) = shown.take count ++ lineEnd (shown.drop count) := by
  rw [taking, List.take_add, List.prefix_iff_eq_take.mp (lineEnd_opens _)]
  simp

theorem mem_lineEnd_iff {left : List UInt8} : lineFeed ∈ lineEnd left ↔ lineEnd left ≠ [] := by
  rw [lineEnd]
  split
  · rename_i last
    rcases last with rfl | rfl <;> simp
  · simp

theorem taking_of_not_mem {shown : List UInt8} (absent : lineFeed ∉ shown) (count : Nat) :
    taking shown count = count := by
  have none : lineEnd (shown.drop count) = [] := by
    by_contra some
    exact absent (List.mem_of_mem_drop ((lineEnd_opens _).mem (mem_lineEnd_iff.mpr some)))
  rw [taking, none, List.length_nil, Nat.add_zero]

/-- What a line reader adds to the bytes asked for is the end of the line. -/
theorem withLineEnd_eq_taking {front : List UInt8} (rest : List UInt8) {count : Nat}
    (within : count ≤ front.length + 1) :
    withLineEnd (front ++ lineFeed :: rest) front.length count =
      taking (front ++ [lineFeed]) count := by
  rcases Nat.lt_trichotomy count front.length with before | rfl | past
  · obtain ⟨passed, byte, later, rfl, rfl⟩ : ∃ passed byte later,
        front = passed ++ byte :: later ∧ count = passed.length :=
      ⟨front.take count, front[count], front.drop (count + 1), by simp, by simp; omega⟩
    cases later with
    | nil =>
        have elsewhere : ¬ (passed.length : Int) = passed.length + 1 := by omega
        by_cases paired : byte = carriageReturn <;>
          simp [withLineEnd, taking, lineEnd, paired, elsewhere]
    | cons other later =>
        have elsewhere : ¬ (passed.length : Int) = passed.length + (later.length + 1 + 1) := by
          omega
        have apart : ¬ (1 : Int) = later.length + 1 + 1 := by omega
        simp [withLineEnd, taking, lineEnd, elsewhere, apart]
  · simp [withLineEnd, taking, lineEnd]
  · obtain rfl : count = front.length + 1 := by omega
    have elsewhere : ¬ (front.length : Int) + 1 = front.length := by omega
    have behind : ¬ (front.length : Int) + 1 + 1 = front.length := by omega
    simp [withLineEnd, taking, lineEnd, elsewhere, behind]

end Unformat
