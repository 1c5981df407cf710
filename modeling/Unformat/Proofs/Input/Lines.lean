import Mathlib.Data.List.Basic
import Unformat.Input.Reader

/-!
# The lines of bytes

Bytes are cut into lines behind each line feed; what stands behind the last one is a line too,
unless there is nothing.
-/

namespace Unformat

/-- The lines of bytes, each with its line feed. -/
def linesOf : List UInt8 → List (List UInt8)
  | [] => []
  | byte :: rest =>
      if byte = lineFeed then [byte] :: linesOf rest
      else match linesOf rest with
        | [] => [[byte]]
        | line :: lines => (byte :: line) :: lines

/-- The bytes behind the first line. -/
def behindLine (bytes : List UInt8) : List UInt8 := bytes.drop (firstLine bytes).length

/-! ## The first line -/

theorem lineLength?_of_not_mem {bytes : List UInt8} (absent : lineFeed ∉ bytes) :
    lineLength? bytes = none :=
  List.idxOf?_eq_none_iff.mpr absent

theorem lineLength?_append {front : List UInt8} (absent : lineFeed ∉ front) (rest : List UInt8) :
    lineLength? (front ++ lineFeed :: rest) = some front.length := by
  induction front with
  | nil => simp [lineLength?, List.idxOf?_cons]
  | cons byte front ih =>
      have other : byte ≠ lineFeed := fun same => absent (by simp [same])
      have later := ih fun member => absent (List.mem_cons_of_mem _ member)
      rw [lineLength?] at later ⊢
      simp [List.idxOf?_cons, other, later]

theorem firstLine_of_not_mem {bytes : List UInt8} (absent : lineFeed ∉ bytes) :
    firstLine bytes = bytes := by
  rw [firstLine, lineLength?_of_not_mem absent]

theorem firstLine_append {front : List UInt8} (absent : lineFeed ∉ front) (rest : List UInt8) :
    firstLine (front ++ lineFeed :: rest) = front ++ [lineFeed] := by
  rw [firstLine, lineLength?_append absent]
  simp [List.take_append, List.take_of_length_le]

theorem exists_front_of_mem {bytes : List UInt8} (member : lineFeed ∈ bytes) :
    ∃ front rest, lineFeed ∉ front ∧ bytes = front ++ lineFeed :: rest := by
  obtain ⟨front, rest, split, absent⟩ := List.eq_append_cons_of_mem member
  exact ⟨front, rest, absent, split⟩

theorem firstLine_append_of_mem {bytes : List UInt8} (member : lineFeed ∈ bytes)
    (more : List UInt8) : firstLine (bytes ++ more) = firstLine bytes := by
  obtain ⟨front, rest, absent, rfl⟩ := exists_front_of_mem member
  rw [List.append_assoc, List.cons_append, firstLine_append absent, firstLine_append absent]

theorem firstLine_append_of_not_mem {bytes : List UInt8} (absent : lineFeed ∉ bytes)
    (more : List UInt8) : firstLine (bytes ++ more) = bytes ++ firstLine more := by
  by_cases member : lineFeed ∈ more
  · obtain ⟨front, rest, moreAbsent, rfl⟩ := exists_front_of_mem member
    have both : lineFeed ∉ bytes ++ front := by simp [absent, moreAbsent]
    rw [← List.append_assoc, firstLine_append both, firstLine_append moreAbsent,
      List.append_assoc]
  · have both : lineFeed ∉ bytes ++ more := by simp [absent, member]
    rw [firstLine_of_not_mem both, firstLine_of_not_mem member]

theorem behindLine_of_not_mem {bytes : List UInt8} (absent : lineFeed ∉ bytes) :
    behindLine bytes = [] := by
  rw [behindLine, firstLine_of_not_mem absent, List.drop_length]

theorem behindLine_append {front : List UInt8} (absent : lineFeed ∉ front) (rest : List UInt8) :
    behindLine (front ++ lineFeed :: rest) = rest := by
  have split : front ++ lineFeed :: rest = (front ++ [lineFeed]) ++ rest := by simp
  rw [behindLine, firstLine_append absent, split, List.drop_left]

theorem behindLine_append_of_mem {bytes : List UInt8} (member : lineFeed ∈ bytes)
    (more : List UInt8) : behindLine (bytes ++ more) = behindLine bytes ++ more := by
  obtain ⟨front, rest, absent, rfl⟩ := exists_front_of_mem member
  rw [List.append_assoc, List.cons_append, behindLine_append absent, behindLine_append absent]

theorem behindLine_append_of_not_mem {bytes : List UInt8} (absent : lineFeed ∉ bytes)
    (more : List UInt8) : behindLine (bytes ++ more) = behindLine more := by
  rw [behindLine, firstLine_append_of_not_mem absent, List.length_append, ← List.drop_drop,
    List.drop_left, behindLine]

theorem firstLine_append_behindLine (bytes : List UInt8) :
    firstLine bytes ++ behindLine bytes = bytes := by
  by_cases member : lineFeed ∈ bytes
  · obtain ⟨front, rest, absent, rfl⟩ := exists_front_of_mem member
    rw [firstLine_append absent, behindLine_append absent, List.append_assoc]
    rfl
  · rw [firstLine_of_not_mem member, behindLine_of_not_mem member, List.append_nil]

theorem firstLine_opens (bytes : List UInt8) : firstLine bytes <+: bytes :=
  ⟨behindLine bytes, firstLine_append_behindLine bytes⟩

theorem firstLine_eq_nil_iff {bytes : List UInt8} : firstLine bytes = [] ↔ bytes = [] := by
  by_cases member : lineFeed ∈ bytes
  · obtain ⟨front, rest, absent, rfl⟩ := exists_front_of_mem member
    simp [firstLine_append absent]
  · rw [firstLine_of_not_mem member]

theorem mem_firstLine_iff {bytes : List UInt8} : lineFeed ∈ firstLine bytes ↔ lineFeed ∈ bytes := by
  by_cases member : lineFeed ∈ bytes
  · obtain ⟨front, rest, absent, rfl⟩ := exists_front_of_mem member
    simp [firstLine_append absent]
  · rw [firstLine_of_not_mem member]

theorem length_behindLine_lt {bytes : List UInt8} (solid : bytes ≠ []) :
    (behindLine bytes).length < bytes.length := by
  have split := congrArg List.length (firstLine_append_behindLine bytes)
  have positive := List.length_pos_iff.mpr (mt firstLine_eq_nil_iff.mp solid)
  rw [List.length_append] at split
  omega

/-! ## All lines -/

@[simp] theorem linesOf_nil : linesOf [] = [] := rfl

theorem linesOf_of_not_mem {bytes : List UInt8} (absent : lineFeed ∉ bytes) (solid : bytes ≠ []) :
    linesOf bytes = [bytes] := by
  induction bytes with
  | nil => exact (solid rfl).elim
  | cons byte rest ih =>
      have other : byte ≠ lineFeed := fun same => absent (by simp [same])
      rw [linesOf, if_neg other]
      by_cases empty : rest = []
      · rw [empty]
        rfl
      · rw [ih (fun member => absent (List.mem_cons_of_mem _ member)) empty]

theorem linesOf_append {front : List UInt8} (absent : lineFeed ∉ front) (rest : List UInt8) :
    linesOf (front ++ lineFeed :: rest) = (front ++ [lineFeed]) :: linesOf rest := by
  induction front with
  | nil => rw [List.nil_append, linesOf, if_pos rfl, List.nil_append]
  | cons byte front ih =>
      have other : byte ≠ lineFeed := fun same => absent (by simp [same])
      rw [List.cons_append, linesOf, if_neg other,
        ih fun member => absent (List.mem_cons_of_mem _ member)]
      rfl

/-- The lines are the first one and those of what stands behind it. -/
theorem linesOf_eq_cons {bytes : List UInt8} (solid : bytes ≠ []) :
    linesOf bytes = firstLine bytes :: linesOf (behindLine bytes) := by
  by_cases member : lineFeed ∈ bytes
  · obtain ⟨front, rest, absent, rfl⟩ := exists_front_of_mem member
    rw [linesOf_append absent, firstLine_append absent, behindLine_append absent]
  · rw [linesOf_of_not_mem member solid, firstLine_of_not_mem member, behindLine_of_not_mem member]
    rfl

/-- What holds of no bytes, and of bytes when it holds behind their first line, holds of all. -/
theorem byLines {motive : List UInt8 → Prop} (nil : motive [])
    (cons : ∀ bytes, bytes ≠ [] → motive (behindLine bytes) → motive bytes) (bytes : List UInt8) :
    motive bytes := by
  induction length : bytes.length using Nat.strongRecOn generalizing bytes with
  | _ length ih =>
      by_cases empty : bytes = []
      · rw [empty]
        exact nil
      · exact cons bytes empty (ih _ (length ▸ length_behindLine_lt empty) _ rfl)

theorem flatten_linesOf (bytes : List UInt8) : (linesOf bytes).flatten = bytes := by
  induction bytes using byLines with
  | nil => rfl
  | cons bytes solid ih =>
      rw [linesOf_eq_cons solid, List.flatten_cons, ih, firstLine_append_behindLine]

/-- The lines behind the first ones are those of their bytes. -/
theorem linesOf_flatten_drop (bytes : List UInt8) (count : Nat) :
    linesOf ((linesOf bytes).drop count).flatten = (linesOf bytes).drop count := by
  induction bytes using byLines generalizing count with
  | nil => simp
  | cons bytes solid ih =>
      cases count with
      | zero => rw [List.drop_zero, flatten_linesOf]
      | succ count =>
          rw [linesOf_eq_cons solid, List.drop_succ_cons]
          exact ih count

theorem firstLine_flatten_drop (bytes : List UInt8) (count : Nat) :
    firstLine ((linesOf bytes).drop count).flatten = (linesOf bytes).getD count [] := by
  have lines := linesOf_flatten_drop bytes count
  have head : (linesOf bytes).getD count [] = ((linesOf bytes).drop count).headD [] := by
    simp [List.head?_drop]
  rw [head, ← lines]
  by_cases empty : ((linesOf bytes).drop count).flatten = []
  · rw [empty]
    rfl
  · rw [linesOf_eq_cons empty, List.headD_cons, ← linesOf_eq_cons empty, flatten_linesOf]

theorem behindLine_flatten_drop (bytes : List UInt8) (count : Nat) :
    behindLine ((linesOf bytes).drop count).flatten =
      ((linesOf bytes).drop (count + 1)).flatten := by
  have lines := linesOf_flatten_drop bytes count
  have tail : (linesOf bytes).drop (count + 1) = ((linesOf bytes).drop count).tail := by simp
  rw [tail, ← lines]
  by_cases empty : ((linesOf bytes).drop count).flatten = []
  · rw [empty]
    rfl
  · rw [linesOf_eq_cons empty, List.tail_cons, ← linesOf_eq_cons empty, flatten_linesOf,
      flatten_linesOf]

theorem flatten_take_succ (bytes : List UInt8) (count : Nat) :
    ((linesOf bytes).take (count + 1)).flatten =
      ((linesOf bytes).take count).flatten ++ (linesOf bytes).getD count [] := by
  rw [List.take_add_one, List.flatten_append, List.getD_eq_getElem?_getD]
  cases (linesOf bytes)[count]? <;> simp

theorem ne_nil_of_mem_linesOf {bytes line : List UInt8} (member : line ∈ linesOf bytes) :
    line ≠ [] := by
  induction bytes using byLines with
  | nil => cases member
  | cons bytes solid ih =>
      rw [linesOf_eq_cons solid] at member
      rcases List.mem_cons.mp member with rfl | later
      · exact mt firstLine_eq_nil_iff.mp solid
      · exact ih later

theorem length_linesOf_le (bytes : List UInt8) : (linesOf bytes).length ≤ bytes.length := by
  induction bytes using byLines with
  | nil => exact Nat.le_refl _
  | cons bytes solid ih =>
      have less := length_behindLine_lt solid
      rw [linesOf_eq_cons solid, List.length_cons]
      omega

/-- There are as many lines as line feeds, and one more when the last byte is none. -/
theorem length_linesOf (bytes : List UInt8) :
    (linesOf bytes).length =
      bytes.count lineFeed + if bytes.getLast?.all (· = lineFeed) then 0 else 1 := by
  induction bytes using byLines with
  | nil => rfl
  | cons bytes solid ih =>
      rw [linesOf_eq_cons solid, List.length_cons, ih]
      by_cases member : lineFeed ∈ bytes
      · obtain ⟨front, rest, absent, rfl⟩ := exists_front_of_mem member
        have none : front.count lineFeed = 0 := List.count_eq_zero.mpr absent
        rw [behindLine_append absent, List.count_append, none, List.count_cons_self]
        cases rest with
        | nil => simp
        | cons byte rest =>
            have same : (front ++ lineFeed :: byte :: rest).getLast? = (byte :: rest).getLast? := by
              simp [List.getLast?_cons]
            rw [same]
            omega
      · have none : bytes.count lineFeed = 0 := List.count_eq_zero.mpr member
        have other : bytes.getLast solid ≠ lineFeed :=
          fun same => member (same ▸ List.getLast_mem solid)
        rw [behindLine_of_not_mem member, none, List.getLast?_eq_some_getLast solid]
        simp [other]

end Unformat
