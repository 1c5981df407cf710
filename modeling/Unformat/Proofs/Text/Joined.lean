import Mathlib.Data.List.Basic

/-!
# Joined words

Words with a separator between each two: the first word, and then the others behind a separator
each.  A character of the whole is in a word or in the separator.
-/

namespace Unformat

variable {α : Type}

theorem intercalate_cons_eq (separator first : List α) (rest : List (List α)) :
    separator.intercalate (first :: rest) = first ++ rest.flatMap (separator ++ ·) := by
  induction rest generalizing first with
  | nil => simp
  | cons second rest ih =>
      rw [List.intercalate_cons_cons, ih, List.flatMap_cons, List.append_assoc, List.append_assoc]

theorem mem_intercalate {separator : List α} {words : List (List α)} {c : α}
    (member : c ∈ separator.intercalate words) : c ∈ separator ∨ ∃ word ∈ words, c ∈ word := by
  cases words with
  | nil => simp at member
  | cons first rest =>
      rw [intercalate_cons_eq] at member
      rcases List.mem_append.mp member with inside | behind
      · exact .inr ⟨first, List.mem_cons_self, inside⟩
      · obtain ⟨word, wordMember, inside⟩ := List.mem_flatMap.mp behind
        rcases List.mem_append.mp inside with between | within
        · exact .inl between
        · exact .inr ⟨word, List.mem_cons_of_mem _ wordMember, within⟩

theorem mem_intercalate_of_mem {separator word : List α} {words : List (List α)}
    (member : word ∈ words) {c : α} (inside : c ∈ word) : c ∈ separator.intercalate words := by
  obtain ⟨first, rest, rfl⟩ := List.exists_cons_of_ne_nil (List.ne_nil_of_mem member)
  rw [intercalate_cons_eq, List.mem_append, List.mem_flatMap]
  rcases List.mem_cons.mp member with rfl | behind
  · exact .inl inside
  · exact .inr ⟨word, behind, List.mem_append_right _ inside⟩

/-- Parting the whole at the separator parts each word at it. -/
theorem splitOn_intercalate_eq_flatMap [BEq α] [LawfulBEq α] {separator : α}
    {words : List (List α)} (solid : words ≠ []) :
    ([separator].intercalate words).splitOn separator =
      words.flatMap (List.splitOn separator) := by
  obtain ⟨first, rest, rfl⟩ := List.exists_cons_of_ne_nil solid
  clear solid
  induction rest generalizing first with
  | nil => simp
  | cons second rest ih =>
      rw [List.intercalate_cons_cons, List.append_assoc, List.singleton_append,
        List.splitOn_append_cons_self, ih]
      rfl

end Unformat
