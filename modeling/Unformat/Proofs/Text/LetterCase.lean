import Unformat.Pattern.CharTest
import Unformat.Proofs.Text.Utf8

/-!
# Letters that pass for a letter

The characters that a pattern takes for a letter when it ignores case.  The tables of letter case
lead from a character to its variants; the other way round, few characters can lead to one letter.
-/

namespace Unformat.Text

/-- What a run pairs with `letter`, as its first members or as its second. -/
def CaseRun.partners (run : CaseRun) (letter : Nat) : List Nat :=
  (if run.holds (run.backward letter) then [run.backward letter] else []) ++
    if run.holds letter then [run.forward letter] else []

/-- The code points that may have `letter` among their other cases. -/
def caseSources (letter : Nat) : List Nat :=
  [73, 105, 304, 305] ++ (foldingFamilies.filter (·.contains letter)).flatten ++
    foldingPairs.toList.flatMap (·.partners letter)

theorem mem_caseSources_of_mem_otherCases {n letter : Nat} (positive : 0 < letter)
    (member : letter ∈ otherCases n) : n ∈ caseSources letter := by
  simp only [caseSources, List.mem_append, or_assoc]
  unfold otherCases at member
  split at member
  · left
    unfold turkishVariants at member
    split at member <;> simp_all
  · split at member
    · next family found =>
        right; left
        have holds := List.find?_some found
        simp only [List.contains_eq_mem, decide_eq_true_eq] at holds
        refine List.mem_flatten.mpr ⟨family, ?_, holds⟩
        simp only [List.mem_filter, List.contains_eq_mem, decide_eq_true_eq]
        exact ⟨List.mem_of_find?_eq_some found, (List.mem_filter.mp member).1⟩
    · right; right
      rw [List.mem_flatMap]
      split at member
      · next run found =>
          refine ⟨run, Array.mem_toList_iff.mpr (Array.mem_of_find?_eq_some found), ?_⟩
          have holds := Array.find?_some found
          rw [List.mem_singleton] at member
          obtain rfl : run.backward letter = n := by
            simp only [CaseRun.forward, CaseRun.backward] at member ⊢
            omega
          simp [CaseRun.partners, holds]
      split at member
      · next run found =>
          refine ⟨run, Array.mem_toList_iff.mpr (Array.mem_of_find?_eq_some found), ?_⟩
          have holds := Array.find?_some found
          rw [List.mem_singleton] at member
          rw [← member] at holds
          obtain rfl : run.forward letter = n := by
            simp only [CaseRun.forward, CaseRun.backward] at member ⊢
            omega
          simp [CaseRun.partners, holds]
      · cases member

theorem mem_caseSources_of_caseless {letter c : Char} (positive : 0 < letter.toNat)
    (holds : (CharTest.caseless (.char letter)).holds c) :
    c = letter ∨ c.toNat ∈ caseSources letter.toNat := by
  simp only [CharTest.holds, caseVariants, List.any_cons, Bool.or_eq_true, beq_iff_eq,
    List.any_map, List.any_eq_true, Function.comp_apply] at holds
  rcases holds with same | ⟨n, member, rfl⟩
  · exact .inl same
  · right
    by_cases valid : n.isValidChar
    · rw [Utf8.toNat_ofNat valid] at positive ⊢
      exact mem_caseSources_of_mem_otherCases positive member
    · rw [Char.ofNat, dif_neg valid] at positive
      cases positive

/-- The letters of the names of special values, with the characters that pass for them when case is
ignored.  The dotted capital letter is one of them, although it is no ASCII letter. -/
def specialLetters : List (Char × List Char) :=
  [('i', ['i', 'I', 'İ']), ('n', ['n', 'N']), ('f', ['f', 'F']), ('a', ['a', 'A'])]

theorem specialLetters_checked : ∀ entry ∈ specialLetters, 0 < entry.1.toNat ∧
    entry.1 ∈ entry.2 ∧ entry.2.all (CharTest.caseless (.char entry.1)).holds = true ∧
      ∀ n ∈ caseSources entry.1.toNat,
        (CharTest.caseless (.char entry.1)).holds (Char.ofNat n) = true →
          Char.ofNat n ∈ entry.2 := by
  decide +kernel

theorem caseless_iff_mem {letter c : Char} {accepted : List Char}
    (listed : (letter, accepted) ∈ specialLetters) :
    (CharTest.caseless (.char letter)).holds c = true ↔ c ∈ accepted := by
  obtain ⟨positive, itself, pass, few⟩ := specialLetters_checked _ listed
  constructor
  · intro holds
    rcases mem_caseSources_of_caseless positive holds with rfl | source
    · exact itself
    · have accept := few _ source
      rw [Char.ofNat_toNat] at accept
      exact accept holds
  · exact List.all_eq_true.mp pass c

end Unformat.Text
