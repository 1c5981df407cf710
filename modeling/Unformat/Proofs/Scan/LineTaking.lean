import Unformat.Proofs.Scan.LineAlone
import Unformat.Proofs.Scan.Whole

/-!
# What a segment takes of a line

A literal or a capture takes off a line what it takes off the bytes that are left of it.  If it
comes to the end of the line, the end may be taken along or be left, which depends on whether it is
at hand by then.  So it matters where the reads end only if one of them ends behind text that the
end of a line follows, or within the end of a line.
-/

namespace Unformat

open Scan (InFront)
open Text (Utf8.decode Utf8.encode)

/-! ## The ends of lines -/

/-- How a line may end. -/
inductive LineEnding where
  | none
  | lineFeed
  | both
  deriving Repr, DecidableEq

namespace LineEnding

def text : LineEnding → List Char
  | none => []
  | lineFeed => ['\n']
  | both => ['\r', '\n']

def bytes (ending : LineEnding) : List UInt8 := Utf8.encode ending.text

theorem bytes_none : none.bytes = [] := rfl

theorem bytes_lineFeed : lineFeed.bytes = [Unformat.lineFeed] := rfl

theorem bytes_both : both.bytes = [carriageReturn, Unformat.lineFeed] := rfl

theorem lineEnd_bytes (ending : LineEnding) : lineEnd ending.bytes = ending.bytes := by
  cases ending <;> rfl

theorem exists_of_lineEnd {left : List UInt8} (whole : lineEnd left = left) :
    ∃ ending : LineEnding, left = ending.bytes := by
  rw [lineEnd] at whole
  split at whole
  · rename_i last
    rcases last with rfl | rfl
    · exact ⟨lineFeed, rfl⟩
    · exact ⟨both, rfl⟩
  · exact ⟨none, whole.symm⟩

/-- A border of the pieces separates the end of the line from text before it, or runs through it. -/
def Parted (ending : LineEnding) (pieces : List (List UInt8)) : Prop :=
  ∃ front back text first, pieces = front ++ back ∧ text ≠ [] ∧
    front.flatten = Utf8.encode text ++ first ∧ back.flatten ≠ [] ∧
      first ++ back.flatten = ending.bytes

variable {ending : LineEnding} {chunks : List (List UInt8)}

theorem not_parted_of_flatten_eq_nil (empty : chunks.flatten = []) : ¬ ending.Parted chunks := by
  rintro ⟨front, back, _, _, rfl, _, _, more, _⟩
  rw [List.flatten_append] at empty
  exact more (List.append_eq_nil_iff.mp empty).2

theorem exists_cons_of_flatten {front : List (List UInt8)} {text : List Char} {first : List UInt8}
    (solid : text ≠ []) (before : front.flatten = Utf8.encode text ++ first) :
    ∃ piece pieces, front = piece :: pieces := by
  apply List.exists_cons_of_ne_nil
  rintro rfl
  exact solid (Text.Utf8.encode_eq_nil_iff.mp (List.append_eq_nil_iff.mp before.symm).1)

theorem not_parted_of_length_le (few : chunks.length ≤ 1) : ¬ ending.Parted chunks := by
  rintro ⟨front, back, text, first, rfl, solid, before, more, _⟩
  obtain ⟨piece, pieces, rfl⟩ := exists_cons_of_flatten solid before
  obtain rfl : back = [] := by
    rw [List.length_append, List.length_cons] at few
    exact List.eq_nil_of_length_eq_zero (by omega)
  exact more rfl

theorem Parted.of_joinFirst (parted : ending.Parted (joinFirst chunks)) : ending.Parted chunks := by
  match chunks with
  | [] => exact parted
  | [_] => exact parted
  | one :: two :: rest =>
      obtain ⟨front, back, text, first, joined, solid, before, more⟩ := parted
      obtain ⟨piece, pieces, rfl⟩ := exists_cons_of_flatten solid before
      obtain ⟨rfl, rfl⟩ := List.cons.inj joined
      refine ⟨one :: two :: pieces, back, text, first, rfl, solid, ?_, more⟩
      rw [← before]
      simp

/-- What is parted behind a text that has been taken was parted before. -/
theorem Parted.of_dropFront {taken : List Char} (inFront : InFront taken chunks)
    (parted : ending.Parted (dropFront (Utf8.encode taken).length chunks)) :
    ending.Parted chunks := by
  cases chunks with
  | nil => exact parted
  | cons chunk rest =>
      obtain ⟨behind, standing⟩ := inFront
      rw [List.headD_cons] at standing
      subst standing
      have longer (text : List Char) (solid : text ≠ []) : taken ++ text ≠ [] :=
        List.append_ne_nil_of_right_ne_nil taken solid
      rw [dropFront] at parted
      split at parted
      · rename_i short
        obtain rfl : behind = [] := by
          rw [List.length_append] at short
          exact List.eq_nil_of_length_eq_zero (by omega)
        obtain ⟨front, back, text, first, rfl, solid, before, more⟩ := parted
        refine ⟨_ :: front, back, taken ++ text, first, rfl, longer text solid, ?_, more⟩
        rw [List.flatten_cons, before, Text.Utf8.encode_append]
        simp
      · rw [List.drop_left] at parted
        obtain ⟨front, back, text, first, split, solid, before, more⟩ := parted
        obtain ⟨piece, pieces, rfl⟩ := exists_cons_of_flatten solid before
        obtain ⟨rfl, rfl⟩ := List.cons.inj split
        refine ⟨_ :: pieces, back, taken ++ text, first, rfl, longer text solid, ?_, more⟩
        rw [List.flatten_cons] at before ⊢
        rw [List.append_assoc, before, Text.Utf8.encode_append, List.append_assoc]

end LineEnding

/-! ## Texts taken off the front -/

/-- No character is at hand. -/
def Scan.NothingShown (chunks : List (List UInt8)) : Prop :=
  (Utf8.decode (chunks.headD [])).1 = []

/-- A text is taken off the front of chunks.  Reading on, where that is wanted, puts the first two
chunks together; what is consumed is dropped off the first one, along with the end of the line. -/
inductive Consumes (wanted : List (List UInt8) → Prop) :
    List (List UInt8) → List Char → List (List UInt8) → Prop
  | done (chunks : List (List UInt8)) : Consumes wanted chunks [] chunks
  | fill {chunks left : List (List UInt8)} {text : List Char} (wants : wanted chunks)
      (later : Consumes wanted (joinFirst chunks) text left) : Consumes wanted chunks text left
  | take {chunks left : List (List UInt8)} {front text : List Char} (solid : front ≠ [])
      (inFront : InFront front chunks) (last : lineFeed ∈ chunks.headD [] → chunks.tail = [])
      (later : Consumes wanted
        (dropFront (taking (chunks.headD []) (Utf8.encode front).length) chunks) text left) :
      Consumes wanted chunks (front ++ text) left

section Taking

variable {chunks : List (List UInt8)} {front : List Char}

/-- The end of the line stays when it is not all that is left of the first chunk. -/
theorem exists_behind (inFront : InFront front chunks)
    (last : lineFeed ∈ chunks.headD [] → chunks.tail = []) :
    ∃ behind, chunks.headD [] = Utf8.encode front ++ behind ∧
      chunks.flatten = Utf8.encode front ++ (behind ++ chunks.tail.flatten) ∧
        (lineEnd behind = [] ∧
            taking (chunks.headD []) (Utf8.encode front).length = (Utf8.encode front).length ∧
            (dropFront (taking (chunks.headD []) (Utf8.encode front).length) chunks).flatten =
              behind ++ chunks.tail.flatten ∨
          lineEnd behind = behind ∧ chunks.tail = [] ∧
            (dropFront (taking (chunks.headD []) (Utf8.encode front).length) chunks).flatten =
              []) := by
  obtain ⟨behind, standing⟩ := inFront
  have whole : chunks.flatten = Utf8.encode front ++ (behind ++ chunks.tail.flatten) := by
    rw [← List.append_assoc, standing]
    cases chunks <;> rfl
  have within : (Utf8.encode front).length ≤ (chunks.headD []).length := by
    rw [← standing, List.length_append]
    exact Nat.le_add_right _ _
  have total : taking (chunks.headD []) (Utf8.encode front).length =
      (Utf8.encode front).length + (lineEnd behind).length := by
    rw [taking, ← standing, List.drop_left]
  have left := flatten_dropFront (taking_le within)
  rw [total, whole, ← List.drop_drop, List.drop_left] at left
  refine ⟨behind, standing.symm, whole, ?_⟩
  rw [total, left]
  by_cases none : lineEnd behind = []
  · exact .inl ⟨none, by simp [none], by simp [none]⟩
  · right
    have inside := (lineEnd_opens behind).mem (mem_lineEnd_iff.mpr none)
    have lone : chunks.tail = [] := last (standing ▸ List.mem_append_right _ inside)
    have all : lineEnd behind = behind := by
      rw [lineEnd] at none ⊢
      split <;> simp_all
    refine ⟨all, lone, ?_⟩
    simp [all, lone]

namespace Consumes

variable {wanted : List (List UInt8) → Prop} {left : List (List UInt8)} {text : List Char}

theorem single (solid : front ≠ []) (inFront : InFront front chunks)
    (last : lineFeed ∈ chunks.headD [] → chunks.tail = []) :
    Consumes wanted chunks front
      (dropFront (taking (chunks.headD []) (Utf8.encode front).length) chunks) := by
  have taken : Consumes wanted chunks (front ++ []) _ := .take solid inFront last (.done _)
  rwa [List.append_nil] at taken

theorem mono {others : List (List UInt8) → Prop} (consumes : Consumes wanted chunks text left)
    (weaker : ∀ chunks, wanted chunks → others chunks) : Consumes others chunks text left := by
  induction consumes with
  | done chunks => exact .done chunks
  | fill wants _ ih => exact .fill (weaker _ wants) ih
  | take solid inFront last _ ih => exact .take solid inFront last ih

theorem trans {middle : List (List UInt8)} {more : List Char}
    (first : Consumes wanted chunks text middle) (second : Consumes wanted middle more left) :
    Consumes wanted chunks (text ++ more) left := by
  induction first with
  | done chunks => exact second
  | fill wants _ ih => exact .fill wants (ih second)
  | take solid inFront last _ ih =>
      rw [List.append_assoc]
      exact .take solid inFront last (ih second)

/-- What is left are the bytes behind the text, or nothing when those are the end of the line. -/
theorem exists_rest (consumes : Consumes wanted chunks text left) :
    ∃ rest, chunks.flatten = Utf8.encode text ++ rest ∧
      (left.flatten = rest ∨ text ≠ [] ∧ left.flatten = [] ∧ lineEnd rest = rest) := by
  induction consumes with
  | done chunks => exact ⟨chunks.flatten, rfl, .inl rfl⟩
  | fill wants _ ih => rwa [flatten_joinFirst] at ih
  | @take chunks left front text solid inFront last _ ih =>
      obtain ⟨behind, _, whole, ⟨none, _, after⟩ | ⟨all, lone, after⟩⟩ := exists_behind inFront last
      · obtain ⟨rest, split, comes⟩ := ih
        rw [after] at split
        refine ⟨rest, ?_, comes.imp_right fun given => ⟨?_, given.2⟩⟩
        · rw [whole, split, Text.Utf8.encode_append, List.append_assoc]
        · exact List.append_ne_nil_of_left_ne_nil solid text
      · obtain ⟨rest, split, comes⟩ := ih
        rw [after] at split
        obtain ⟨empty, rfl⟩ := List.append_eq_nil_iff.mp split.symm
        obtain rfl := Text.Utf8.encode_eq_nil_iff.mp empty
        rw [lone, List.flatten_nil, List.append_nil] at whole
        refine ⟨behind, by simpa using whole, .inr ⟨by simpa using solid, ?_, all⟩⟩
        exact comes.elim id fun given => given.2.1

theorem flatten_of_nil (consumes : Consumes wanted chunks [] left) :
    left.flatten = chunks.flatten := by
  obtain ⟨rest, split, rfl | ⟨solid, _⟩⟩ := consumes.exists_rest
  · exact split.symm
  · exact (solid rfl).elim

theorem length_le_one (consumes : Consumes wanted chunks text left) (few : chunks.length ≤ 1) :
    left.length ≤ 1 := by
  induction consumes with
  | done chunks => exact few
  | fill wants _ ih =>
      rw [Scan.joinFirst_of_length_le few] at ih
      exact ih few
  | @take chunks left front text solid inFront last _ ih =>
      refine ih ?_
      match chunks with
      | [] => exact few
      | [_] =>
          rw [dropFront]
          split <;> simp
      | _ :: _ :: _ => simp at few

/-- When no border parts the end of a line from the text before it, the text takes it along. -/
theorem unparted {ending : LineEnding} (consumes : Consumes wanted chunks text left)
    (unparted : ¬ ending.Parted chunks) :
    ¬ ending.Parted left ∧
      (text ≠ [] → chunks.flatten = Utf8.encode text ++ ending.bytes → left.flatten = []) := by
  induction consumes with
  | done chunks => exact ⟨unparted, fun solid => (solid rfl).elim⟩
  | fill wants _ ih =>
      rw [flatten_joinFirst] at ih
      exact ih (mt LineEnding.Parted.of_joinFirst unparted)
  | @take chunks left front text solid inFront last later ih =>
      obtain ⟨behind, standing, whole, ⟨none, total, after⟩ | ⟨all, lone, after⟩⟩ :=
        exists_behind inFront last
      · rw [after] at ih
        have still : ¬ ending.Parted
            (dropFront (taking (chunks.headD []) (Utf8.encode front).length) chunks) := by
          rw [total]
          exact mt (LineEnding.Parted.of_dropFront inFront) unparted
        refine ⟨(ih still).1, fun _ split => ?_⟩
        rw [whole, Text.Utf8.encode_append, List.append_assoc, List.append_cancel_left_eq] at split
        by_cases done : text = []
        · -- The end of the line is not in the first chunk, so none is there or it is parted.
          subst done
          rw [later.flatten_of_nil, after]
          by_cases more : chunks.tail.flatten = []
          · have ends := ending.lineEnd_bytes
            rw [more, List.append_nil] at split ⊢
            rw [← show behind = ending.bytes from split, none] at ends
            exact ends.symm
          · refine (unparted ⟨[chunks.headD []], chunks.tail, front, behind, ?_, solid, ?_, more,
              split⟩).elim
            · cases chunks with
              | nil => simp at more
              | cons chunk rest => rfl
            · rw [List.flatten_singleton, standing]
        · exact (ih still).2 done split
      · have nothing : ¬ ending.Parted
            (dropFront (taking (chunks.headD []) (Utf8.encode front).length) chunks) :=
          LineEnding.not_parted_of_flatten_eq_nil after
        obtain ⟨rest, split, comes⟩ := later.exists_rest
        rw [after] at split
        obtain ⟨_, rfl⟩ := List.append_eq_nil_iff.mp split.symm
        exact ⟨(ih nothing).1, fun _ _ => comes.elim id fun given => given.2.1⟩

/-- A text that a border parts from what follows leaves it, when it is read no further than it has
to be. -/
theorem of_parted {front back : List (List UInt8)} {first : List UInt8}
    (consumes : Consumes Scan.NothingShown (front ++ back) text left)
    (before : front.flatten = Utf8.encode text ++ first) (more : back.flatten ≠ []) :
    left.flatten = first ++ back.flatten := by
  generalize parted : front ++ back = chunks at consumes
  induction consumes generalizing front back with
  | done chunks => rw [← parted, List.flatten_append, before]; rfl
  | @fill chunks left text nothing later ih =>
      subst parted
      by_cases solid : text = []
      · subst solid
        rw [later.flatten_of_nil, flatten_joinFirst, List.flatten_append, before]
        rfl
      obtain ⟨piece, pieces, rfl⟩ := LineEnding.exists_cons_of_flatten solid before
      cases pieces with
      | nil =>
          rw [List.flatten_singleton] at before
          rw [Scan.NothingShown, List.singleton_append, List.headD_cons, before,
            Text.Utf8.decode_encode_append] at nothing
          exact (solid (List.append_eq_nil_iff.mp nothing).1).elim
      | cons next pieces =>
          have joined : ((piece ++ next) :: pieces).flatten = Utf8.encode text ++ first := by
            simpa using before
          exact ih joined more rfl
  | @take chunks left taken text solid inFront last later ih =>
      subst parted
      obtain ⟨piece, pieces, rfl⟩ := LineEnding.exists_cons_of_flatten
        (List.append_ne_nil_of_left_ne_nil solid text) before
      obtain ⟨behind, standing, _, ⟨_, total, _⟩ | ⟨_, lone, _⟩⟩ := exists_behind inFront last
      · rw [List.cons_append, List.headD_cons] at standing
        subst standing
        rw [List.flatten_cons, Text.Utf8.encode_append, List.append_assoc, List.append_assoc,
          List.append_cancel_left_eq] at before
        rw [total, List.cons_append, dropFront] at ih
        split at ih
        · rename_i short
          obtain rfl : behind = [] := by
            rw [List.length_append] at short
            exact List.eq_nil_of_length_eq_zero (by omega)
          exact ih before more rfl
        · rw [List.drop_left] at ih
          have still : (behind :: pieces).flatten = Utf8.encode text ++ first := before
          exact ih still more rfl
      · rw [List.cons_append, List.tail_cons, List.append_eq_nil_iff] at lone
        exact (more (by rw [lone.2]; rfl)).elim

end Consumes

end Taking

end Unformat
