import Unformat.Proofs.Scan.LineAttempts

/-!
# What requests for lines bring

When no read fails, what a scan line by line brings depends only on what its attempts come to.  Each
of them is brought by some request or put aside, once.
-/

namespace Unformat

open Scan (Stop)

/-- What a request brings when the attempts to come have the given results, the scan after it, and
the results that are left. -/
def LineScan.bring : List (Except Stop (List Value)) → LineScan →
    ScanStep × LineScan × List (Except Stop (List Value))
  | [], scan => (.finished, scan, [])
  | result :: results, scan =>
      match scan.settle ⟨scan.lineNumber + 1, result, .ok ()⟩ with
      | (some step, scan) => (step, scan, results)
      | (none, scan) => bring results scan

/-- What a request brings after so many others, and the scan after it. -/
def LineScan.bringAfter : Nat → List (Except Stop (List Value)) → LineScan → ScanStep × LineScan
  | 0, results, scan => ((scan.bring results).1, (scan.bring results).2.1)
  | asked + 1, results, scan => bringAfter asked (scan.bring results).2.2 (scan.bring results).2.1

namespace LineIteration

/-- The attempts to come have the given results, one after the other, and then there are none. -/
inductive Tries : List (Except Stop (List Value)) → LineIteration → Prop
  | done {iteration : LineIteration}
      (ends : ∀ count, (iteration.afterAttempts count).attempt.1 = .ok none) : Tries [] iteration
  | line {iteration : LineIteration} {result : Except Stop (List Value)}
      {results : List (Except Stop (List Value))}
      (tried : iteration.attempt.1 =
        .ok (some ⟨iteration.scan.lineNumber + 1, result, .ok ()⟩))
      (bounded : results.length ≤ iteration.reader.bytesLeft)
      (later : Tries results iteration.attempt.2) : Tries (result :: results) iteration

variable {results others : List (Except Stop (List Value))} {iteration other : LineIteration}

theorem scan_attempt (iteration : LineIteration) :
    iteration.attempt.2.scan =
      match iteration.attempt.1 with
      | .ok (some attempt) => (iteration.scan.settle attempt).2
      | _ => iteration.scan := by
  simp only [LineIteration.attempt]
  rcases iteration.scan.attempt iteration.compiled iteration.reader with
    ⟨_ | _ | made, reader⟩ <;> rfl

theorem Before.tries {compiled : Except PatternFault CompiledPlan} {number : Nat} {line : Line}
    (before : Before compiled number line results iteration) : Tries results iteration := by
  induction results generalizing number line iteration with
  | nil =>
      apply Tries.done
      intro count
      induction count generalizing iteration with
      | zero =>
          obtain ⟨next, tried, _⟩ := before.attempt_of_none
          rw [afterAttempts, tried]
      | succ count ih =>
          obtain ⟨next, tried, _, still⟩ := before.attempt_of_none
          rw [afterAttempts_succ, tried]
          exact ih still
  | cons result results ih =>
      obtain ⟨next, tried, _, later⟩ := before.attempt_of_line
      have bounded := before.length_le
      refine .line ?_ ?_ ?_
      · rw [tried, before.number_eq]
      · exact Nat.le_of_succ_le bounded
      · rw [tried]
        exact ih later

/-! ## One request -/

theorem Tries.nextWithin (tries : Tries results iteration) {steps : Nat}
    (enough : results.length < steps) :
    (iteration.nextWithin steps).1 = (iteration.scan.bring results).1 ∧
      (iteration.nextWithin steps).2.scan = (iteration.scan.bring results).2.1 ∧
        Tries (iteration.scan.bring results).2.2 (iteration.nextWithin steps).2 := by
  induction tries generalizing steps with
  | @done iteration ends =>
      obtain ⟨steps, rfl⟩ := Nat.exists_eq_add_of_lt enough
      have tried : iteration.attempt.1 = .ok none := ends 0
      have scan := scan_attempt iteration
      rw [tried] at scan
      rw [nextWithin_succ, tried]
      refine ⟨rfl, scan, .done fun count => ?_⟩
      rw [← afterAttempts_succ]
      exact ends (count + 1)
  | @line iteration result results tried bounded later ih =>
      obtain ⟨steps, rfl⟩ : ∃ more, steps = more + 1 := ⟨steps - 1, by omega⟩
      have scan := scan_attempt iteration
      rw [tried] at scan
      rw [nextWithin_succ, tried, LineScan.bring]
      simp only [List.length_cons] at enough
      rcases settled : iteration.scan.settle ⟨iteration.scan.lineNumber + 1, result, .ok ()⟩ with
        ⟨_ | step, after⟩
      · simp only [settled] at scan
        obtain rfl : iteration.attempt.2.scan = after := scan
        simp only [settled]
        exact ih (Nat.lt_of_succ_lt_succ enough)
      · simp only [settled] at scan ⊢
        exact ⟨trivial, scan, later⟩

theorem Tries.length_le (tries : Tries results iteration) :
    results.length ≤ iteration.reader.bytesLeft + 1 := by
  cases tries with
  | done ends => exact Nat.zero_le _
  | line tried bounded later => exact Nat.succ_le_succ bounded

theorem Tries.next (tries : Tries results iteration) :
    iteration.next.1 = (iteration.scan.bring results).1 ∧
      iteration.next.2.scan = (iteration.scan.bring results).2.1 ∧
        Tries (iteration.scan.bring results).2.2 iteration.next.2 := by
  rw [next_eq]
  exact tries.nextWithin (Nat.lt_succ_of_le tries.length_le)

/-! ## Requests one after the other -/

theorem after_succ (asked : Nat) (iteration : LineIteration) :
    iteration.after (asked + 1) = iteration.next.2.after asked := by
  induction asked with
  | zero => rfl
  | succ asked ih => rw [LineIteration.after, ih, LineIteration.after]

/-- What a scan brings is in the results of its attempts. -/
theorem Tries.next_after (tries : Tries results iteration) (asked : Nat) :
    ((iteration.after asked).next.1, (iteration.after asked).next.2.scan) =
      iteration.scan.bringAfter asked results := by
  induction asked generalizing results iteration with
  | zero =>
      obtain ⟨step, scan, _⟩ := tries.next
      exact Prod.ext step scan
  | succ asked ih =>
      obtain ⟨_, scan, later⟩ := tries.next
      rw [after_succ, ih later, scan]
      rfl

/-- Whatever a request makes, it makes attempts one after the other. -/
theorem exists_nextWithin_eq (steps : Nat) (iteration : LineIteration) :
    ∃ tried, (iteration.nextWithin steps).2 = iteration.afterAttempts tried := by
  induction steps generalizing iteration with
  | zero => exact ⟨0, rfl⟩
  | succ steps ih =>
      rw [nextWithin_succ]
      split
      · exact ⟨1, rfl⟩
      · exact ⟨1, rfl⟩
      · split
        · exact ⟨1, rfl⟩
        · obtain ⟨tried, came⟩ := ih iteration.attempt.2
          refine ⟨tried + 1, ?_⟩
          rw [came, afterAttempts_succ]

/-! ## Counting -/

/-- What an attempt comes to is given back, or it is kept among the faults. -/
theorem settle_cases (scan : LineScan) (line : Nat) (result : Except Stop (List Value)) :
    (∃ step after, scan.settle ⟨line, result, .ok ()⟩ = (some step, after) ∧ step ≠ .finished ∧
      after.failures = scan.failures) ∨
    ∃ after, scan.settle ⟨line, result, .ok ()⟩ = (none, after) ∧
      after.failures.length = scan.failures.length + 1 := by
  obtain ⟨errors, number, failures⟩ := scan
  cases result with
  | ok values => exact .inl ⟨_, _, rfl, by simp, rfl⟩
  | error stop =>
      cases errors with
      | raise => cases stop <;> exact .inl ⟨_, _, rfl, by simp, rfl⟩
      | skip =>
          cases stop with
          | pattern fault => exact .inl ⟨_, _, rfl, by simp, rfl⟩
          | reader fault => exact .inl ⟨_, _, rfl, by simp, rfl⟩
          | fault diagnostic => exact .inr ⟨_, rfl, List.length_append⟩

/-- Each result is brought by a request or kept among the faults, and each request takes one. -/
theorem length_bring (results : List (Except Stop (List Value))) (scan : LineScan) :
    (scan.bring results).2.1.failures.length + (scan.bring results).2.2.length +
        (if (scan.bring results).1 = .finished then 0 else 1) =
      scan.failures.length + results.length ∧
    (scan.bring results).2.2.length ≤ results.length - 1 := by
  induction results generalizing scan with
  | nil => exact ⟨rfl, Nat.le_refl 0⟩
  | cons result results ih =>
      rw [LineScan.bring]
      rcases settle_cases scan (scan.lineNumber + 1) result with
        ⟨step, after, settled, some, same⟩ | ⟨after, settled, more⟩
      · simp only [settled, some, same, if_false, List.length_cons]
        omega
      · obtain ⟨total, fewer⟩ := ih after
        simp only [settled, List.length_cons]
        omega

/-- How many of the requests bring something. -/
def brought : Nat → LineIteration → Nat
  | 0, _ => 0
  | asked + 1, iteration =>
      brought asked iteration + if (iteration.after asked).next.1 = .finished then 0 else 1

theorem Tries.after (tries : Tries results iteration) (asked : Nat) :
    ∃ left, Tries left (iteration.after asked) ∧ left.length ≤ results.length - asked ∧
      (iteration.after asked).scan.failures.length + left.length + iteration.brought asked =
        iteration.scan.failures.length + results.length := by
  induction asked with
  | zero => exact ⟨results, tries, Nat.le_refl _, rfl⟩
  | succ asked ih =>
      obtain ⟨left, here, fewer, total⟩ := ih
      obtain ⟨step, scan, later⟩ := here.next
      obtain ⟨count, less⟩ := length_bring left (iteration.after asked).scan
      refine ⟨_, later, by omega, ?_⟩
      rw [LineIteration.after, scan, brought, step]
      omega

/-- As many requests as there are results leave none. -/
theorem Tries.length_eq (tries : Tries results iteration) {asked : Nat}
    (enough : results.length ≤ asked) :
    (iteration.after asked).scan.failures.length + iteration.brought asked =
      iteration.scan.failures.length + results.length := by
  obtain ⟨left, _, fewer, total⟩ := tries.after asked
  omega

theorem brought_congr (same : ∀ asked, (other.after asked).next.1 = (iteration.after asked).next.1)
    (asked : Nat) : other.brought asked = iteration.brought asked := by
  induction asked with
  | zero => rfl
  | succ asked ih => rw [brought, brought, ih, same]

/-- Scans that bring the same, and keep the same faults, have as many results. -/
theorem Tries.length_congr (one : Tries results iteration) (two : Tries others other)
    (same : other.scan.failures = iteration.scan.failures)
    (alike : ∀ asked,
      (other.scan.bringAfter asked others).1 = (iteration.scan.bringAfter asked results).1 ∧
        (other.scan.bringAfter asked others).2.failures =
          (iteration.scan.bringAfter asked results).2.failures) :
    others.length = results.length := by
  simp only [← one.next_after, ← two.next_after] at alike
  have total := one.length_eq (Nat.le_succ_of_le (Nat.le_max_left results.length others.length))
  have otherTotal :=
    two.length_eq (Nat.le_succ_of_le (Nat.le_max_right results.length others.length))
  have kept := (alike (max results.length others.length)).2
  rw [LineIteration.after, brought_congr fun asked => (alike asked).1, kept, same] at otherTotal
  rw [LineIteration.after] at total
  omega

end LineIteration

end Unformat
