import Mathlib.Data.List.Forall2
import Unformat.Proofs.Scan.EveryLine

/-!
# Two scans that go the same way

Two scans line by line whose lines come to the same, up to a relation between faults, bring the same
one request after the other, whether faults are given back or put aside.
-/

namespace Unformat

variable {same : Diagnostic ScanFault → Diagnostic ScanFault → Prop}

/-- Two lines come to the same values, or to faults that are the same. -/
inductive ResultsAlike (same : Diagnostic ScanFault → Diagnostic ScanFault → Prop) :
    LineResult → LineResult → Prop
  | values (values : List Value) : ResultsAlike same (.ok values) (.ok values)
  | faults {one other : Diagnostic ScanFault} (alike : same one other) :
      ResultsAlike same (.error one) (.error other)

/-- Two requests bring the same values, both stop for faults that are the same, or both find the
end. -/
inductive StepsAlike (same : Diagnostic ScanFault → Diagnostic ScanFault → Prop) :
    ScanStep → ScanStep → Prop
  | values (values : List Value) : StepsAlike same (.values values) (.values values)
  | finished : StepsAlike same .finished .finished
  | stopped {one other : Diagnostic ScanFault} (alike : same one other) :
      StepsAlike same (.stopped (.fault one)) (.stopped (.fault other))

/-- Two scans have tried as many lines and have put the same faults aside. -/
structure ScansAlike (same : Diagnostic ScanFault → Diagnostic ScanFault → Prop)
    (one other : LineScan) : Prop where
  errors_eq : one.errors = other.errors
  lineNumber_eq : one.lineNumber = other.lineNumber
  failures : List.Forall₂ (fun first second => first.1 = second.1 ∧ same first.2 second.2)
    one.failures other.failures

theorem StepsAlike.eq {one other : ScanStep} (alike : StepsAlike Eq one other) : one = other := by
  cases alike with
  | stopped alike => rw [alike]
  | _ => rfl

theorem ScansAlike.eq {one other : LineScan} (alike : ScansAlike Eq one other) : one = other := by
  obtain ⟨errors, lineNumber, failures⟩ := one
  obtain ⟨otherErrors, otherNumber, otherFailures⟩ := other
  obtain ⟨rfl, rfl, kept⟩ := alike
  dsimp only at kept
  congr
  induction kept with
  | nil => rfl
  | cons equal _ ih => rw [Prod.ext equal.1 equal.2, ih]

theorem LineResult.exists_step_of_alike {one other : LineResult}
    (alike : ResultsAlike same one other) :
    StepsAlike same (LineIteration.stepOf (outcomeOf one))
      (LineIteration.stepOf (outcomeOf other)) := by
  cases alike with
  | values values => exact .values values
  | faults alike => exact .stopped alike

namespace LineIteration

/-- Settling lines that come to the same gives back the same, or puts the same aside. -/
theorem settle_alike {scan otherScan : LineScan} (scans : ScansAlike same scan otherScan)
    {one other : LineResult} (alike : ResultsAlike same one other) (number : Nat) :
    ScansAlike same (scan.settle ⟨number, outcomeOf one, .ok ()⟩).2
        (otherScan.settle ⟨number, outcomeOf other, .ok ()⟩).2 ∧
      (((scan.settle ⟨number, outcomeOf one, .ok ()⟩).1 = none ∧
          (otherScan.settle ⟨number, outcomeOf other, .ok ()⟩).1 = none) ∨
        ∃ step otherStep, StepsAlike same step otherStep ∧
          (scan.settle ⟨number, outcomeOf one, .ok ()⟩).1 = some step ∧
          (otherScan.settle ⟨number, outcomeOf other, .ok ()⟩).1 = some otherStep) := by
  have steps := LineResult.exists_step_of_alike alike
  cases errors : scan.errors with
  | raise =>
      rw [settle_of_raise errors, settle_of_raise (scans.errors_eq ▸ errors)]
      exact ⟨⟨scans.errors_eq, rfl, scans.failures⟩, .inr ⟨_, _, steps, rfl, rfl⟩⟩
  | skip =>
      cases alike with
      | values values => exact ⟨⟨scans.errors_eq, rfl, scans.failures⟩, .inr ⟨_, _, steps, rfl, rfl⟩⟩
      | faults alike =>
          simp only [outcomeOf, Except.mapError, settle_of_skip errors,
            settle_of_skip (scans.errors_eq ▸ errors)]
          refine ⟨⟨scans.errors_eq, rfl, ?_⟩, .inl ⟨trivial, trivial⟩⟩
          exact List.rel_append scans.failures (.cons ⟨rfl, alike⟩ .nil)

/-- Two iterations have tried as many lines, and the lines to come are alike. -/
structure InStep (same : Diagnostic ScanFault → Diagnostic ScanFault → Prop)
    (one other : LineIteration) : Prop where
  scans : ScansAlike same one.scan other.scan
  exists_left : ∃ compiled number line otherLine left otherLeft,
    Before compiled number line (left.map outcomeOf) one ∧
      Before compiled number otherLine (otherLeft.map outcomeOf) other ∧
        List.Forall₂ (ResultsAlike same) left otherLeft

theorem nextWithin_alike {compiled : Except PatternFault CompiledPlan} {number : Nat}
    {line otherLine : Line} {left otherLeft : List LineResult} {one other : LineIteration}
    (scans : ScansAlike same one.scan other.scan)
    (before : Before compiled number line (left.map outcomeOf) one)
    (otherBefore : Before compiled number otherLine (otherLeft.map outcomeOf) other)
    (alike : List.Forall₂ (ResultsAlike same) left otherLeft) {steps otherSteps : Nat}
    (enough : left.length < steps) (otherEnough : left.length < otherSteps) :
    StepsAlike same (one.nextWithin steps).1 (other.nextWithin otherSteps).1 ∧
      InStep same (one.nextWithin steps).2 (other.nextWithin otherSteps).2 := by
  induction alike generalizing one other number line otherLine steps otherSteps with
  | nil =>
      obtain ⟨steps, rfl⟩ := Nat.exists_eq_add_of_lt enough
      obtain ⟨otherSteps, rfl⟩ := Nat.exists_eq_add_of_lt otherEnough
      obtain ⟨next, tried, sameScan, there⟩ := before.attempt_of_none
      obtain ⟨otherNext, otherTried, otherSame, otherThere⟩ := otherBefore.attempt_of_none
      rw [before.nextWithin_of_none, otherBefore.nextWithin_of_none, tried, otherTried]
      refine ⟨.finished, ?_, compiled, number, line, otherLine, [], [], there, otherThere, .nil⟩
      rw [sameScan, otherSame]
      exact scans
  | @cons result otherResult left otherLeft first later ih =>
      obtain ⟨steps, rfl⟩ := Nat.exists_eq_add_of_lt enough
      obtain ⟨otherSteps, rfl⟩ := Nat.exists_eq_add_of_lt otherEnough
      obtain ⟨next, tried, scan, there⟩ := before.attempt_of_line
      obtain ⟨otherNext, otherTried, otherScan, otherThere⟩ := otherBefore.attempt_of_line
      obtain ⟨settled, given⟩ := settle_alike scans first (number + 1)
      rw [← scan, ← otherScan] at settled
      rw [nextWithin_succ, nextWithin_succ, tried, otherTried]
      rcases given with ⟨aside, otherAside⟩ | ⟨step, otherStep, steps, gives, otherGives⟩
      · simp only [aside, otherAside]
        refine ih settled there otherThere ?_ ?_ <;> rw [List.length_cons] <;> omega
      · simp only [gives, otherGives]
        exact ⟨steps, settled, compiled, number + 1, _, _, left, otherLeft, there, otherThere,
          later⟩

theorem InStep.next {one other : LineIteration} (inStep : InStep same one other) :
    StepsAlike same one.next.1 other.next.1 ∧ InStep same one.next.2 other.next.2 := by
  obtain ⟨scans, compiled, number, line, otherLine, left, otherLeft, before, otherBefore, alike⟩ :=
    inStep
  have bound := before.length_le
  have otherBound := otherBefore.length_le
  rw [List.length_map] at bound otherBound
  rw [next_eq, next_eq]
  refine nextWithin_alike scans before otherBefore alike (by omega) ?_
  rw [alike.length_eq]
  omega

theorem InStep.after {one other : LineIteration} (inStep : InStep same one other) (count : Nat) :
    InStep same (one.after count) (other.after count) := by
  induction count with
  | zero => exact inStep
  | succ count ih => exact ih.next.2

/-! ## From the first line on -/

end LineIteration

open Scan (Stop Echoes aloneOutcome)

theorem Line.exists_onLine_nth {base : ByteReader} (steady : base.Steady) (number : Nat) :
    ∃ reader, OnLine (nth base.consumed base.chunks number) []
      (nth base.consumed base.chunks number).chunks reader := by
  induction number with
  | zero => exact ⟨_, OnLine.start steady⟩
  | succ number ih =>
      obtain ⟨reader, onLine⟩ := ih
      obtain ⟨after, _, next⟩ := onLine.nextLine
      exact ⟨after, next⟩

/-- What the lines come to one by one is what each of them comes to alone. -/
theorem Yields.echoes_getElem {compiled : Except PatternFault CompiledPlan} {offset number : Nat}
    {chunks : List (List UInt8)} {results : List (Except Stop (List Value))}
    (yields : Yields compiled number (.nth offset chunks number) results) {index : Nat}
    (bound : index < results.length) :
    Echoes (number + index + 1) (Line.nth offset chunks (number + index)).before
      (aloneOutcome compiled (.nth offset chunks (number + index))) results[index] := by
  induction index generalizing number results with
  | zero =>
      cases yields with
      | done none => simp at bound
      | line _ echoes _ => exact echoes
  | succ index ih =>
      cases yields with
      | done none => simp at bound
      | line _ _ later =>
          have there := ih later (Nat.lt_of_succ_lt_succ bound)
          rwa [Nat.add_assoc number 1 index, Nat.add_comm 1 index] at there

namespace LineIteration

variable {compiled : CompiledPlan} {base other : ByteReader}

theorem exists_results_of_start (compiled : CompiledPlan) (steady : base.Steady) :
    ∃ results : List LineResult, results.length = (linesOf base.rest).length ∧
      (∀ errors, Before (.ok compiled) 0 (.nth base.consumed base.chunks 0)
        (results.map outcomeOf) (start compiled errors base)) ∧
      ∀ number, ∀ bound : number < results.length,
        Echoes (number + 1) (Line.nth base.consumed base.chunks number).before
          (aloneOutcome (.ok compiled) (.nth base.consumed base.chunks number))
          (outcomeOf results[number]) := by
  have onLine := OnLine.start steady
  obtain ⟨outcomes, yields⟩ := exists_yields (.ok compiled) onLine 0
  obtain ⟨results, rfl⟩ := yields.exists_results onLine
  refine ⟨results, ?_, fun errors => ⟨rfl, rfl, onLine, yields⟩, ?_⟩
  · rw [← yields.length_eq onLine, List.length_map]
  · intro number bound
    have inside : number < (results.map outcomeOf).length := by simpa using bound
    have echoes := Yields.echoes_getElem yields inside
    rwa [Nat.zero_add, List.getElem_map] at echoes

/-- Scans of as many lines, each of which comes to the same, go the same way. -/
theorem inStep_start (steady : base.Steady) (otherSteady : other.Steady)
    (count : (linesOf base.rest).length = (linesOf other.rest).length)
    (alike : ∀ number result otherResult,
      Echoes (number + 1) (Line.nth base.consumed base.chunks number).before
        (aloneOutcome (.ok compiled) (.nth base.consumed base.chunks number))
        (outcomeOf result) →
      Echoes (number + 1) (Line.nth other.consumed other.chunks number).before
        (aloneOutcome (.ok compiled) (.nth other.consumed other.chunks number))
        (outcomeOf otherResult) →
      number < (linesOf base.rest).length → ResultsAlike same result otherResult)
    (errors : LineErrors) :
    InStep same (start compiled errors base) (start compiled errors other) := by
  obtain ⟨results, length, before, echoes⟩ := exists_results_of_start compiled steady
  obtain ⟨otherResults, otherLength, otherBefore, otherEchoes⟩ :=
    exists_results_of_start compiled otherSteady
  refine ⟨⟨rfl, rfl, .nil⟩, .ok compiled, 0, _, _, results, otherResults, before errors,
    otherBefore errors, List.forall₂_iff_get.mpr ⟨by rw [length, otherLength, count], ?_⟩⟩
  intro number bound otherBound
  exact alike number _ _ (echoes number bound) (otherEchoes number otherBound) (length ▸ bound)

/-- When faults are given back, a request brings what the line of its number comes to. -/
theorem exists_result_of_raise (compiled : CompiledPlan) (steady : base.Steady) {number : Nat}
    (bound : number < (linesOf base.rest).length) :
    ∃ result, ((start compiled .raise base).after number).next.1 = stepOf (outcomeOf result) ∧
      Echoes (number + 1) (Line.nth base.consumed base.chunks number).before
        (aloneOutcome (.ok compiled) (.nth base.consumed base.chunks number))
        (outcomeOf result) := by
  obtain ⟨results, length, before, echoes⟩ := exists_results_of_start compiled steady
  have inside : number < results.length := length ▸ bound
  refine ⟨results[number], ?_, echoes number inside⟩
  rw [(after_of_raise (before .raise) rfl number).2, List.getElem?_map,
    List.getElem?_eq_getElem inside]
  rfl

end LineIteration

end Unformat
