import Unformat.Proofs.Scan.LineAttempts

/-!
# Every line is tried once

When the patterns of a plan can be read, only the text of a line can stop the attempt at it.  A scan
that puts such faults aside makes the same attempts as one that gives them back: it yields the same
values and keeps the same faults, with the numbers of their lines.
-/

namespace Unformat

open Scan (Stop Echoes)

/-- What an attempt at a line comes to when the patterns can be read. -/
abbrev LineResult := Except (Diagnostic ScanFault) (List Value)

def outcomeOf : LineResult → Except Stop (List Value) := Except.mapError .fault

theorem Yields.exists_results {compiled : CompiledPlan} {number : Nat} {line : Line}
    {outcomes : List (Except Stop (List Value))} {reader : Reader}
    (yields : Yields (.ok compiled) number line outcomes)
    (onLine : OnLine line [] line.chunks reader) :
    ∃ results : List LineResult, outcomes = results.map outcomeOf := by
  induction yields generalizing reader with
  | done none => exact ⟨[], rfl⟩
  | line _ echoes _ ih =>
      obtain ⟨result, rfl⟩ := echoes.exists_diagnostic onLine
      obtain ⟨after, _, next⟩ := onLine.nextLine
      obtain ⟨results, rfl⟩ := ih next
      exact ⟨result :: results, rfl⟩

/-! ## Values and faults -/

/-- The values among results. -/
def valuesOf (results : List LineResult) : List (List Value) :=
  results.filterMap Except.toOption

/-- The faults among the results of lines, with the numbers of the lines, when `number` lines are
before them. -/
def faultsFrom : Nat → List LineResult → List (Nat × Diagnostic ScanFault)
  | _, [] => []
  | number, .ok _ :: results => faultsFrom (number + 1) results
  | number, .error diagnostic :: results =>
      (number + 1, diagnostic) :: faultsFrom (number + 1) results

theorem lt_of_mem_faultsFrom {number : Nat} {results : List LineResult}
    {fault : Nat × Diagnostic ScanFault} (member : fault ∈ faultsFrom number results) :
    number < fault.1 := by
  induction results generalizing number with
  | nil => cases member
  | cons result results ih =>
      cases result with
      | ok _ => exact Nat.lt_of_succ_lt (ih member)
      | error diagnostic =>
          rcases List.mem_cons.mp member with rfl | member
          · exact Nat.lt_succ_self number
          · exact Nat.lt_of_succ_lt (ih member)

theorem pairwise_faultsFrom (number : Nat) (results : List LineResult) :
    (faultsFrom number results).Pairwise fun first second => first.1 < second.1 := by
  induction results generalizing number with
  | nil => exact .nil
  | cons result results ih =>
      cases result with
      | ok _ => exact ih (number + 1)
      | error diagnostic =>
          exact .cons (fun _ member => lt_of_mem_faultsFrom member) (ih (number + 1))

theorem length_valuesOf_add_length_faultsFrom (number : Nat) (results : List LineResult) :
    (valuesOf results).length + (faultsFrom number results).length = results.length := by
  induction results generalizing number with
  | nil => rfl
  | cons result results ih =>
      have later := ih (number + 1)
      cases result with
      | ok values =>
          have first : valuesOf (.ok values :: results) = values :: valuesOf results := rfl
          rw [first, faultsFrom, List.length_cons, List.length_cons]
          omega
      | error diagnostic =>
          have first : valuesOf (.error diagnostic :: results) = valuesOf results := rfl
          rw [first, faultsFrom, List.length_cons, List.length_cons]
          omega

/-! ## Asking when faults are put aside -/

namespace LineIteration

theorem settle_of_ok (scan : LineScan) (line : Nat) (values : List Value) :
    scan.settle ⟨line, .ok values, .ok ()⟩ =
      (some (.values values), { scan with lineNumber := line }) := by
  rfl

theorem settle_of_skip {scan : LineScan} (skips : scan.errors = .skip) (line : Nat)
    (diagnostic : Diagnostic ScanFault) :
    scan.settle ⟨line, .error (.fault diagnostic), .ok ()⟩ =
      (none, { scan with
        lineNumber := line, failures := scan.failures ++ [(line, diagnostic)] }) := by
  obtain ⟨errors, _, _⟩ := scan
  obtain rfl : errors = .skip := skips
  rfl

variable {compiled : Except PatternFault CompiledPlan} {number : Nat} {line : Line}
  {results : List LineResult} {values : List (List Value)}
  {faults : List (Nat × Diagnostic ScanFault)} {iteration : LineIteration}

/-- A scan that puts faults aside is still to bring the values, and will have kept the faults when
all lines have been tried. -/
structure Owes (compiled : Except PatternFault CompiledPlan) (values : List (List Value))
    (faults : List (Nat × Diagnostic ScanFault)) (iteration : LineIteration) : Prop where
  skips : iteration.scan.errors = .skip
  exists_left : ∃ number line left, Before compiled number line (left.map outcomeOf) iteration ∧
    valuesOf left = values ∧ iteration.scan.failures ++ faultsFrom number left = faults

/-- When faults are put aside, a request makes attempts up to the next line that matches, and if
there is none, up to the end. -/
theorem Before.nextWithin_of_skip
    (before : Before compiled number line (results.map outcomeOf) iteration)
    (skips : iteration.scan.errors = .skip)
    (kept : iteration.scan.failures ++ faultsFrom number results = faults) {steps : Nat}
    (enough : results.length < steps) :
    ∃ tried,
      iteration.nextWithin steps =
        ((valuesOf results).head?.elim .finished .values, iteration.afterAttempts tried) ∧
      Owes compiled (valuesOf results).tail faults (iteration.afterAttempts tried) ∧
      (valuesOf results = [] → (iteration.afterAttempts tried).scan.failures = faults) := by
  -- Along the results to come: a line that fails takes one step and leads to those behind it.
  induction results generalizing iteration number line steps with
  | nil =>
      obtain ⟨steps, rfl⟩ := Nat.exists_eq_add_of_lt enough
      obtain ⟨next, tried, same, there⟩ := before.attempt_of_none
      have after : iteration.afterAttempts 1 = next := congrArg Prod.snd tried
      refine ⟨1, before.nextWithin_of_none _, ?_⟩
      rw [after, same]
      rw [faultsFrom, List.append_nil] at kept
      exact ⟨⟨same ▸ skips, number, line, [], there, rfl, by simp [faultsFrom, same, kept]⟩,
        fun _ => kept⟩
  | cons result results ih =>
      obtain ⟨steps, rfl⟩ := Nat.exists_eq_add_of_lt enough
      obtain ⟨next, tried, scan, there⟩ := before.attempt_of_line
      have after : iteration.afterAttempts 1 = next := congrArg Prod.snd tried
      have still : next.scan.errors = .skip := by
        rw [scan, LineScan.settle_errors, skips]
      cases result with
      | ok values =>
          have settled := settle_of_ok iteration.scan (number + 1) values
          refine ⟨1, ?_, ?_, fun none => nomatch none⟩
          · rw [nextWithin_succ, tried, after]
            simp only [outcomeOf, Except.mapError, settled]
            rfl
          · rw [after]
            exact ⟨still, number + 1, line.next, results, there, rfl, scan ▸ kept⟩
      | error diagnostic =>
          have settled := settle_of_skip skips (number + 1) diagnostic
          simp only [outcomeOf, Except.mapError, settled] at tried scan
          have keeps : next.scan.failures ++ faultsFrom (number + 1) results = faults := by
            rw [scan, List.append_assoc]
            exact kept
          have fewer : results.length < (Except.error diagnostic :: results).length + steps := by
            rw [List.length_cons]
            omega
          obtain ⟨more, came, owes, ends⟩ := ih there still keeps fewer
          rw [← after, afterAttempts_add, Nat.add_comm 1 more] at came owes ends
          refine ⟨more + 1, ?_, owes, ends⟩
          rw [nextWithin_succ, tried]
          simp only [settled]
          rw [← after, came]
          rfl

theorem Owes.next (owes : Owes compiled values faults iteration) :
    ∃ tried,
      iteration.next = (values.head?.elim .finished .values, iteration.afterAttempts tried) ∧
      Owes compiled values.tail faults (iteration.afterAttempts tried) ∧
      (values = [] → (iteration.afterAttempts tried).scan.failures = faults) := by
  obtain ⟨skips, number, line, left, before, rfl, kept⟩ := owes
  have bound : left.length ≤ iteration.reader.bytesLeft := by simpa using before.length_le
  rw [next_eq]
  exact before.nextWithin_of_skip skips kept (Nat.lt_succ_of_le (Nat.le_succ_of_le bound))

/-- So many requests bring so many of the values, and one more keeps all faults. -/
theorem Owes.after (owes : Owes compiled values faults iteration) (asked : Nat) :
    (∃ tried, iteration.after asked = iteration.afterAttempts tried) ∧
      Owes compiled (values.drop asked) faults (iteration.after asked) ∧
      (values.length < asked → (iteration.after asked).scan.failures = faults) := by
  induction asked with
  | zero => exact ⟨⟨0, rfl⟩, owes, fun past => nomatch past⟩
  | succ asked ih =>
      obtain ⟨⟨tried, same⟩, here, _⟩ := ih
      obtain ⟨more, came, there, ends⟩ := here.next
      rw [LineIteration.after, came]
      refine ⟨⟨tried + more, by rw [same, afterAttempts_add]⟩, ?_, ?_⟩
      · rwa [List.tail_drop] at there
      · intro past
        exact ends (List.drop_of_length_le (Nat.lt_succ_iff.mp past))

/-! ## All lines -/

/-- The scan of the lines that a byte reader is to give. -/
def start (compiled : CompiledPlan) (errors : LineErrors) (base : ByteReader) : LineIteration :=
  { compiled := .ok compiled, scan := { errors }, reader := ⟨base, [false]⟩ }

/-- The attempt at a line, which has `number` lines before it, starts at its first byte, consumes
bytes of that line only, and comes to what the plan comes to over the line alone. -/
structure TriesLine (compiled : CompiledPlan) (lines : List (List UInt8)) (offset number : Nat)
    (outcome : Except Stop (List Value)) (iteration : LineIteration) : Prop where
  counts : iteration.scan.lineNumber = number
  starts : Within lines offset number [] (lines.getD number []) iteration.reader
  tries : ∃ next, iteration.attempt = (.ok (some ⟨number + 1, outcome, .ok ()⟩), next)
  keeps : ∃ came after taken left,
    Scan.outcome (Scan.execute (.ok compiled)) iteration.reader.atEnd.2 = (came, after) ∧
      Within lines offset number taken left after
  sees : ∃ pieces, Cuts (lines.getD number []) pieces ∧
    Echoes (number + 1) (offset + (lines.take number).flatten.length)
      (Scan.outcome (Scan.execute (.ok compiled)) (Reader.ofChunks pieces).byLine).1 outcome

theorem Before.triesLine {compiled : CompiledPlan} {offset : Nat} {chunks : List (List UInt8)}
    {outcome : Except Stop (List Value)} {outcomes : List (Except Stop (List Value))}
    (before : Before (.ok compiled) number (.nth offset chunks number) (outcome :: outcomes)
      iteration) :
    TriesLine compiled (linesOf chunks.flatten) offset number outcome iteration := by
  have onLine := before.onLine
  have bytes := onLine.bytes_eq
  rw [Line.bytes_nth, List.nil_append] at bytes
  obtain ⟨next, tried, _⟩ := before.attempt_of_line
  obtain ⟨middle, asked, still⟩ := onLine.atEnd
  obtain ⟨taken, left, came, after, ran, stays, _⟩ :=
    Scan.outcome_execute_of_onLine (.ok compiled) still (number + 1)
  refine ⟨before.number_eq, ?_, ⟨next, tried⟩, ⟨came, after, taken, left.flatten, ?_, stays.within⟩,
    ⟨(Line.nth offset chunks number).chunks, ⟨onLine.solid, bytes.symm⟩, ?_⟩⟩
  · rw [bytes]
    exact onLine.within
  · rw [asked]
    exact ran
  · rw [← Line.before_nth]
    cases before.yields with
    | line _ echoes _ => exact echoes

/-- A scan of the lines of a byte reader tries every line once, in order, and then stops.  Giving
back faults and putting them aside bring the same values and the same faults. -/
structure TriesEveryLine (compiled : CompiledPlan) (base : ByteReader) (results : List LineResult) :
    Prop where
  count : results.length =
    base.rest.count lineFeed + if base.rest.getLast?.all (· = lineFeed) then 0 else 1
  tries : ∀ errors number, ∀ bound : number < results.length,
    TriesLine compiled (linesOf base.rest) base.consumed number (outcomeOf results[number])
      ((start compiled errors base).afterAttempts number)
  ends : ∀ errors, ((start compiled errors base).afterAttempts results.length).attempt.1 = .ok none
  raises : ∀ asked,
    (start compiled .raise base).after asked = (start compiled .raise base).afterAttempts asked ∧
      ((start compiled .raise base).after asked).next.1 =
        results[asked]?.elim .finished fun result => stepOf (outcomeOf result)
  skips : ∀ asked,
    (∃ tried,
      (start compiled .skip base).after asked = (start compiled .skip base).afterAttempts tried) ∧
      ((start compiled .skip base).after asked).next.1 =
        (valuesOf results)[asked]?.elim .finished .values
  keepsFaults : ∀ asked, (valuesOf results).length < asked →
    ((start compiled .skip base).after asked).scan.failures = faultsFrom 0 results
  increasing : (faultsFrom 0 results).Pairwise fun first second => first.1 < second.1
  total : (valuesOf results).length + (faultsFrom 0 results).length = results.length

theorem tries_every_line (compiled : CompiledPlan) {base : ByteReader} (steady : base.Steady) :
    ∃ results, TriesEveryLine compiled base results := by
  have onLine := OnLine.start steady
  obtain ⟨outcomes, yields⟩ := exists_yields (.ok compiled) onLine 0
  obtain ⟨results, rfl⟩ := yields.exists_results onLine
  have lines := yields.length_eq onLine
  rw [List.length_map] at lines
  have before (errors : LineErrors) : Before (.ok compiled) 0 (.nth base.consumed base.chunks 0)
      (results.map outcomeOf) (start compiled errors base) := ⟨rfl, rfl, onLine, yields⟩
  have owes : Owes (.ok compiled) (valuesOf results) (faultsFrom 0 results)
      (start compiled .skip base) := ⟨rfl, 0, _, results, before .skip, rfl, rfl⟩
  refine ⟨results, ?_, ?_, ?_, ?_, ?_, ?_, pairwise_faultsFrom 0 results,
    length_valuesOf_add_length_faultsFrom 0 results⟩
  · exact lines.trans (length_linesOf _)
  · intro errors number bound
    have here := before_afterAttempts (before errors) number (by simpa using Nat.le_of_lt bound)
    rw [← List.map_drop, List.drop_eq_getElem_cons bound] at here
    exact here.triesLine
  · intro errors
    have all : (results.map outcomeOf).length ≤ results.length :=
      Nat.le_of_eq (List.length_map outcomeOf)
    have last := before_afterAttempts_of_le (before errors) all
    obtain ⟨next, tried, _⟩ := last.attempt_of_none
    rw [tried]
  · intro asked
    have given := after_of_raise (before .raise) rfl asked
    rwa [List.getElem?_map, Option.elim_map] at given
  · intro asked
    obtain ⟨tried, here, _⟩ := owes.after asked
    obtain ⟨_, came, _⟩ := here.next
    rw [came, List.head?_drop]
    exact ⟨tried, rfl⟩
  · intro asked past
    exact (owes.after asked).2.2 past

/-- Two lines, the second of which has no line feed, when the first read ends before the line feed
of the first line. -/
theorem tries_every_line_of_two :
    let compiled : CompiledPlan := ⟨⟨[.literal "a"], [], 0, ""⟩, []⟩
    let base : ByteReader := { pending := [.data [0x61], .data [0x0A, 0x62]] }
    base.Steady ∧ ∃ results, TriesEveryLine compiled base results :=
  ⟨fun _ => .more (.more .nil), tries_every_line _ fun _ => .more (.more .nil)⟩

end LineIteration

end Unformat
