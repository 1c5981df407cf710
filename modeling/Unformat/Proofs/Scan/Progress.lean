import Unformat.Proofs.CommandLine.Writing
import Unformat.Proofs.Scan.Advancing

/-!
# Whether runs back to back come to an end

The runs of a plan whose texts are never all empty, and runs with a separator between them, come to
an end after no more of them than there are bytes.  In general they come to an end unless one of
them leaves the reader as it was: then every later one brings the same values and leaves it so, for
ever.
-/

namespace Unformat

open Scan (Known Takes TakesAll)
open Text (Utf8.encode)

/-! ## Plans whose runs take a text -/

namespace CompiledPlan

/-- The segment never takes the empty text. -/
def TakesCharacter (compiled : CompiledPlan) : PlanSegment → Prop
  | .literal text => text ≠ ""
  | .capture _ index => ∀ shown length,
      compiled.matcher index shown = .matched length → shown.take length ≠ []

/-- Some segment never takes the empty text. -/
def TakesText (compiled : CompiledPlan) : Prop :=
  ∃ segment ∈ compiled.plan.segments, compiled.TakesCharacter segment

end CompiledPlan

variable {compiled : CompiledPlan}

theorem Scan.Takes.ne_nil {remaining : List UInt8} {segment : PlanSegment} {text : List Char}
    {outputs : List (Nat × Value)} (takes : Takes compiled remaining segment text outputs)
    (character : compiled.TakesCharacter segment) : text ≠ [] := by
  cases takes with
  | literal text => simpa [CompiledPlan.TakesCharacter] using character
  | untyped found untyped finds =>
      obtain ⟨shown, length, _, matched, rfl⟩ := finds
      exact character shown length matched
  | typed found typed finds converts =>
      obtain ⟨shown, length, _, matched, rfl⟩ := finds
      exact character shown length matched

theorem Scan.TakesAll.flatMap_ne_nil {remaining : List UInt8} {segments : List PlanSegment}
    {texts : List (List Char)} {outputs : List (Nat × Value)}
    (takes : TakesAll compiled remaining segments texts outputs)
    (some : ∃ segment ∈ segments, compiled.TakesCharacter segment) :
    texts.flatMap Utf8.encode ≠ [] := by
  induction takes with
  | nil => simp at some
  | @cons remaining segment rest text texts first others here later ih =>
      obtain ⟨other, member, character⟩ := some
      rw [List.flatMap_cons]
      rcases List.mem_cons.mp member with rfl | member
      · have taken := mt Text.Utf8.encode_eq_nil_iff.mp (here.ne_nil character)
        exact List.append_ne_nil_of_left_ne_nil taken _
      · exact List.append_ne_nil_of_right_ne_nil _ (ih ⟨other, member, character⟩)

/-- A run that begins now takes something. -/
def RepeatedScan.TakesText (scan : RepeatedScan) (compiled : CompiledPlan) : Prop :=
  compiled.TakesText ∨ scan.between ≠ ""

theorem RepeatedScan.Takes.ne_nil {scan : RepeatedScan} {remaining taken : List UInt8}
    (takes : scan.Takes compiled remaining taken) (some : scan.TakesText compiled) :
    taken ≠ [] := by
  obtain ⟨texts, outputs, all, rfl⟩ := takes
  rcases some with some | between
  · exact List.append_ne_nil_of_right_ne_nil _ (all.flatMap_ne_nil some)
  · refine List.append_ne_nil_of_left_ne_nil ?_ _
    exact mt Text.Utf8.encode_eq_nil_iff.mp (by simpa using between)

namespace RepeatedIteration

variable {iteration : RepeatedIteration}

/-! ## Requests one after the other -/

/-- What a request brings, after so many others. -/
def brings (asked : Nat) (iteration : RepeatedIteration) : ScanStep :=
  (iteration.after asked).next.1

theorem after_succ (asked : Nat) (iteration : RepeatedIteration) :
    iteration.after (asked + 1) = (iteration.after asked).next.2 := by
  induction asked generalizing iteration with
  | zero => rfl
  | succ asked ih => exact ih iteration.next.2

theorem next_of_done (done : iteration.scan.done = true) :
    iteration.next = (.finished, iteration) := by
  simp only [RepeatedIteration.next, RepeatedScan.next, done, if_true]

theorem after_of_done (done : iteration.scan.done = true) (asked : Nat) :
    iteration.after asked = iteration := by
  induction asked with
  | zero => rfl
  | succ asked ih => rw [after, next_of_done done, ih]

/-- What holds before and after each request: the iteration goes on, or it is over. -/
theorem Running.after (known : Known compiled compiled.plan.segments)
    (running : Running compiled iteration) (asked : Nat) :
    (Running compiled (iteration.after asked) ∧
      (iteration.after asked).scan.separator = iteration.scan.separator ∧
      (0 < asked → (iteration.after asked).scan.between = iteration.scan.separator.getD "")) ∨
    (iteration.after asked).scan.done = true := by
  induction asked with
  | zero => exact .inl ⟨running, rfl, by simp⟩
  | succ asked ih =>
      rw [after_succ]
      rcases ih with ⟨going, separator, _⟩ | done
      · rcases going.next known with ⟨values, taken, _, runs, still⟩ | ⟨_, done⟩
        · left
          refine ⟨still, runs.separator_eq.trans separator, fun _ => ?_⟩
          rw [runs.between_eq, separator]
        · exact .inr done
      · right
        rw [next_of_done done]
        exact done

/-- A request that brings values has made a run. -/
theorem Running.runs_of_brings (known : Known compiled compiled.plan.segments)
    (running : Running compiled iteration) {asked : Nat} {values : List Value}
    (brought : iteration.brings asked = .values values) :
    ∃ taken, Runs compiled taken (iteration.after asked) (iteration.after (asked + 1)) ∧
      (0 < asked → (iteration.after asked).scan.between = iteration.scan.separator.getD "") := by
  rw [brings] at brought
  rcases running.after known asked with ⟨going, _, between⟩ | done
  · rcases going.next known with ⟨others, taken, _, runs, _⟩ | ⟨finished, _⟩
    · rw [after_succ]
      exact ⟨taken, runs, between⟩
    · rw [finished] at brought
      cases brought
  · rw [next_of_done done] at brought
    cases brought

/-! ## Coming to an end -/

/-- So many requests bring values, and then the iteration is over for good. -/
structure Ends (count : Nat) (iteration : RepeatedIteration) : Prop where
  values : ∀ asked < count, ∃ values, iteration.brings asked = .values values
  finished : ∀ asked, count ≤ asked → iteration.brings asked = .finished

theorem ends_of_finished (brought : iteration.next.1 = .finished)
    (done : iteration.next.2.scan.done = true) : Ends 0 iteration where
  values := by simp
  finished := by
    intro asked _
    cases asked with
    | zero => exact brought
    | succ asked => rw [brings, RepeatedIteration.after, after_of_done done, next_of_done done]

theorem Ends.behind {count : Nat} {values : List Value}
    (brought : iteration.next.1 = .values values) (ends : Ends count iteration.next.2) :
    Ends (count + 1) iteration where
  values := by
    intro asked less
    cases asked with
    | zero => exact ⟨values, brought⟩
    | succ asked => exact ends.values asked (by omega)
  finished := by
    intro asked past
    cases asked with
    | zero => omega
    | succ asked => exact ends.finished asked (by omega)

theorem Ends.tail {count : Nat} (ends : Ends (count + 1) iteration) :
    Ends count iteration.next.2 where
  values asked less := ends.values (asked + 1) (by omega)
  finished asked past := ends.finished (asked + 1) (by omega)

/-- Runs that each take something come to an end. -/
theorem Running.ends_of_takesText (known : Known compiled compiled.plan.segments)
    (running : Running compiled iteration)
    (some : compiled.TakesText ∨
      iteration.scan.between ≠ "" ∧ iteration.scan.separator.getD "" ≠ "") :
    ∃ count ≤ iteration.reader.base.rest.length, Ends count iteration := by
  -- Each run leaves fewer bytes to be given.
  induction size : iteration.reader.base.rest.length using Nat.strongRecOn
    generalizing iteration with
  | _ size ih =>
      rcases running.next known with ⟨values, taken, brought, runs, still⟩ | ⟨brought, done⟩
      · have solid := List.length_pos_of_ne_nil (runs.takes.ne_nil (some.imp_right And.left))
        have fewer := runs.rest_eq
        have again : compiled.TakesText ∨
            iteration.next.2.scan.between ≠ "" ∧
              iteration.next.2.scan.separator.getD "" ≠ "" := by
          rw [runs.between_eq, runs.separator_eq]
          exact some.imp_right fun both => ⟨both.2, both.2⟩
        obtain ⟨count, within, ends⟩ := ih _ (by omega) still again rfl
        exact ⟨count + 1, by omega, ends.behind brought⟩
      · exact ⟨0, Nat.zero_le _, ends_of_finished brought done⟩

/-- Runs with a separator between them come to an end.  In front of the first run no separator has
to stand, so it may take nothing. -/
theorem Running.ends_of_separator (known : Known compiled compiled.plan.segments)
    (running : Running compiled iteration) (solid : iteration.scan.separator.getD "" ≠ "") :
    ∃ count ≤ iteration.reader.base.rest.length + 1, Ends count iteration := by
  rcases running.next known with ⟨values, taken, brought, runs, going⟩ | ⟨brought, done⟩
  · have between : iteration.next.2.scan.between ≠ "" := by
      rw [runs.between_eq]
      exact solid
    have separated : iteration.next.2.scan.separator.getD "" ≠ "" := by
      rw [runs.separator_eq]
      exact solid
    obtain ⟨count, within, ends⟩ := going.ends_of_takesText known (.inr ⟨between, separated⟩)
    have fewer := runs.rest_eq
    exact ⟨count + 1, by omega, ends.behind brought⟩
  · exact ⟨0, Nat.zero_le _, ends_of_finished brought done⟩

/-! ## Going on for ever -/

/-- From now on every request brings the same values and leaves the reader as it is. -/
def Stalls (values : List Value) (iteration : RepeatedIteration) : Prop :=
  ∀ asked, iteration.brings asked = .values values ∧
    (iteration.after asked).reader = iteration.reader

/-- How many runs there have been makes no difference to the next one, as long as the same text has
to stand in front of it. -/
theorem next_congr {scan other : RepeatedScan} (unfinished : scan.done = false)
    (otherUnfinished : other.done = false) (same : other.between = scan.between)
    (compiled : Except PatternFault CompiledPlan) (reader : Reader) :
    (other.next compiled reader).1 = (scan.next compiled reader).1 ∧
      (other.next compiled reader).2.2 = (scan.next compiled reader).2.2 := by
  have step : other.step compiled = scan.step compiled := by
    rw [RepeatedScan.step_eq, RepeatedScan.step_eq, same]
  simp only [RepeatedScan.next, unfinished, otherUnfinished, Bool.false_eq_true, if_false, step]
  rcases reader.peek with ⟨_ | ⟨_ | _⟩, after⟩
  · exact ⟨rfl, rfl⟩
  · exact ⟨rfl, rfl⟩
  · dsimp only
    rcases (scan.step compiled).run.run after with ⟨(_ | _ | _) | _, _⟩ <;> exact ⟨rfl, rfl⟩

theorem Running.stalls (known : Known compiled compiled.plan.segments)
    (running : Running compiled iteration) {values : List Value}
    (brought : iteration.next.1 = .values values)
    (still : iteration.next.2.reader = iteration.reader)
    (between : iteration.scan.between = iteration.scan.separator.getD "") :
    Stalls values iteration := by
  intro asked
  induction asked generalizing iteration with
  | zero => exact ⟨brought, rfl⟩
  | succ asked ih =>
      rcases running.next known with ⟨_, taken, _, runs, going⟩ | ⟨finished, _⟩
      swap
      · rw [finished] at brought
        cases brought
      have alike := next_congr running.unfinished going.unfinished
        (runs.between_eq.trans between.symm) iteration.compiled iteration.reader
      have again : iteration.next.2.next.1 = .values values := by
        rw [← brought, RepeatedIteration.next, still]
        exact alike.1
      have there : iteration.next.2.next.2.reader = iteration.next.2.reader := by
        refine Eq.trans ?_ (alike.2.trans rfl)
        rw [RepeatedIteration.next, still]
        rfl
      obtain ⟨later, place⟩ := ih going again there (by rw [runs.between_eq, runs.separator_eq])
      exact ⟨later, place.trans still⟩

/-- Runs with the same text in front of each come to an end, or one leaves the reader as it was. -/
theorem Running.ends_or_stalls (known : Known compiled compiled.plan.segments)
    (running : Running compiled iteration)
    (between : iteration.scan.between = iteration.scan.separator.getD "") :
    ∃ count ≤ iteration.reader.ahead,
      Ends count iteration ∨ ∃ values, Stalls values (iteration.after count) := by
  -- A run that does not leave the reader as it was leaves less before it.
  induction size : iteration.reader.ahead using Nat.strongRecOn generalizing iteration with
  | _ size ih =>
      rcases running.next known with ⟨values, taken, brought, runs, going⟩ | ⟨brought, done⟩
      · rcases runs.goesOn with still | less
        · exact ⟨0, Nat.zero_le _, .inr ⟨values, running.stalls known brought still between⟩⟩
        · obtain ⟨count, within, cases⟩ := ih _ (by omega) going
            (by rw [runs.between_eq, runs.separator_eq]) rfl
          refine ⟨count + 1, by omega, ?_⟩
          exact cases.imp_left (Ends.behind brought)
      · exact ⟨0, Nat.zero_le _, .inl (ends_of_finished brought done)⟩

/-- In front of the first run there is no separator, so one run more may leave the reader as it
was. -/
theorem Running.ends_or_stalls_of_start (known : Known compiled compiled.plan.segments)
    (running : Running compiled iteration) :
    ∃ count ≤ iteration.reader.ahead + 1,
      Ends count iteration ∨ ∃ values, Stalls values (iteration.after count) := by
  rcases running.next known with ⟨values, taken, brought, runs, going⟩ | ⟨brought, done⟩
  · obtain ⟨count, within, cases⟩ :=
      going.ends_or_stalls known (by rw [runs.between_eq, runs.separator_eq])
    have fewer : iteration.next.2.reader.ahead ≤ iteration.reader.ahead := by
      rcases runs.goesOn with same | less
      · rw [same]
      · exact less.le
    exact ⟨count + 1, by omega, cases.imp_left (Ends.behind brought)⟩
  · exact ⟨0, Nat.zero_le _, .inl (ends_of_finished brought done)⟩

theorem Stalls.next {values : List Value} (stalls : Stalls values iteration) :
    Stalls values iteration.next.2 := by
  intro asked
  obtain ⟨brought, place⟩ := stalls (asked + 1)
  exact ⟨brought, place.trans (stalls 1).2.symm⟩

/-! ## Plans whose patterns cannot be read -/

theorem next_ne_values {fault : PatternFault} (uncompiled : iteration.compiled = .error fault)
    (values : List Value) : iteration.next.1 ≠ .values values := by
  obtain ⟨_, scan, reader⟩ := iteration
  obtain rfl := uncompiled
  have stops (here : Reader) : ∃ stop after,
      Scan.outcome (scan.step (.error fault)) here = (.error stop, after) := by
    rw [RepeatedScan.step_eq, Scan.outcome_bind]
    rcases Scan.outcome (Scan.matchLiteral scan.between) here with ⟨_ | _, after⟩
    · exact ⟨_, after, rfl⟩
    · exact ⟨_, after, rfl⟩
  unfold RepeatedIteration.next RepeatedScan.next
  by_cases done : scan.done = true
  · simp [done]
  rcases reader.peek with ⟨_ | ⟨_ | _⟩, here⟩
  · simp [done]
  · simp [done]
  · obtain ⟨stop, after, stopped⟩ := stops here
    unfold Scan.outcome at stopped
    cases stop <;> simp [done, stopped]

theorem compiled_after (asked : Nat) (iteration : RepeatedIteration) :
    (iteration.after asked).compiled = iteration.compiled := by
  induction asked generalizing iteration with
  | zero => rfl
  | succ asked ih => exact ih iteration.next.2

end RepeatedIteration

/-! ## The program -/

namespace CommandLine

open RepeatedIteration (Ends Running Stalls ends_of_finished)

variable {iteration : RepeatedIteration} {scanner : Scanner}

theorem scan_next_eq (compiles : iteration.compiled = scanner.compiled) :
    iteration.scan.next scanner.compiled iteration.reader =
      (iteration.next.1, iteration.next.2.scan, iteration.next.2.reader) := by
  rw [← compiles]
  rfl

/-- One more run is written: entries about it, its values, and what comes behind them. -/
theorem runRepeated_succ_of_values (settings : Settings)
    (compiles : iteration.compiled = scanner.compiled) {values : List Value}
    (brought : iteration.next.1 = .values values) :
    ∃ entries, ∀ steps,
      runRepeated settings scanner (steps + 1) iteration.scan iteration.reader =
        (runRepeated settings scanner steps iteration.next.2.scan iteration.next.2.reader).after
          (entries ++ [writing settings values]) := by
  refine ⟨compilingOnce settings scanner
    (decide (iteration.scan.begun = 0 ∧ iteration.next.2.scan.begun = 1)), fun steps => ?_⟩
  rw [runRepeated, scan_next_eq compiles, brought]
  exact Transcript.after_after _ _ _

theorem runRepeated_succ_of_finished (settings : Settings)
    (compiles : iteration.compiled = scanner.compiled) (brought : iteration.next.1 = .finished) :
    ∃ entries, ∀ steps,
      runRepeated settings scanner (steps + 1) iteration.scan iteration.reader =
        (finishRepeated settings iteration.next.2.scan).after entries := by
  refine ⟨compilingOnce settings scanner
    (decide (iteration.scan.begun = 0 ∧ iteration.next.2.scan.begun = 1)), fun steps => ?_⟩
  rw [runRepeated, scan_next_eq compiles, brought]

/-- Runs that come to an end are written to their end. -/
theorem runRepeated_of_ends (settings : Settings)
    (compiles : iteration.compiled = scanner.compiled) {count : Nat}
    (ends : Ends count iteration) :
    ∃ front, ∀ steps, count < steps →
      runRepeated settings scanner steps iteration.scan iteration.reader =
        (finishRepeated settings (iteration.after (count + 1)).scan).after front := by
  induction count generalizing iteration with
  | zero =>
      obtain ⟨entries, written⟩ :=
        runRepeated_succ_of_finished settings compiles (ends.finished 0 (Nat.zero_le 0))
      refine ⟨entries, ?_⟩
      rintro (_ | steps) more
      · omega
      · exact written steps
  | succ count ih =>
      obtain ⟨values, brought⟩ := ends.values 0 (Nat.zero_lt_succ count)
      obtain ⟨entries, first⟩ := runRepeated_succ_of_values settings compiles brought
      obtain ⟨front, later⟩ := @ih iteration.next.2 compiles ends.tail
      refine ⟨entries ++ [writing settings values] ++ front, ?_⟩
      rintro (_ | steps) more
      · omega
      · rw [first steps, later steps (by omega), Transcript.after_after]
        rfl

/-- Runs that go on for ever are written for ever, and there is no exit code. -/
theorem runRepeated_of_stalls {compiled : CompiledPlan}
    (known : Known compiled compiled.plan.segments) (settings : Settings)
    (running : Running compiled iteration) (compiles : scanner.compiled = .ok compiled)
    {values : List Value} {asked : Nat} (stalls : Stalls values (iteration.after asked))
    (steps : Nat) :
    (runRepeated settings scanner steps iteration.scan iteration.reader).exitCode = none ∧
      steps - asked ≤
        (runRepeated settings scanner steps iteration.scan iteration.reader).events.count
          (writing settings values) := by
  induction steps generalizing iteration asked with
  | zero => exact ⟨rfl, by omega⟩
  | succ steps ih =>
      have same := running.compiled_eq.trans compiles.symm
      rcases running.next known with ⟨others, taken, brought, runs, going⟩ | ⟨finished, done⟩
      · obtain ⟨entries, written⟩ := runRepeated_succ_of_values settings same brought
        rw [written steps, Transcript.exitCode_after, Transcript.after, List.count_append,
          List.count_append]
        cases asked with
        | zero =>
            have first : iteration.brings 0 = .values values := (stalls 0).1
            obtain rfl : values = others := ScanStep.values.inj (first.symm.trans brought)
            have behind : Stalls values (iteration.next.2.after 0) := stalls.next
            obtain ⟨endless, later⟩ := ih going behind
            rw [List.count_singleton_self]
            exact ⟨endless, by omega⟩
        | succ asked =>
            have behind : Stalls values (iteration.next.2.after asked) := stalls
            obtain ⟨endless, later⟩ := ih going behind
            exact ⟨endless, by omega⟩
      · have ended := (ends_of_finished finished done).finished asked
          (Nat.zero_le asked)
        have goes : iteration.brings asked = .values values := (stalls 0).1
        rw [ended] at goes
        cases goes

end CommandLine

namespace RepeatedIteration

open CommandLine (finishRepeated runBound runRepeated writing)

theorem ahead_lt_runBound (reader : Reader) : reader.ahead + 1 < runBound reader := by
  rw [Reader.ahead, Reader.length_remaining_eq, runBound]
  split <;> omega

/-- When no read fails, what the runs of a bound plan back to back come to hangs on whether a run
can take nothing.  Each request that brings values consumes the text that has to stand in front of
the run and the texts of its segments, and nothing else.  If some segment never takes the empty
text, there are no more runs than bytes; with a separator, no more than one beyond that.  In any
case the runs come to an end, and the program writes them to their end, unless some run leaves the
reader as it was: then every later one brings the same values and leaves it so, and the program
writes them for ever, without an exit code.  A plan whose patterns cannot be read brings no values
at all. -/
theorem ends_unless_run_leaves_reader {segments : List Segment} {rules : RuleList}
    {template : String} {compiled : CompiledPlan}
    (bound : Plan.bind segments rules template = .ok compiled.plan) (separator : Option String)
    {base : ByteReader} (steady : base.Steady) :
    let iteration := start (.ok compiled) separator base
    (∀ asked values, iteration.brings asked = .values values →
      let here := iteration.after asked
      ∃ taken, here.scan.Takes compiled here.reader.remaining taken ∧
        (iteration.after (asked + 1)).reader.consumed = here.reader.consumed + taken.length ∧
          (compiled.TakesText ∨ 0 < asked ∧ separator.getD "" ≠ "" → 0 < taken.length)) ∧
    (compiled.TakesText → ∃ count ≤ base.rest.length, Ends count iteration) ∧
    (separator.getD "" ≠ "" → ∃ count ≤ base.rest.length + 1, Ends count iteration) ∧
    (∃ count, count < runBound iteration.reader ∧
      ((Ends count iteration ∧ ∀ settings scanner, scanner.compiled = .ok compiled →
        ∃ front, ∀ steps, runBound iteration.reader ≤ steps →
          runRepeated settings scanner steps iteration.scan iteration.reader =
            (finishRepeated settings (iteration.after (count + 1)).scan).after front) ∨
      ∃ values, Stalls values (iteration.after count) ∧
        ∀ settings scanner, scanner.compiled = .ok compiled → ∀ steps,
          (runRepeated settings scanner steps iteration.scan iteration.reader).exitCode = none ∧
            steps - count ≤
              (runRepeated settings scanner steps iteration.scan iteration.reader).events.count
                (writing settings values))) ∧
    ∀ fault asked values, (start (.error fault) separator base).brings asked ≠ .values values := by
  intro iteration
  have known : Known compiled compiled.plan.segments := (Plan.wellSlotted_of_bind bound).rule_lt
  have running : Running compiled iteration := running_start compiled separator steady
  refine ⟨?_, ?_, ?_, ?_, ?_⟩
  · intro asked values brought
    obtain ⟨taken, runs, between⟩ := running.runs_of_brings known brought
    refine ⟨taken, runs.takes, runs.consumed_eq, fun some => List.length_pos_of_ne_nil ?_⟩
    apply runs.takes.ne_nil
    rcases some with some | ⟨later, solid⟩
    · exact .inl some
    · right
      rw [between later]
      exact solid
  · intro some
    exact running.ends_of_takesText known (.inl some)
  · intro solid
    exact running.ends_of_separator known solid
  · have few := ahead_lt_runBound iteration.reader
    obtain ⟨count, within, cases⟩ := running.ends_or_stalls_of_start known
    refine ⟨count, by omega, ?_⟩
    rcases cases with ends | ⟨values, stalls⟩
    · refine .inl ⟨ends, fun settings scanner compiles => ?_⟩
      obtain ⟨front, written⟩ := CommandLine.runRepeated_of_ends settings
        (running.compiled_eq.trans compiles.symm) ends
      exact ⟨front, fun steps enough => written steps (by omega)⟩
    · refine .inr ⟨values, stalls, fun settings scanner compiles steps => ?_⟩
      exact CommandLine.runRepeated_of_stalls known settings running compiles stalls steps
  · intro fault asked values
    apply next_ne_values
    exact compiled_after asked _

/-- A literal is taken before the digits, of which there may be none. -/
theorem ends_when_literal_is_taken :
    let plan : Plan := ⟨[.literal "x", .capture (some 0) 0], [.custom "[0-9]*" .string], 1, ""⟩
    let compiled : CompiledPlan :=
      ⟨plan, [fun shown => .matched (shown.takeWhile Char.isDigit).length]⟩
    let base := (Reader.ofChunks [[0x78, 0x31], [0x78]]).base
    Plan.bind [.literal "x", .capture ⟨.next, .next⟩ 1]
        { positional := [.custom "[0-9]*" .string] } "" = .ok compiled.plan ∧
      base.Steady ∧ compiled.TakesText ∧
        ∃ count ≤ base.rest.length, Ends count (start (.ok compiled) none base) := by
  intro plan compiled base
  have bound : Plan.bind [.literal "x", .capture ⟨.next, .next⟩ 1]
      { positional := [.custom "[0-9]*" .string] } "" = .ok compiled.plan := by cbv
  have steady : base.Steady := fun _ => unfailing_data [[0x78, 0x31], [0x78]]
  have some : compiled.TakesText := by
    refine ⟨.literal "x", List.mem_cons_self, ?_⟩
    rw [CompiledPlan.TakesCharacter]
    decide
  exact ⟨bound, steady, some, (ends_unless_run_leaves_reader bound none steady).2.1 some⟩

/-- Digits of which there may be none, over a text that has none: every request brings the empty
text, and nothing is ever consumed. -/
theorem empty_runs_for_ever :
    let plan : Plan := ⟨[.capture (some 0) 0], [.custom "[0-9]*" .string], 1, "\x7b\x7d"⟩
    let iteration := ofChunks plan none [[0x61]]
    Plan.build "\x7b\x7d" { positional := [.custom "[0-9]*" .string] } = .ok plan ∧
      ∀ asked, iteration.brings asked = .values [.text ""] ∧
        (iteration.after asked).reader.consumed = 0 := by
  intro plan iteration
  obtain ⟨compiled, compiles, planned⟩ : ∃ compiled, plan.compile = .ok compiled ∧
      compiled.plan = plan := ⟨_, rfl, rfl⟩
  have known : Known compiled compiled.plan.segments := by
    rw [Known, planned]
    intro slot index member
    obtain ⟨-, rfl⟩ : some 0 = slot ∧ 0 = index := by simpa [plan, eq_comm] using member
    exact Nat.zero_lt_one
  have steady : iteration.next.2.reader.base.Steady := by
    have none : iteration.next.2.reader.base.pending = [] := by decide +kernel
    intro _
    rw [none]
    exact .nil
  have running : Running compiled iteration.next.2 :=
    ⟨compiles, by decide +kernel, by decide +kernel, steady⟩
  have stalls : Stalls [.text ""] iteration.next.2 :=
    running.stalls known (by decide +kernel) (by decide +kernel) (by decide +kernel)
  refine ⟨by cbv, ?_⟩
  rintro (_ | asked)
  · exact ⟨by decide +kernel, rfl⟩
  · obtain ⟨brought, place⟩ := stalls asked
    refine ⟨brought, ?_⟩
    have nothing : iteration.next.2.reader.consumed = 0 := by decide +kernel
    rw [RepeatedIteration.after, place, nothing]

end RepeatedIteration

end Unformat
