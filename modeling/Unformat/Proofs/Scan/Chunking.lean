import Unformat.Proofs.Input.Chunks
import Unformat.Proofs.Pattern.Defaults
import Unformat.Proofs.Plan.Compiling
import Unformat.Proofs.Scan.Whole
import Unformat.Scanner

/-!
# Where the reads end

A plan whose patterns are default patterns of single tokens comes to the same on every way to cut
the same bytes into chunks, in one run and in runs back to back.
-/

namespace Unformat

open Pattern

/-! ## Plans of token types -/

theorem conclusive_of_settles {pattern : Pattern} (plain : pattern.plain)
    (settles : SettlesAlone pattern) : Whole.Conclusive pattern.run where
  within text length matched := (describes_of_run_eq_matched plain matched).2
  stands text more satisfied := by
    cases verdict : pattern.run text with
    | matched length =>
        have within := (describes_of_run_eq_matched plain verdict).2
        have other : length ≠ text.length := by simpa [verdict, Scan.wantsMore] using satisfied
        exact run_append_of_matched plain settles verdict (by omega) more
    | starved => simp [verdict, Scan.wantsMore] at satisfied
    | failed => exact run_append_of_failed plain verdict more

/-- Every rule of the plan is the default rule of a token type. -/
def Plan.OfTokens (plan : Plan) : Prop :=
  ∀ rule ∈ plan.rules, ∃ type ∈ ScanType.tokens, rule = .default type

theorem Plan.OfTokens.compile {plan : Plan} (ofTokens : plan.OfTokens) :
    ∃ compiled, plan.compile = .ok compiled ∧ compiled.plan = plan ∧
      Whole.AllConclusive compiled ∧
        ∀ (index : Nat) (rule : Rule) (pattern : Pattern), plan.rules[index]? = some rule →
          Plan.ReadsAs rule pattern → compiled.matcher index = pattern.run := by
  have settling : ∀ rule ∈ plan.rules, ∃ pattern, Plan.ReadsAs rule pattern ∧ pattern.plain ∧
      SettlesAlone pattern := by
    intro rule member
    obtain ⟨type, token, rfl⟩ := ofTokens rule member
    obtain ⟨source, pattern, given, reads, plain, settles⟩ :=
      ScanType.exists_settling_of_mem_tokens token
    refine ⟨pattern, ?_, plain, settles⟩
    rw [Plan.ReadsAs, Rule.pattern?, given]
    exact reads
  have readable : ∀ rule ∈ plan.rules, ∃ pattern, Plan.ReadsAs rule pattern := by
    intro rule member
    obtain ⟨pattern, reads, -⟩ := settling rule member
    exact ⟨pattern, reads⟩
  obtain ⟨compiled, compiles, same, matchers⟩ := Plan.compile_of_readsAs readable
  refine ⟨compiled, compiles, same, ?_, matchers⟩
  intro index bound
  rw [same] at bound
  obtain ⟨pattern, reads, plain, settles⟩ := settling _ (List.getElem_mem bound)
  rw [matchers index _ pattern (List.getElem?_eq_getElem bound) reads]
  exact conclusive_of_settles plain settles

/-! ## Runs back to back -/

namespace Whole

variable {compiled : CompiledPlan}

/-- A run behind the separator, unless it is the first. -/
def step (compiled : CompiledPlan) (scan : RepeatedScan) : Whole (List Value) :=
  match scan.separator with
  | some separator =>
      if 0 < scan.count then
        bind (matchRemaining separator separator.toList) fun _ => run compiled
      else run compiled
  | none => run compiled

theorem agrees_step (conclusive : AllConclusive compiled) (scan : RepeatedScan) :
    Agrees (step compiled scan) (scan.step (.ok compiled)) := by
  have runs := agrees_run conclusive
  unfold step RepeatedScan.step
  cases scan.separator with
  | none => exact runs
  | some separator =>
      dsimp only
      by_cases first : 0 < scan.count
      · rw [if_pos first, if_pos first]
        exact agrees_bind (agrees_matchRemaining _ _) fun _ => runs
      · rw [if_neg first, if_neg first]
        exact runs

end Whole

theorem Reader.exists_peek {reader : Reader} (flowing : reader.Flowing) :
    ∃ after, reader.peek = (.ok after.base.buffer, after) ∧ after.Flowing ∧
      after.stream = reader.stream ∧ (after.base.buffer = [] ↔ reader.stream.remaining = []) := by
  obtain ⟨after, count, looked, readsOn, atEnd, _⟩ := peek_of_flowing flowing
  refine ⟨after, looked, readsOn.flowing, Whole.stream_of_readsOn readsOn, ?_⟩
  rw [stream, ← readsOn.remaining_eq, remaining]
  constructor
  · intro empty
    simp [empty, atEnd empty]
  · intro none
    exact (List.append_eq_nil_iff.mp none).1

namespace Whole

variable {compiled : CompiledPlan}

/-- The next values over bytes that are all there, and what is left of the bytes unless the scan is
over. -/
def next (compiled : CompiledPlan) (scan : RepeatedScan) (stream : Stream) :
    ScanStep × RepeatedScan × Option Stream :=
  if scan.done then (.finished, scan, none)
  else if stream.remaining = [] then (.finished, { scan with done := true }, none)
  else match step compiled scan stream with
    | .ok (values, stream) =>
        (.values values, { scan with begun := scan.begun + 1, count := scan.count + 1 },
          some stream)
    | .error diagnostic =>
        (.finished,
          { scan with begun := scan.begun + 1, done := true, failure := some diagnostic }, none)

/-- The next values over a reader that flows are those over all its bytes, and a scan that is not
over goes on with what is left of them. -/
theorem next_of_flowing (conclusive : AllConclusive compiled) (scan : RepeatedScan)
    {reader : Reader} (flowing : reader.Flowing) :
    ∃ after, scan.next (.ok compiled) reader =
        ((next compiled scan reader.stream).1, (next compiled scan reader.stream).2.1, after) ∧
      ((next compiled scan reader.stream).2.1.done = false →
        after.Flowing ∧ (next compiled scan reader.stream).2.2 = some after.stream) := by
  unfold next RepeatedScan.next
  by_cases done : scan.done = true
  · simp only [done, if_true]
    exact ⟨reader, rfl, by simp⟩
  obtain ⟨middle, looked, middleFlowing, same, none⟩ := Reader.exists_peek flowing
  simp only [done, looked, Bool.false_eq_true, if_false]
  by_cases empty : middle.base.buffer = []
  · simp only [empty, none.mp empty, if_true]
    exact ⟨middle, rfl, by simp⟩
  · obtain ⟨byte, bytes, standing⟩ := List.exists_cons_of_ne_nil empty
    have stays : ¬ reader.stream.remaining = [] := fun nothing => empty (none.mpr nothing)
    simp only [standing, stays, if_false]
    have came := agrees_step conclusive scan middle middleFlowing
    rw [same] at came
    unfold Scan.outcome at came
    cases result : step compiled scan reader.stream with
    | ok value =>
        obtain ⟨values, stream⟩ := value
        simp only [result] at came ⊢
        obtain ⟨after, ran, afterFlowing, rfl⟩ := came
        rw [ran]
        exact ⟨after, rfl, fun _ => ⟨afterFlowing, rfl⟩⟩
    | error diagnostic =>
        simp only [result] at came ⊢
        obtain ⟨after, ran⟩ := came
        rw [ran]
        exact ⟨after, rfl, by simp⟩

end Whole

namespace RepeatedIteration

/-- The iteration after its next values have been asked for `count` times. -/
def after : Nat → RepeatedIteration → RepeatedIteration
  | 0, iteration => iteration
  | count + 1, iteration => after count iteration.next.2

/-- Two iterations stand at the same place of the same bytes, unless they are over. -/
structure Alike (one other : RepeatedIteration) : Prop where
  compiled_eq : one.compiled = other.compiled
  scan_eq : one.scan = other.scan
  running : one.scan.done = false →
    one.reader.Flowing ∧ other.reader.Flowing ∧ one.reader.stream = other.reader.stream

theorem Alike.next {compiled : CompiledPlan} (conclusive : Whole.AllConclusive compiled)
    {one other : RepeatedIteration} (alike : Alike one other)
    (compiles : one.compiled = .ok compiled) :
    one.next.1 = other.next.1 ∧ Alike one.next.2 other.next.2 := by
  obtain ⟨oneCompiled, scan, reader⟩ := one
  obtain ⟨otherCompiled, otherScan, otherReader⟩ := other
  obtain ⟨rfl, rfl, running⟩ := alike
  obtain rfl : oneCompiled = .ok compiled := compiles
  unfold RepeatedIteration.next
  cases done : scan.done with
  | true =>
      simp only [RepeatedScan.next, done, if_true]
      exact ⟨trivial, rfl, rfl, running⟩
  | false =>
      obtain ⟨flowing, otherFlowing, same⟩ := running done
      obtain ⟨after, came, goesOn⟩ := Whole.next_of_flowing conclusive scan flowing
      obtain ⟨otherAfter, otherCame, otherGoesOn⟩ :=
        Whole.next_of_flowing conclusive scan otherFlowing
      simp only at same
      rw [← same] at otherCame otherGoesOn
      simp only [came, otherCame]
      refine ⟨trivial, rfl, rfl, ?_⟩
      intro unfinished
      obtain ⟨afterFlowing, left⟩ := goesOn unfinished
      obtain ⟨otherAfterFlowing, otherLeft⟩ := otherGoesOn unfinished
      exact ⟨afterFlowing, otherAfterFlowing, Option.some.inj (left.symm.trans otherLeft)⟩

theorem Alike.after {compiled : CompiledPlan} (conclusive : Whole.AllConclusive compiled)
    {one other : RepeatedIteration} (alike : Alike one other)
    (compiles : one.compiled = .ok compiled) (count : Nat) :
    Alike (one.after count) (other.after count) ∧ (one.after count).compiled = .ok compiled := by
  induction count generalizing one other with
  | zero => exact ⟨alike, compiles⟩
  | succ count ih => exact ih (alike.next conclusive compiles).2 compiles

end RepeatedIteration

/-! ## The same bytes in other chunks -/

/-- The iteration of a plan that starts on chunks. -/
def RepeatedIteration.ofChunks (plan : Plan) (separator : Option String)
    (chunks : List (List UInt8)) : RepeatedIteration :=
  { compiled := plan.compile, scan := { separator }, reader := .ofChunks chunks }

/-- Where the chunks of the same bytes end makes no difference to a plan of token types: a single
run has the same result and, when it succeeds, consumes as many bytes; runs back to back yield the
same values one after the other and end with the same fault. -/
theorem outcome_independent_of_chunks {plan : Plan} (ofTokens : plan.OfTokens)
    {bytes : List UInt8} {first second : List (List UInt8)} (firstCuts : Cuts bytes first)
    (secondCuts : Cuts bytes second) :
    (let one := Scan.outcome (Scan.execute plan.compile) (.ofChunks first)
     let other := Scan.outcome (Scan.execute plan.compile) (.ofChunks second)
     one.1 = other.1 ∧ (one.1.isOk → one.2.consumed = other.2.consumed)) ∧
    ∀ (separator : Option String) (count : Nat),
      let one := (RepeatedIteration.ofChunks plan separator first).after count
      let other := (RepeatedIteration.ofChunks plan separator second).after count
      one.next.1 = other.next.1 ∧ one.scan = other.scan := by
  obtain ⟨compiled, compiles, rfl, conclusive, _⟩ := ofTokens.compile
  have flowing := Reader.flowing_ofChunks firstCuts
  have otherFlowing := Reader.flowing_ofChunks secondCuts
  have same : (Reader.ofChunks first).stream = (Reader.ofChunks second).stream := by
    rw [Reader.stream, Reader.remaining_ofChunks firstCuts, Reader.stream,
      Reader.remaining_ofChunks secondCuts]
    rfl
  constructor
  · rw [compiles]
    have came := Whole.agrees_run conclusive _ flowing
    have otherCame := Whole.agrees_run conclusive _ otherFlowing
    rw [← same] at otherCame
    cases result : Whole.run compiled (Reader.ofChunks first).stream with
    | ok value =>
        obtain ⟨values, stream⟩ := value
        simp only [result] at came otherCame
        obtain ⟨after, ran, _, rfl⟩ := came
        obtain ⟨otherAfter, otherRan, _, left⟩ := otherCame
        simp only [Scan.execute, ran, otherRan]
        exact ⟨trivial, fun _ => (congrArg Stream.offset left).symm⟩
    | error diagnostic =>
        simp only [result] at came otherCame
        obtain ⟨after, ran⟩ := came
        obtain ⟨otherAfter, otherRan⟩ := otherCame
        simp only [Scan.execute, ran, otherRan]
        exact ⟨trivial, by simp [Except.isOk, Except.toBool]⟩
  · intro separator count
    have start : RepeatedIteration.Alike
        (.ofChunks compiled.plan separator first) (.ofChunks compiled.plan separator second) :=
      ⟨rfl, rfl, fun _ => ⟨flowing, otherFlowing, same⟩⟩
    obtain ⟨alike, still⟩ := start.after conclusive compiles count
    exact ⟨(alike.next conclusive still).1, alike.scan_eq⟩

/-- A word, a comma and a byte that is no UTF-8, in one chunk and in three. -/
theorem outcome_of_word_in_chunks :
    let plan : Plan := ⟨[.capture (some 0) 0, .literal ","], [.default .string], 1, ""⟩
    (let one := Scan.outcome (Scan.execute plan.compile) (.ofChunks [[0xC3, 0xA9, 0x2C, 0xFF]])
     let other :=
      Scan.outcome (Scan.execute plan.compile) (.ofChunks [[0xC3], [0xA9, 0x2C], [0xFF]])
     one.1 = other.1 ∧ (one.1.isOk → one.2.consumed = other.2.consumed)) ∧
    ∀ (separator : Option String) (count : Nat),
      let one := (RepeatedIteration.ofChunks plan separator [[0xC3, 0xA9, 0x2C, 0xFF]]).after count
      let other :=
        (RepeatedIteration.ofChunks plan separator [[0xC3], [0xA9, 0x2C], [0xFF]]).after count
      one.next.1 = other.next.1 ∧ one.scan = other.scan :=
  outcome_independent_of_chunks
    (fun _ member => ⟨.string, by simp [ScanType.tokens], List.mem_singleton.mp member⟩)
    ⟨by decide, rfl⟩ ⟨by decide, rfl⟩

end Unformat
