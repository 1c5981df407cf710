import Unformat.Proofs.Pattern.Language
import Unformat.Proofs.Scan.Reading

/-!
# Texts that do not convert

Only a capture stops a run for a text that does not convert: the matcher of its rule has taken that
text from a text at hand, and the conversion of its type refuses it.  This holds over every reader,
whatever the reads bring.
-/

namespace Unformat.Scan

variable {α β : Type}

/-! ## Steps -/

/-- Whatever the reader, the step yields something good, and where it stops for a text that does
not convert, there is a cause. -/
structure Confined (cause : String → String → ConversionFault → Prop) (good : α → Prop)
    (step : Scanning α) : Prop where
  yields : ∀ reader value after, outcome step reader = (.ok value, after) → good value
  refuses : ∀ reader diagnostic after text typeName reason,
    outcome step reader = (.error (.fault diagnostic), after) →
      diagnostic.fault = .unconvertible text typeName reason → cause text typeName reason

section Steps

variable {cause : String → String → ConversionFault → Prop} {good : α → Prop}

theorem confined_pure {value : α} (holds : good value) :
    Confined cause good (pure value : Scanning α) where
  yields := by
    intro reader result after done
    cases done
    exact holds
  refuses := by
    intro reader diagnostic after text typeName reason stopped
    cases stopped

theorem confined_stop {fault : ScanFault}
    (caused : ∀ text typeName reason, fault = .unconvertible text typeName reason →
      cause text typeName reason) : Confined cause good (stop fault : Scanning α) where
  yields := by
    intro reader value after done
    cases done
  refuses := by
    intro reader diagnostic after text typeName reason stopped refused
    cases stopped
    exact caused text typeName reason refused

theorem Confined.bind {goal : β → Prop} {step : Scanning α} {next : α → Scanning β}
    (first : Confined cause good step)
    (later : ∀ value, good value → Confined cause goal (next value)) :
    Confined cause goal (step >>= next) where
  yields := by
    intro reader result after done
    rw [outcome_bind] at done
    split at done
    · rename_i value middle here
      exact (later value (first.yields _ _ _ here)).yields _ _ _ done
    · cases done
  refuses := by
    intro reader diagnostic after text typeName reason stopped refused
    rw [outcome_bind] at stopped
    split at stopped
    · rename_i value middle here
      exact (later value (first.yields _ _ _ here)).refuses _ _ _ _ _ _ stopped refused
    · rename_i stop middle here
      cases stopped
      exact first.refuses _ _ _ _ _ _ here refused

/-- Operations on the reader do not convert. -/
theorem confined_onReader (operation : Reader → Except ReaderFault α × Reader) :
    Confined cause (fun _ => True) (onReader operation) where
  yields := fun _ _ _ _ => trivial
  refuses := by
    intro reader diagnostic after text typeName reason stopped
    have unfolded : outcome (onReader operation) reader =
        ((operation reader).1.mapError .reader, (operation reader).2) := rfl
    rw [unfolded] at stopped
    have first := congrArg Prod.fst stopped
    cases operated : (operation reader).1 with
    | ok value =>
        rw [operated] at first
        cases first
    | error fault =>
        rw [operated] at first
        cases first

theorem confined_pendingReads : Confined cause (fun _ => True) pendingReads where
  yields := fun _ _ _ _ => trivial
  refuses := by
    intro reader diagnostic after text typeName reason stopped
    cases stopped

theorem confined_decode (bytes : List UInt8) :
    Confined cause (fun _ => True) (decode bytes) where
  yields := fun _ _ _ _ => trivial
  refuses := by
    intro reader diagnostic after text typeName reason stopped refused
    have unfolded : outcome (decode bytes) reader = decode bytes reader := rfl
    rw [unfolded, decode] at stopped
    split at stopped
    · cases stopped
    · cases stopped
      cases refused

end Steps

/-! ## Literals and captures -/

section Matching

variable {cause : String → String → ConversionFault → Prop}

theorem confined_textWithin (steps : Nat) :
    Confined cause (fun _ => True) (textWithin steps) := by
  induction steps with
  | zero => exact (confined_onReader _).bind fun bytes _ => confined_decode bytes
  | succ steps ih =>
      apply (confined_onReader _).bind
      intro bytes _
      apply (confined_decode bytes).bind
      intro shown _
      split
      · apply (confined_onReader _).bind
        intro added _
        split
        · exact ih
        · exact confined_pure trivial
      · exact confined_pure trivial

theorem confined_text : Confined cause (fun _ => True) text :=
  confined_pendingReads.bind fun count _ => confined_textWithin count

theorem confined_matchRemaining (literal : String) (remaining : List Char) :
    Confined cause (fun _ => True) (matchRemaining literal remaining) := by
  -- A literal goes on behind the text at hand with fewer characters left.
  induction length : remaining.length using Nat.strongRecOn generalizing remaining with
  | _ length ih =>
      have mismatch : Confined cause (fun _ : Unit => True) (stop (.literalMismatch literal)) :=
        confined_stop (by simp)
      rw [matchRemaining]
      split
      · exact confined_pure trivial
      apply confined_text.bind
      intro shown _
      split
      · exact confined_onReader _
      split
      · split
        · apply (confined_onReader _).bind
          intro _ _
          exact ih _ (by omega) _ rfl
        · exact mismatch
      · exact mismatch

theorem confined_settle (matcher : Matcher) (steps : Nat) (bytes : List UInt8)
    (shown : List Char) :
    Confined cause (fun result => result.1 = matcher result.2)
      (settle matcher steps bytes shown) := by
  induction steps generalizing bytes shown with
  | zero => exact confined_pure rfl
  | succ steps ih =>
      rw [settle]
      split
      · exact confined_pure rfl
      split
      · exact confined_pure rfl
      apply (confined_onReader _).bind
      intro added _
      split
      · apply (confined_onReader _).bind
        intro more _
        apply (confined_decode more).bind
        intro longer _
        exact ih more longer
      · exact confined_pure rfl

/-- The matcher takes the text off the front of some text. -/
def TakenBy (matcher : Matcher) (taken : List Char) : Prop :=
  ∃ shown length, matcher shown = .matched length ∧ taken = shown.take length

theorem TakenBy.describes {pattern : Pattern} {taken : List Char} (plain : pattern.plain)
    (takenBy : TakenBy pattern.run taken) : pattern.Describes taken := by
  obtain ⟨shown, length, matched, rfl⟩ := takenBy
  exact (Pattern.describes_of_run_eq_matched plain matched).1

theorem confined_matchPattern (matcher : Matcher) (pattern : String) :
    Confined cause (TakenBy matcher) (matchPattern matcher pattern) := by
  have mismatch : Confined cause (TakenBy matcher) (stop (.patternMismatch pattern)) :=
    confined_stop (by simp)
  apply confined_text.bind
  intro shown _
  apply (confined_onReader _).bind
  intro bytes _
  apply confined_pendingReads.bind
  intro count _
  apply (confined_settle matcher (count + 1) bytes shown).bind
  rintro ⟨verdict, text⟩ same
  cases verdict with
  | matched length =>
      apply (confined_onReader _).bind
      intro _ _
      exact confined_pure ⟨text, length, same.symm, rfl⟩
  | starved => exact mismatch
  | failed => exact mismatch

end Matching

/-! ## Runs -/

/-- A capture among the segments takes the text, and the conversion of its type refuses it. -/
inductive Refused (compiled : CompiledPlan) (segments : List PlanSegment) :
    String → String → ConversionFault → Prop
  | capture {slot : Option Nat} {index : Nat} {rule : Rule} {type : ScanType}
      {taken : List Char} {reason : ConversionFault}
      (member : .capture slot index ∈ segments) (found : compiled.plan.rules[index]? = some rule)
      (typed : rule.type? = some type) (takenBy : TakenBy (compiled.matcher index) taken)
      (refused : type.conversion.apply taken = .error reason) :
      Refused compiled segments (String.ofList taken) type.name reason

section Runs

variable {compiled : CompiledPlan}

theorem Refused.of_subset {segments others : List PlanSegment} {text typeName : String}
    {reason : ConversionFault} (refused : Refused compiled segments text typeName reason)
    (part : segments ⊆ others) : Refused compiled others text typeName reason := by
  cases refused with
  | capture member found typed takenBy refused =>
      exact .capture (part member) found typed takenBy refused

theorem Confined.of_subset {segments others : List PlanSegment} {good : α → Prop}
    {step : Scanning α} (confined : Confined (Refused compiled segments) good step)
    (part : segments ⊆ others) : Confined (Refused compiled others) good step where
  yields := confined.yields
  refuses := by
    intro reader diagnostic after text typeName reason stopped refused
    exact (confined.refuses _ _ _ _ _ _ stopped refused).of_subset part

theorem confined_convert {slot : Option Nat} {index : Nat} {rule : Rule} {taken : List Char}
    (found : compiled.plan.rules[index]? = some rule)
    (takenBy : TakenBy (compiled.matcher index) taken) :
    Confined (Refused compiled [.capture slot index]) (fun _ => True) (convert rule taken) := by
  unfold convert
  split
  · exact confined_pure trivial
  · next type typed =>
      split
      · exact confined_pure trivial
      · next reason refused =>
          apply confined_stop
          rintro text typeName other ⟨⟩
          exact .capture List.mem_cons_self found typed takenBy refused

theorem confined_runSegment (segment : PlanSegment) :
    Confined (Refused compiled [segment]) (fun _ => True) (runSegment compiled segment) := by
  cases segment with
  | literal literal =>
      apply (confined_matchRemaining literal literal.toList).bind
      intro _ _
      exact confined_pure trivial
  | capture slot index =>
      rw [runSegment]
      split
      · exact confined_pure trivial
      · next rule found =>
          apply (confined_matchPattern _ _).bind
          intro taken takenBy
          apply (confined_convert found takenBy).bind
          intro value _
          exact confined_pure trivial

theorem confined_runSegments (segments : List PlanSegment) :
    Confined (Refused compiled segments) (fun _ => True) (runSegments compiled segments) := by
  induction segments with
  | nil => exact confined_pure trivial
  | cons segment rest ih =>
      apply ((confined_runSegment segment).of_subset (by simp)).bind
      intro first _
      apply (ih.of_subset (List.subset_cons_self _ _)).bind
      intro others _
      exact confined_pure trivial

/-- Where a run stops for a text that does not convert, one of its captures takes that text and
its type refuses it. -/
theorem refused_of_outcome_execute {reader after : Reader} {diagnostic : Diagnostic ScanFault}
    {text typeName : String} {reason : ConversionFault}
    (stopped : outcome (execute (.ok compiled)) reader = (.error (.fault diagnostic), after))
    (refused : diagnostic.fault = .unconvertible text typeName reason) :
    Refused compiled compiled.plan.segments text typeName reason := by
  have confined : Confined (Refused compiled compiled.plan.segments) (fun _ => True)
      (run compiled) := by
    apply (confined_runSegments compiled.plan.segments).bind
    intro outputs _
    exact confined_pure trivial
  exact confined.refuses _ _ _ _ _ _ stopped refused

end Runs

end Unformat.Scan
