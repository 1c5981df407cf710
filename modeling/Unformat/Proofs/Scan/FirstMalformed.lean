import Unformat.Proofs.Input.Chunks
import Unformat.Proofs.Scan.Accounting
import Unformat.Proofs.Scan.Whole
import Unformat.Proofs.Text.LongestPrefix

/-!
# The first malformed bytes

A run that stops for malformed bytes stops at the first ones that there are.  Every step before has
consumed a text, and so has the one that stops: what stands behind all of it begins no text.  The
place and the bytes are therefore those of the input, whatever the plan looks for and however the
reads cut the bytes.
-/

namespace Unformat.Scan

open Reader (Passes)
open Text (Utf8.decode Utf8.encode Utf8.Longest Utf8.IllFormed Utf8.OffendingPart)

variable {α β : Type}

/-! ## Steps that point at malformed bytes -/

/-- The reader has passed over a text, and the diagnostic shows the malformed bytes behind it. -/
def PointsBehind (reader : Reader) (diagnostic : Diagnostic ScanFault) (after : Reader) : Prop :=
  ∃ text offending, Passes (Utf8.encode text) reader after ∧
    Utf8.decode after.remaining = ([], .malformed offending) ∧
      diagnostic = .of (.malformed offending (some after.consumed))

/-- The step passes over a text; where it stops for malformed bytes, these stand behind the text. -/
structure Pinpoints (step : Scanning α) : Prop where
  passes : ∀ reader value after, reader.Flowing → outcome step reader = (.ok value, after) →
    after.Flowing ∧ ∃ text, Passes (Utf8.encode text) reader after
  points : ∀ reader diagnostic after data offset, reader.Flowing →
    outcome step reader = (.error (.fault diagnostic), after) →
      diagnostic.fault = .malformedBytes data offset → PointsBehind reader diagnostic after

theorem PointsBehind.of_passes {reader middle after : Reader} {diagnostic : Diagnostic ScanFault}
    {text : List Char} (passes : Passes (Utf8.encode text) reader middle)
    (points : PointsBehind middle diagnostic after) : PointsBehind reader diagnostic after := by
  obtain ⟨more, offending, second, malformed, shown⟩ := points
  refine ⟨text ++ more, offending, ?_, malformed, shown⟩
  rw [Text.Utf8.encode_append]
  exact passes.trans second

/-- A text of the same length as the one in front of malformed bytes is that text. -/
theorem PointsBehind.of_decode {reader after : Reader} {text part : List Char}
    {offending : List UInt8} (decoded : Utf8.decode reader.remaining = (text, .malformed offending))
    (passes : Passes (Utf8.encode part) reader after)
    (place : after.consumed = reader.consumed + (Utf8.encode text).length) :
    PointsBehind reader (.of (.malformed offending (some after.consumed))) after := by
  obtain ⟨rest, standing, left⟩ := Text.Utf8.exists_of_decode reader.remaining
  rw [decoded] at standing left
  have length : (Utf8.encode text).length = (Utf8.encode part).length :=
    Nat.add_left_cancel (place.symm.trans passes.consumed_eq)
  obtain ⟨texts, remaining⟩ := List.append_inj (standing.symm.trans passes.remaining_eq) length
  exact ⟨text, offending, texts ▸ passes, remaining ▸ left, rfl⟩

theorem pinpoints_pure (result : α) : Pinpoints (pure result : Scanning α) where
  passes := by
    intro reader value after flowing done
    cases done
    exact ⟨flowing, [], .refl flowing.bare⟩
  points := by
    intro reader diagnostic after data offset flowing stopped
    cases stopped

theorem pinpoints_stop {fault : ScanFault}
    (other : ∀ data offset, fault ≠ .malformedBytes data offset) :
    Pinpoints (stop fault : Scanning α) where
  passes := by
    intro reader value after flowing done
    cases done
  points := by
    intro reader diagnostic after data offset flowing stopped malformed
    cases stopped
    exact absurd malformed (other data offset)

theorem Pinpoints.bind {step : Scanning α} {next : α → Scanning β} (first : Pinpoints step)
    (others : ∀ value, Pinpoints (next value)) : Pinpoints (step >>= next) where
  passes := by
    intro reader value after flowing done
    rw [outcome_bind] at done
    split at done
    · rename_i between middle here
      obtain ⟨middleFlowing, text, passes⟩ := first.passes _ _ _ flowing here
      obtain ⟨afterFlowing, more, second⟩ := (others between).passes _ _ _ middleFlowing done
      refine ⟨afterFlowing, text ++ more, ?_⟩
      rw [Text.Utf8.encode_append]
      exact passes.trans second
    · cases done
  points := by
    intro reader diagnostic after data offset flowing stopped malformed
    rw [outcome_bind] at stopped
    split at stopped
    · rename_i between middle here
      obtain ⟨middleFlowing, text, passes⟩ := first.passes _ _ _ flowing here
      exact .of_passes passes
        ((others between).points _ _ _ _ _ middleFlowing stopped malformed)
    · rename_i stop here
      cases stopped
      exact first.points _ _ _ _ _ flowing ‹_› malformed

/-! ## Literals and captures -/

theorem exists_of_whole_matchRemaining {stream : Stream} {literal : String} {remaining : List Char}
    {diagnostic : Diagnostic ScanFault} {data : List UInt8} {offset : Option Nat}
    (stopped : Whole.matchRemaining literal remaining stream = .error diagnostic)
    (malformed : diagnostic.fault = .malformedBytes data offset) :
    ∃ text offending, Utf8.decode stream.remaining = (text, .malformed offending) ∧
      diagnostic =
        .of (.malformed offending (some (stream.offset + (Utf8.encode text).length))) := by
  unfold Whole.matchRemaining at stopped
  generalize decoded : Utf8.decode stream.remaining = result at stopped
  obtain ⟨text, rest⟩ := result
  dsimp only at stopped
  split at stopped
  · cases stopped
  split at stopped
  · rename_i offending
    split at stopped
    · cases stopped
      exact ⟨text, offending, rfl, rfl⟩
    · cases stopped
      cases malformed
  · cases stopped
    cases malformed

/-- Malformed bytes that are an obstacle stand at its place. -/
theorem Obstacle.offset_eq {place : Nat} {diagnostic : Diagnostic ScanFault} {data : List UInt8}
    {offset : Option Nat} (obstacle : Obstacle place (.fault diagnostic))
    (malformed : diagnostic.fault = .malformedBytes data offset) : offset = some place := by
  generalize same : Stop.fault diagnostic = stop at obstacle
  cases obstacle with
  | unread failure => cases same
  | malformed offending =>
      cases same
      cases malformed
      rfl

theorem pinpoints_matchRemaining (literal : String) (remaining : List Char) :
    Pinpoints (matchRemaining literal remaining) where
  passes := by
    intro reader value after flowing done
    have whole := Whole.agrees_matchRemaining literal remaining reader flowing
    split at whole
    · obtain ⟨other, came, otherFlowing, _⟩ := whole
      rw [done] at came
      cases came
      rcases outcome_matchRemaining literal remaining flowing.bare with ⟨last, came, passes⟩ |
        ⟨_, _, _, stopped, _⟩
      · rw [done] at came
        cases came
        exact ⟨otherFlowing, remaining, passes⟩
      · rw [done] at stopped
        cases stopped
    · obtain ⟨other, stopped⟩ := whole
      rw [done] at stopped
      cases stopped
  points := by
    intro reader diagnostic after data offset flowing stopped malformed
    have whole := Whole.agrees_matchRemaining literal remaining reader flowing
    split at whole
    · obtain ⟨other, came, _⟩ := whole
      rw [stopped] at came
      cases came
    rename_i found result
    obtain ⟨other, came⟩ := whole
    rw [stopped] at came
    cases came
    obtain ⟨text, offending, decoded, rfl⟩ := exists_of_whole_matchRemaining result malformed
    rcases outcome_matchRemaining literal remaining flowing.bare with ⟨last, came, passes⟩ |
      ⟨stop, last, part, came, beginning, _, passes, cause⟩
    · rw [stopped] at came
      cases came
    rw [stopped] at came
    cases came
    rcases cause with mismatch | obstacle
    · cases mismatch
    have place := Option.some.inj (obstacle.offset_eq rfl)
    rw [place]
    exact .of_decode decoded passes place.symm

theorem pinpoints_matchPattern (matcher : Matcher) (pattern : String) :
    Pinpoints (matchPattern matcher pattern) where
  passes := by
    intro reader value after flowing done
    have flows : after.Flowing := by
      rcases Whole.outcome_matchPattern matcher pattern flowing with ⟨_, _, _, stopped⟩ |
        ⟨count, _, _, came⟩
      · rw [done] at stopped
        cases stopped
      · split at came
        · obtain ⟨other, otherFlowing, _, came⟩ := came
          rw [done] at came
          cases came
          exact otherFlowing
        · obtain ⟨other, stopped⟩ := came
          rw [done] at stopped
          cases stopped
    refine ⟨flows, ?_⟩
    rcases outcome_matchPattern_of_bare matcher pattern flowing.bare with
      ⟨text, last, came, _, passes⟩ | ⟨_, stopped, _⟩ | ⟨_, _, stopped, _⟩
    · rw [done] at came
      cases came
      exact ⟨value, passes⟩
    · rw [done] at stopped
      cases stopped
    · rw [done] at stopped
      cases stopped
  points := by
    intro reader diagnostic after data offset flowing stopped malformed
    have obstructed : Passes [] reader after := by
      rcases outcome_matchPattern_of_bare matcher pattern flowing.bare with
        ⟨_, _, came, _⟩ | ⟨last, came, passes⟩ | ⟨_, last, came, _, passes⟩
      · rw [stopped] at came
        cases came
      · rw [stopped] at came
        cases came
        exact passes
      · rw [stopped] at came
        cases came
        exact passes
    rcases Whole.outcome_matchPattern matcher pattern flowing with
      ⟨other, offending, standing, came⟩ | ⟨count, _, _, came⟩
    · rw [stopped] at came
      cases came
      have place : after.consumed = reader.consumed := obstructed.consumed_eq
      rw [← place]
      exact .of_decode standing (show Passes (Utf8.encode []) reader after from obstructed) place
    · split at came
      · obtain ⟨other, _, _, came⟩ := came
        rw [stopped] at came
        cases came
      · obtain ⟨other, came⟩ := came
        rw [stopped] at came
        cases came
        cases malformed

/-! ## Runs -/

theorem pinpoints_convert (rule : Rule) (matched : List Char) :
    Pinpoints (convert rule matched) := by
  unfold convert
  cases rule.type? with
  | none => exact pinpoints_pure none
  | some type =>
      dsimp only
      cases type.conversion.apply matched with
      | ok value => exact pinpoints_pure (some value)
      | error reason => exact pinpoints_stop (by simp)

theorem pinpoints_runSegment (compiled : CompiledPlan) (segment : PlanSegment) :
    Pinpoints (runSegment compiled segment) := by
  cases segment with
  | literal literal =>
      exact (pinpoints_matchRemaining literal literal.toList).bind fun _ => pinpoints_pure []
  | capture slot index =>
      dsimp only [runSegment]
      cases compiled.plan.rules[index]? with
      | none => exact pinpoints_pure []
      | some rule =>
          refine (pinpoints_matchPattern _ _).bind fun matched => ?_
          exact (pinpoints_convert rule matched).bind fun _ => pinpoints_pure _

theorem pinpoints_runSegments (compiled : CompiledPlan) (segments : List PlanSegment) :
    Pinpoints (runSegments compiled segments) := by
  induction segments with
  | nil => exact pinpoints_pure []
  | cons segment rest ih =>
      refine (pinpoints_runSegment compiled segment).bind fun first => ?_
      exact ih.bind fun _ => pinpoints_pure _

theorem pinpoints_execute (compiled : Except PatternFault CompiledPlan) :
    Pinpoints (execute compiled) := by
  cases compiled with
  | ok compiled => exact (pinpoints_runSegments compiled _).bind fun _ => pinpoints_pure _
  | error fault =>
      constructor
      · intro reader value after flowing done
        cases done
      · intro reader diagnostic after data offset flowing stopped
        cases stopped

/-! ## The first malformed bytes of the input -/

theorem exists_decode_of_stopped {compiled : Except PatternFault CompiledPlan}
    {bytes : List UInt8} {chunks : List (List UInt8)} (cuts : Cuts bytes chunks)
    {diagnostic : Diagnostic ScanFault} {after : Reader} {data : List UInt8} {offset : Option Nat}
    (stopped :
      outcome (execute compiled) (.ofChunks chunks) = (.error (.fault diagnostic), after))
    (malformed : diagnostic.fault = .malformedBytes data offset) :
    ∃ text offending, Utf8.decode bytes = (text, .malformed offending) ∧
      diagnostic = .of (.malformedBytes offending (some (Utf8.encode text).length)) ∧
        after.consumed = (Utf8.encode text).length ∧ bytes = Utf8.encode text ++ after.remaining ∧
          Utf8.decode after.remaining = ([], .malformed offending) := by
  obtain ⟨text, offending, passes, left, rfl⟩ := (pinpoints_execute compiled).points _ _ _ _ _
    (Reader.flowing_ofChunks cuts) stopped malformed
  have whole : bytes = Utf8.encode text ++ after.remaining := by
    rw [← passes.remaining_eq, Reader.remaining_ofChunks cuts]
  have consumed : after.consumed = (Utf8.encode text).length := by
    rw [passes.consumed_eq]
    exact Nat.zero_add _
  have kept : offending.take 4 = offending := by
    have part := (Text.Utf8.illFormed_and_offendingPart_of_decode left).2
    have bound := (Text.Utf8.length_le_of_offendingPart part).2
    exact List.take_of_length_le (by omega)
  refine ⟨text, offending, ?_, ?_, consumed, whole, left⟩
  · rw [whole, Text.Utf8.decode_encode_append, left, List.append_nil]
  · rw [ScanFault.malformed, kept, consumed]

/-- A run stops for malformed bytes, however the bytes were cut.  Then the longest text that the
bytes begin with has been consumed and nothing behind it; the diagnostic tells where that text ends
and shows the ill-formed bytes that stand there.  No run of a plan over another cut of the same
bytes that stops for malformed bytes has another diagnostic. -/
theorem malformed_at_end_of_longest {compiled : Except PatternFault CompiledPlan}
    {bytes : List UInt8} {chunks : List (List UInt8)} (cuts : Cuts bytes chunks)
    {diagnostic : Diagnostic ScanFault} {after : Reader} {data : List UInt8} {offset : Option Nat}
    (stopped :
      outcome (execute compiled) (.ofChunks chunks) = (.error (.fault diagnostic), after))
    (malformed : diagnostic.fault = .malformedBytes data offset) :
    ∃ text, Utf8.Longest bytes text ∧ offset = some (Utf8.encode text).length ∧
      after.consumed = (Utf8.encode text).length ∧
        bytes = Utf8.encode text ++ after.remaining ∧
          Utf8.IllFormed after.remaining ∧ Utf8.OffendingPart after.remaining data ∧
            ∀ other otherChunks otherDiagnostic otherAfter otherData otherOffset,
              Cuts bytes otherChunks →
                outcome (execute other) (.ofChunks otherChunks) =
                  (.error (.fault otherDiagnostic), otherAfter) →
                otherDiagnostic.fault = .malformedBytes otherData otherOffset →
                  otherDiagnostic = diagnostic := by
  obtain ⟨text, offending, decoded, rfl, consumed, whole, left⟩ :=
    exists_decode_of_stopped cuts stopped malformed
  cases malformed
  obtain ⟨illFormed, part⟩ := Text.Utf8.illFormed_and_offendingPart_of_decode left
  have longest : Utf8.Longest bytes text :=
    (Text.Utf8.longest_iff bytes text).mpr (congrArg Prod.fst decoded).symm
  refine ⟨text, longest, rfl, consumed, whole, illFormed, part, ?_⟩
  intro other otherChunks otherDiagnostic otherAfter otherData otherOffset otherCuts
    otherStopped otherMalformed
  obtain ⟨otherText, otherOffending, otherDecoded, rfl, _⟩ :=
    exists_decode_of_stopped otherCuts otherStopped otherMalformed
  rw [decoded] at otherDecoded
  cases otherDecoded
  rfl

/-- A character that is cut off by another byte, behind a capture that ends in a chunk of its
own. -/
theorem malformed_at_end_of_cut_text :
    let plan : Plan :=
      ⟨[.literal "a", .capture (some 0) 0, .literal ","], [.custom ".*" .string], 1, ""⟩
    let compiled : CompiledPlan := ⟨plan, [fun shown => .matched shown.length]⟩
    let bytes : List UInt8 := [0x61, 0xC3, 0xA9, 0xE2, 0xFF]
    let chunks : List (List UInt8) := [[0x61, 0xC3], [0xA9, 0xE2], [0xFF]]
    let after : Reader :=
      { base := { pending := [], buffer := [0xE2, 0xFF], ended := true, consumed := 3 } }
    Cuts bytes chunks ∧
      outcome (execute (.ok compiled)) (.ofChunks chunks) =
        (.error (.fault (.of (.malformedBytes [0xE2] (some 3)))), after) ∧
      ∃ text, Utf8.Longest bytes text ∧ some 3 = some (Utf8.encode text).length ∧
        Utf8.OffendingPart after.remaining [0xE2] := by
  intro plan compiled bytes chunks after
  have cuts : Cuts bytes chunks := ⟨by decide, rfl⟩
  have stopped : outcome (execute (.ok compiled)) (.ofChunks chunks) =
      (.error (.fault (.of (.malformedBytes [0xE2] (some 3)))), after) := by cbv
  obtain ⟨text, longest, place, _, _, _, part, _⟩ := malformed_at_end_of_longest cuts stopped rfl
  exact ⟨cuts, stopped, text, longest, place, part⟩

end Unformat.Scan
