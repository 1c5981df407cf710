import Unformat.Proofs.Scan.Accounting
import Unformat.Proofs.Scan.Interrupted

/-!
# Where a literal that does not match leaves the stream

A literal consumes the text at hand, one read after the other, as long as that text agrees with it.
When a read brings something else, what agrees in front of that is not consumed.  So a mismatch
leaves the stream behind the last text that a read completed and the literal begins with, and where
the reads end makes a difference, unless the text agrees with the literal to its end or not at all.
-/

namespace Unformat.Scan

open Reader (Passes)
open Text (Utf8.decode Utf8.encode)

/-- The furthest of the texts shown one after the other that the literal begins with, or nothing. -/
structure Furthest (shown : Nat → List Char) (literal border : List Char) : Prop where
  reached : border = [] ∨ ∃ count, border = shown count
  begins : border <+: literal
  furthest : ∀ count, shown count <+: literal → shown count <+: border

/-! ## Texts shown one after the other -/

theorem shownAfter_zero_prefix (reader : Reader) (count : Nat) :
    shownAfter reader 0 <+: shownAfter reader count := by
  rw [shownAfter, Reader.bufferAfter_zero, shownAfter, Reader.bufferAfter]
  exact Text.Utf8.decode_append_prefix _ _

/-- Behind a text that is consumed, the reads show what they would have shown behind it. -/
theorem exists_consumeText {reader : Reader} (flowing : reader.Flowing) {text : List Char}
    (shown : text <+: shownAfter reader 0) :
    ∃ after, outcome (consumeText text) reader = (.ok (), after) ∧ after.Flowing ∧
      Passes (Utf8.encode text) reader after ∧
        ∀ count, shownAfter reader count = text ++ shownAfter after count := by
  have atHand : AtHand (shownAfter reader 0) reader := by
    obtain ⟨rest, standing, _⟩ := Text.Utf8.exists_of_decode reader.base.buffer
    rw [AtHand, shownAfter, Reader.bufferAfter_zero]
    exact ⟨rest, standing.symm⟩
  obtain ⟨rest, standing⟩ := atHand.of_prefix shown
  obtain ⟨⟨pending, buffer, ended, consumed⟩, lines⟩ := reader
  obtain ⟨bare, feeding, noneAfterEnd⟩ := flowing
  simp only at bare feeding noneAfterEnd standing
  subst bare standing
  have within : ¬ (((Utf8.encode text).length : Int) < 0 ∨
      ((Utf8.encode text ++ rest).length : Int) < (Utf8.encode text).length) := by
    rw [List.length_append]
    omega
  have done : Reader.consume ⟨⟨pending, Utf8.encode text ++ rest, ended, consumed⟩, []⟩
      (Utf8.encode text).length =
        (.ok (), ⟨⟨pending, rest, ended, consumed + (Utf8.encode text).length⟩, []⟩) := by
    simp only [Reader.consume, Reader.consumeThrough, ByteReader.consume, if_neg within,
      Int.toNat_natCast, List.drop_left]
  refine ⟨_, outcome_consumeText done, ⟨rfl, feeding, noneAfterEnd⟩, ⟨rfl, ?_, rfl⟩, ?_⟩
  · simp [Reader.remaining]
  · intro count
    simp only [shownAfter, Reader.bufferAfter, List.append_assoc]
    rw [Text.Utf8.decode_encode_append]

theorem shownAfter_prefix_of_shows {reader middle : Reader} {count : Nat}
    (shows : Shows count reader middle) (more : Nat) :
    shownAfter reader more = [] ∨ shownAfter middle 0 <+: shownAfter reader more := by
  by_cases early : more < count
  · exact .inl (shows.earlier more early)
  · right
    have later := shownAfter_zero_prefix middle (more - count)
    rwa [shownAfter_of_readsOn shows.toReadsOn (more - count),
      Nat.add_sub_cancel' (Nat.not_lt.mp early)] at later

/-! ## The furthest text that is consumed -/

/-- Nothing is consumed when what is shown first is no beginning of the literal. -/
theorem furthest_nil_of_apart {reader middle : Reader} {count : Nat}
    (shows : Shows count reader middle) {literal : List Char}
    (apart : ¬ shownAfter middle 0 <+: literal) : Furthest (shownAfter reader) literal [] where
  reached := .inl rfl
  begins := List.nil_prefix
  furthest := by
    intro more standing
    rcases shownAfter_prefix_of_shows shows more with empty | longer
    · exact empty ▸ List.prefix_rfl
    · exact (apart (longer.trans standing)).elim

/-- Nothing is consumed when there is no text. -/
theorem furthest_nil_of_nothing {reader middle : Reader} {count : Nat}
    (shows : Shows count reader middle) (literal : List Char)
    (nothing : shownAfter middle 0 = []) : Furthest (shownAfter reader) literal [] where
  reached := .inl rfl
  begins := List.nil_prefix
  furthest := by
    intro more _
    have none : middle.base.pending = [] := by
      apply shows.atEnd
      rwa [shownAfter, Reader.bufferAfter_zero] at nothing
    have whole : wholeText reader = [] := by
      rw [← wholeText_of_readsOn shows.toReadsOn, ← nothing, wholeText, shownAfter,
        Reader.bufferAfter_zero, Reader.remaining, none, List.flatMap_nil, List.append_nil]
    exact whole ▸ shownAfter_prefix reader more

/-- The text that is shown first goes in front of what is consumed behind it. -/
theorem Furthest.behind {reader middle after : Reader} {count : Nat}
    (shows : Shows count reader middle)
    (consumed : ∀ more, shownAfter middle more = shownAfter middle 0 ++ shownAfter after more)
    {rest border : List Char} (furthest : Furthest (shownAfter after) rest border) :
    Furthest (shownAfter reader) (shownAfter middle 0 ++ rest) (shownAfter middle 0 ++ border) where
  reached := by
    right
    rcases furthest.reached with rfl | ⟨more, rfl⟩
    · refine ⟨count, ?_⟩
      rw [List.append_nil, shownAfter_of_readsOn shows.toReadsOn, Nat.add_zero]
    · refine ⟨count + more, ?_⟩
      rw [← consumed, shownAfter_of_readsOn shows.toReadsOn]
  begins := (List.prefix_append_right_inj _).mpr furthest.begins
  furthest := by
    intro more standing
    by_cases early : more < count
    · have empty : shownAfter reader more = [] := shows.earlier more early
      exact empty ▸ List.nil_prefix
    · have same : shownAfter reader more =
          shownAfter middle 0 ++ shownAfter after (more - count) := by
        rw [← consumed, shownAfter_of_readsOn shows.toReadsOn,
          Nat.add_sub_cancel' (Nat.not_lt.mp early)]
      rw [same] at standing ⊢
      rw [List.prefix_append_right_inj] at standing ⊢
      exact furthest.furthest _ standing

/-- What a literal does with the text that is shown first: there is none that can be read, all that
is left of the literal stands there, or something else does, or nothing, or a beginning of it, which
is consumed. -/
inductive LiteralStep (literal : String) (remaining : List Char) (reader : Reader) : Prop
  | unreadable (offending : List UInt8) (after : Reader)
      (stopped : outcome (matchRemaining literal remaining) reader =
        (.error (malformedAt offending reader.consumed), after))
  | whole (after : Reader)
      (done : outcome (matchRemaining literal remaining) reader = (.ok (), after))
  | apart (middle : Reader) (count : Nat) (shows : Shows count reader middle)
      (other : shownAfter middle 0 = [] ∨ ¬ shownAfter middle 0 <+: remaining)
      (stopped : outcome (matchRemaining literal remaining) reader =
        (.error (.fault (.of (.literalMismatch literal))), middle))
  | onward (middle after : Reader) (count : Nat) (rest : List Char)
      (shows : Shows count reader middle) (solid : shownAfter middle 0 ≠ [])
      (split : remaining = shownAfter middle 0 ++ rest) (flowing : after.Flowing)
      (passes : Passes (Utf8.encode (shownAfter middle 0)) middle after)
      (behind : ∀ more, shownAfter middle more = shownAfter middle 0 ++ shownAfter after more)
      (goesOn : outcome (matchRemaining literal remaining) reader =
        outcome (matchRemaining literal rest) after)

theorem literalStep (literal : String) {remaining : List Char} (solid : remaining ≠ [])
    {reader : Reader} (flowing : reader.Flowing) : LiteralStep literal remaining reader := by
  have unfolded : outcome (matchRemaining literal remaining) reader =
      outcome (matchRemaining literal remaining) reader := rfl
  conv at unfolded => rhs; rw [matchRemaining, if_neg (by simpa using solid)]
  rcases outcome_text flowing with ⟨middle, count, shows, shown⟩ | ⟨after, offending, _, stopped⟩
  swap
  · exact .unreadable offending after (unfolded.trans (outcome_bind_of_error stopped _))
  have visible : (Utf8.decode middle.base.buffer).1 = shownAfter middle 0 := by
    rw [shownAfter, Reader.bufferAfter_zero]
  rw [outcome_bind_of_ok shown, visible] at unfolded
  by_cases whole : remaining <+: shownAfter middle 0
  · obtain ⟨after, done, _⟩ := exists_consumeText shows.flowing whole
    rw [if_pos (by simpa using whole), done] at unfolded
    exact .whole after unfolded
  rw [if_neg (by simpa using whole)] at unfolded
  cases part : (shownAfter middle 0).isPrefixOf? remaining with
  | none =>
      have apart : ¬ shownAfter middle 0 <+: remaining := by
        rintro ⟨rest, joined⟩
        rw [List.isPrefixOf?_eq_some_iff_append_eq.mpr joined] at part
        cases part
      rw [part] at unfolded
      exact .apart middle count shows (.inr apart) unfolded
  | some rest =>
      rw [part] at unfolded
      obtain rfl := List.isPrefixOf?_eq_some_iff_append_eq.mp part
      dsimp only at unfolded
      by_cases nothing : shownAfter middle 0 = []
      · have stays : ¬ rest.length < (shownAfter middle 0 ++ rest).length := by simp [nothing]
        rw [if_neg stays] at unfolded
        exact .apart middle count shows (.inl nothing) unfolded
      · have fewer : rest.length < (shownAfter middle 0 ++ rest).length := by
          simpa using List.length_pos_iff.mpr nothing
        obtain ⟨next, done, nextFlowing, passes, behind⟩ :=
          exists_consumeText shows.flowing List.prefix_rfl
        rw [if_pos fewer, outcome_bind_of_ok done] at unfolded
        exact .onward middle next count rest shows nothing rfl nextFlowing passes behind unfolded

/-- A literal that does not match has consumed the furthest text that it begins with. -/
theorem exists_furthest_of_mismatch {literal : String} {remaining : List Char}
    {reader after : Reader} (flowing : reader.Flowing)
    (mismatched : outcome (matchRemaining literal remaining) reader =
      (.error (.fault (.of (.literalMismatch literal))), after)) :
    ∃ border, Furthest (shownAfter reader) remaining border ∧
      Passes (Utf8.encode border) reader after := by
  -- Each step that goes on consumes a text that is not empty, so fewer characters are left.
  induction length : remaining.length using Nat.strongRecOn generalizing remaining reader with
  | _ length ih =>
      by_cases empty : remaining = []
      · subst empty
        rw [matchRemaining] at mismatched
        cases mismatched
      have still {middle : Reader} {count : Nat} (shows : Shows count reader middle) :
          Passes [] reader middle :=
        ⟨shows.flowing.bare, shows.remaining_eq.symm, shows.consumed_eq⟩
      cases literalStep literal empty flowing with
      | unreadable offending last stopped =>
          rw [stopped] at mismatched
          cases mismatched
      | whole last done =>
          rw [done] at mismatched
          cases mismatched
      | apart middle count shows other stopped =>
          obtain rfl : middle = after := congrArg Prod.snd (stopped.symm.trans mismatched)
          refine ⟨[], ?_, still shows⟩
          rcases other with nothing | apart
          · exact furthest_nil_of_nothing shows remaining nothing
          · exact furthest_nil_of_apart shows apart
      | onward middle next count rest shows solid split nextFlowing passes behind goesOn =>
          subst split
          rw [goesOn] at mismatched
          have positive := List.length_pos_iff.mpr solid
          rw [List.length_append] at length
          obtain ⟨border, furthest, last⟩ :=
            ih rest.length (by omega) nextFlowing mismatched rfl
          refine ⟨shownAfter middle 0 ++ border, furthest.behind shows behind, ?_⟩
          rw [Text.Utf8.encode_append]
          exact ((still shows).trans passes).trans last

/-! ## Cuts of the same bytes -/

/-- A literal that does not match over chunks of the bytes leaves the stream behind the border. -/
structure GivesUpBehind (literal : String) (bytes : List UInt8) (chunks : List (List UInt8))
    (after : Reader) (border : List Char) : Prop where
  stopped : outcome (matchLiteral literal) (.ofChunks chunks) =
    (.error (.fault (.of (.literalMismatch literal))), after)
  furthest : Furthest (shownBy chunks) literal.toList border
  consumed_eq : after.consumed = (Utf8.encode border).length
  split : bytes = Utf8.encode border ++ after.remaining

section Cuts

variable {literal : String} {bytes : List UInt8} {chunks others : List (List UInt8)}
  {after otherAfter : Reader} {border otherBorder : List Char}

theorem exists_givesUpBehind (cuts : Cuts bytes chunks)
    (mismatched : outcome (matchLiteral literal) (.ofChunks chunks) =
      (.error (.fault (.of (.literalMismatch literal))), after)) :
    ∃ border, GivesUpBehind literal bytes chunks after border := by
  obtain ⟨border, furthest, passes⟩ :=
    exists_furthest_of_mismatch (Reader.flowing_ofChunks cuts) mismatched
  have shown : shownAfter (.ofChunks chunks) = shownBy chunks :=
    funext (shownAfter_ofChunks chunks)
  rw [shown] at furthest
  refine ⟨border, mismatched, furthest, passes.consumed_eq.trans (Nat.zero_add _), ?_⟩
  rw [← passes.remaining_eq, Reader.remaining_ofChunks cuts]

/-- Whether a literal matches does not depend on the cut. -/
theorem exists_mismatch_of_other_cut (cuts : Cuts bytes chunks) (otherCuts : Cuts bytes others)
    (mismatched : outcome (matchLiteral literal) (.ofChunks chunks) =
      (.error (.fault (.of (.literalMismatch literal))), after)) :
    ∃ otherAfter, outcome (matchLiteral literal) (.ofChunks others) =
      (.error (.fault (.of (.literalMismatch literal))), otherAfter) := by
  have same : (Reader.ofChunks chunks).stream = (Reader.ofChunks others).stream := by
    rw [Reader.stream, Reader.remaining_ofChunks cuts, Reader.stream,
      Reader.remaining_ofChunks otherCuts]
    rfl
  have came := Whole.agrees_matchRemaining literal literal.toList _
    (Reader.flowing_ofChunks cuts)
  have otherCame := Whole.agrees_matchRemaining literal literal.toList _
    (Reader.flowing_ofChunks otherCuts)
  rw [← same] at otherCame
  rw [matchLiteral] at mismatched ⊢
  split at came
  · obtain ⟨last, done, _⟩ := came
    rw [mismatched] at done
    cases done
  · rename_i diagnostic stopped
    rw [stopped] at otherCame
    obtain ⟨last, came⟩ := came
    rw [mismatched] at came
    cases came
    exact otherCame

theorem GivesUpBehind.border_prefix (gives : GivesUpBehind literal bytes chunks after border) :
    border <+: (Utf8.decode bytes).1 := by
  rw [gives.split, Text.Utf8.decode_encode_append]
  exact List.prefix_append _ _

theorem GivesUpBehind.consumed_eq_iff (gives : GivesUpBehind literal bytes chunks after border)
    (otherGives : GivesUpBehind literal bytes others otherAfter otherBorder) :
    after.consumed = otherAfter.consumed ↔ border = otherBorder := by
  rw [gives.consumed_eq, otherGives.consumed_eq]
  constructor
  · intro length
    exact Text.Utf8.encode_injective
      (List.append_inj_left (gives.split.symm.trans otherGives.split) length)
  · rintro rfl
    rfl

theorem GivesUpBehind.border_eq_of_prefix (cuts : Cuts bytes chunks)
    (gives : GivesUpBehind literal bytes chunks after border)
    (agrees : (Utf8.decode bytes).1 <+: literal.toList) : border = (Utf8.decode bytes).1 := by
  have all : shownBy chunks chunks.length = (Utf8.decode bytes).1 := by
    rw [shownBy, List.take_length, cuts.flatten_eq]
  have longer := gives.furthest.furthest chunks.length (all ▸ agrees)
  rw [all] at longer
  exact gives.border_prefix.eq_of_length_le longer.length_le

/-- A beginning of the literal that the bytes begin with is given up in one chunk, when more text
follows it, and not when a chunk ends behind it. -/
theorem exists_cuts_apart {common : List Char} (begins : common <+: literal.toList)
    (standing : common <+: (Utf8.decode bytes).1) (some : common ≠ [])
    (apart : ¬ (Utf8.decode bytes).1 <+: literal.toList) :
    ∃ first second, Cuts bytes first ∧ Cuts bytes second ∧
      (∀ after border, GivesUpBehind literal bytes first after border → border = []) ∧
      ∀ after border, GivesUpBehind literal bytes second after border → border ≠ [] := by
  obtain ⟨more, joined⟩ := standing
  obtain ⟨behind, spelled, _⟩ := Text.Utf8.exists_of_decode bytes
  rw [← joined, Text.Utf8.encode_append, List.append_assoc] at spelled
  obtain ⟨rest, split⟩ : Utf8.encode common <+: bytes := ⟨_, spelled.symm⟩
  have solid : Utf8.encode common ≠ [] := Text.Utf8.encode_eq_nil_iff.not.mpr some
  have follows : rest ≠ [] := by
    rintro rfl
    rw [List.append_nil] at split
    rw [← split, Text.Utf8.decode_encode] at apart
    exact apart begins
  refine ⟨[bytes], [Utf8.encode common, rest], ⟨?_, by simp⟩, ⟨?_, by simp [split]⟩, ?_, ?_⟩
  · intro chunk member
    rw [List.mem_singleton.mp member, ← split]
    simp [solid]
  · intro chunk member
    rcases List.mem_pair.mp member with rfl | rfl
    · exact solid
    · exact follows
  · intro after border gives
    rcases gives.furthest.reached with nothing | ⟨count, reached⟩
    · exact nothing
    · cases count with
      | zero => simpa [shownBy] using reached
      | succ count =>
          have all : shownBy [bytes] (count + 1) = (Utf8.decode bytes).1 := by simp [shownBy]
          rw [all] at reached
          exact (apart (reached ▸ gives.furthest.begins)).elim
  · rintro after border gives rfl
    have shown : shownBy [Utf8.encode common, rest] 1 = common := by
      simp [shownBy, Text.Utf8.decode_encode]
    have longer := gives.furthest.furthest 1 (by rwa [shown])
    rw [shown] at longer
    exact some (List.prefix_nil.mp longer)

/-- A literal that does not match over one cut of the bytes matches over none.  Over each, it
leaves the stream behind the furthest text that some chunk completes and the literal begins with.
So two cuts leave it at the same place when these texts are the same, and all cuts do exactly when
the text agrees with the literal to its end, or not even in its first character. -/
theorem literal_given_up_behind_furthest (cuts : Cuts bytes chunks) (otherCuts : Cuts bytes others)
    (mismatched : outcome (matchLiteral literal) (.ofChunks chunks) =
      (.error (.fault (.of (.literalMismatch literal))), after)) :
    (∃ border otherAfter otherBorder, GivesUpBehind literal bytes chunks after border ∧
      GivesUpBehind literal bytes others otherAfter otherBorder ∧
        (after.consumed = otherAfter.consumed ↔ border = otherBorder)) ∧
    ((∀ cut, Cuts bytes cut →
        (outcome (matchLiteral literal) (.ofChunks cut)).2.consumed = after.consumed) ↔
      (Utf8.decode bytes).1 <+: literal.toList ∨
        ∀ common, common <+: literal.toList → common <+: (Utf8.decode bytes).1 → common = []) := by
  obtain ⟨border, gives⟩ := exists_givesUpBehind cuts mismatched
  -- What any cut comes to: it gives up, and so behind the same text as the first if that is forced.
  have everyCut (cut : List (List UInt8)) (cutCuts : Cuts bytes cut) :
      ∃ cutBorder, GivesUpBehind literal bytes cut
        (outcome (matchLiteral literal) (.ofChunks cut)).2 cutBorder := by
    obtain ⟨cutAfter, stopped⟩ := exists_mismatch_of_other_cut cuts cutCuts mismatched
    rw [stopped]
    exact exists_givesUpBehind cutCuts stopped
  refine ⟨?_, ?_, ?_⟩
  · obtain ⟨otherBorder, otherGives⟩ := everyCut others otherCuts
    exact ⟨border, _, otherBorder, gives, otherGives, gives.consumed_eq_iff otherGives⟩
  · intro alike
    by_contra neither
    rw [not_or, not_forall] at neither
    obtain ⟨apart, common, undecided⟩ := neither
    simp only [Classical.not_imp] at undecided
    obtain ⟨begins, standing, some⟩ := undecided
    obtain ⟨first, second, firstCuts, secondCuts, nothing, something⟩ :=
      exists_cuts_apart begins standing some apart
    obtain ⟨firstBorder, firstGives⟩ := everyCut first firstCuts
    obtain ⟨secondBorder, secondGives⟩ := everyCut second secondCuts
    have same := (firstGives.consumed_eq_iff secondGives).mp
      ((alike first firstCuts).trans (alike second secondCuts).symm)
    exact something _ _ secondGives (same ▸ nothing _ _ firstGives)
  · intro decided cut cutCuts
    obtain ⟨cutBorder, cutGives⟩ := everyCut cut cutCuts
    apply (cutGives.consumed_eq_iff gives).mpr
    rcases decided with agrees | apart
    · rw [cutGives.border_eq_of_prefix cutCuts agrees, gives.border_eq_of_prefix cuts agrees]
    · rw [apart _ cutGives.furthest.begins cutGives.border_prefix,
        apart _ gives.furthest.begins gives.border_prefix]

end Cuts

/-- A literal that differs in its last character, in one chunk and with the first one in a chunk of
its own. -/
theorem literal_given_up_behind_furthest_of_abd :
    let one := outcome (matchLiteral "abc") (.ofChunks [[0x61, 0x62, 0x64]])
    let other := outcome (matchLiteral "abc") (.ofChunks [[0x61], [0x62, 0x64]])
    Cuts [0x61, 0x62, 0x64] [[0x61, 0x62, 0x64]] ∧ Cuts [0x61, 0x62, 0x64] [[0x61], [0x62, 0x64]] ∧
      one.1 = .error (.fault (.of (.literalMismatch "abc"))) ∧
      ∃ border otherBorder,
        GivesUpBehind "abc" [0x61, 0x62, 0x64] [[0x61, 0x62, 0x64]] one.2 border ∧
          GivesUpBehind "abc" [0x61, 0x62, 0x64] [[0x61], [0x62, 0x64]] other.2 otherBorder := by
  intro one other
  have cuts : Cuts [0x61, 0x62, 0x64] [[0x61, 0x62, 0x64]] := ⟨by decide, rfl⟩
  have otherCuts : Cuts [0x61, 0x62, 0x64] [[0x61], [0x62, 0x64]] := ⟨by decide, rfl⟩
  have mismatched : one.1 = .error (.fault (.of (.literalMismatch "abc"))) := by decide +kernel
  obtain ⟨border, otherAfter, otherBorder, gives, otherGives, _⟩ :=
    (literal_given_up_behind_furthest cuts otherCuts (Prod.ext mismatched rfl)).1
  refine ⟨cuts, otherCuts, mismatched, border, otherBorder, gives, ?_⟩
  have same : other.2 = otherAfter := congrArg Prod.snd otherGives.stopped
  exact same ▸ otherGives

/-- Two characters of the literal stand in front of one that differs: one chunk leaves them both,
and another cut one of them. -/
theorem consumed_of_mismatch_in_chunks :
    let one := outcome (matchLiteral "abc") (.ofChunks [[0x61, 0x62, 0x64]])
    let other := outcome (matchLiteral "abc") (.ofChunks [[0x61], [0x62, 0x64]])
    Cuts [0x61, 0x62, 0x64] [[0x61, 0x62, 0x64]] ∧ Cuts [0x61, 0x62, 0x64] [[0x61], [0x62, 0x64]] ∧
      one.1 = .error (.fault (.of (.literalMismatch "abc"))) ∧ one.2.consumed = 0 ∧
        other.1 = .error (.fault (.of (.literalMismatch "abc"))) ∧ other.2.consumed = 1 := by
  refine ⟨⟨by decide, rfl⟩, ⟨by decide, rfl⟩, ?_⟩
  decide +kernel

end Unformat.Scan
