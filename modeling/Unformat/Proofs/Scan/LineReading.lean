import Unformat.Proofs.Scan.LineTaking

/-!
# Segments on a line reader

Over a line reader, a segment comes to what it comes to when all bytes that are left of the line are
there, and takes the same text off them.  For captures this takes matchers that take some text, and
whose verdicts stand when the line is not in one chunk.
-/

namespace Unformat

open Text (Utf8.decode Utf8.encode)

/-- The bytes that are left of a line. -/
def Line.stream (line : Line) (left : List (List UInt8)) : Stream :=
  ⟨left.flatten, line.before + (line.bytes.length - left.flatten.length)⟩

theorem Line.stream_joinFirst (line : Line) (chunks : List (List UInt8)) :
    line.stream (joinFirst chunks) = line.stream chunks := by
  rw [stream, stream, flatten_joinFirst]

namespace OnLine

variable {line : Line} {taken : List UInt8} {chunks : List (List UInt8)} {reader : Reader}

theorem last (onLine : OnLine line taken chunks reader) (member : lineFeed ∈ chunks.headD []) :
    chunks.tail = [] := by
  obtain ⟨base, ⟨_, _, rfl, _⟩ | ⟨_, _, left, _⟩⟩ := onLine.cases
  · rfl
  · have single := lineChunks_of_mem member
    rw [left, lineChunks_lineChunks] at single
    rw [left, single, List.tail_cons]

theorem length_flatten_le (onLine : OnLine line taken chunks reader) :
    chunks.flatten.length ≤ line.bytes.length := by
  rw [onLine.bytes_eq, List.length_append]
  exact Nat.le_add_left _ _

theorem consumed_eq_offset (onLine : OnLine line taken chunks reader) :
    reader.consumed = (line.stream chunks).offset := by
  rw [onLine.consumed_eq, Line.stream, onLine.bytes_eq, List.length_append, Nat.add_sub_cancel]

theorem headD_eq_nil_iff (onLine : OnLine line taken chunks reader) :
    chunks.headD [] = [] ↔ chunks = [] := by
  cases chunks with
  | nil => simp
  | cons chunk rest => simp [onLine.solid chunk List.mem_cons_self]

end OnLine

/-- The bytes that are left behind a text are those of the stream behind it. -/
theorem Line.stream_behind {line : Line} {chunks left : List (List UInt8)} {text : List Char}
    (within : chunks.flatten.length ≤ line.bytes.length)
    (split : chunks.flatten = Utf8.encode text ++ left.flatten) :
    line.stream left = Whole.behind (line.stream chunks) text := by
  have total := congrArg List.length split
  rw [List.length_append] at total
  simp only [stream, Whole.behind, Stream.mk.injEq]
  rw [split, List.drop_left, ← split]
  refine ⟨rfl, ?_⟩
  omega

theorem Whole.behind_nil (stream : Stream) : behind stream [] = stream := rfl

theorem Whole.behind_append (stream : Stream) (first second : List Char) :
    behind (behind stream first) second = behind stream (first ++ second) := by
  simp only [behind, Text.Utf8.encode_append, List.length_append, List.drop_drop, Nat.add_assoc]

theorem Whole.matchPattern_of_readable {stream : Stream}
    (readable : ∀ offending, Utf8.decode stream.remaining ≠ ([], .malformed offending))
    (matcher : Matcher) (pattern : String) :
    Whole.matchPattern matcher pattern stream =
      match matcher (Utf8.decode stream.remaining).1 with
      | .matched length => .ok ((Utf8.decode stream.remaining).1.take length,
          Whole.behind stream ((Utf8.decode stream.remaining).1.take length))
      | _ => .error (.of (.patternMismatch pattern)) := by
  unfold Whole.matchPattern
  split
  · rename_i offending malformed
    exact (readable offending malformed).elim
  · rename_i text _ _ decoded
    cases verdict : matcher text <;> simp only [decoded, verdict]

namespace Scan

variable {α β : Type} {line : Line} {chunks : List (List UInt8)}

/-- Wherever a line reader has the chunks before it, a step comes to a good value and good chunks on
the same line, or to a bad fault. -/
def Comes (line : Line) (chunks : List (List UInt8)) (good : α → List (List UInt8) → Prop)
    (bad : Diagnostic ScanFault → Prop) (step : Scanning α) : Prop :=
  ∀ ⦃taken : List UInt8⦄ ⦃reader : Reader⦄, OnLine line taken chunks reader →
    (∃ value left taken after, good value left ∧ OnLine line taken left after ∧
      outcome step reader = (.ok value, after)) ∨
    ∃ diagnostic after, bad diagnostic ∧
      outcome step reader = (.error (.fault diagnostic), after)

variable {good : α → List (List UInt8) → Prop} {bad : Diagnostic ScanFault → Prop}

theorem comes_pure {value : α} (holds : good value chunks) :
    Comes line chunks good bad (pure value) :=
  fun _ reader onLine => .inl ⟨value, chunks, _, reader, holds, onLine, rfl⟩

theorem comes_stop {fault : ScanFault} (holds : bad (.of fault)) :
    Comes line chunks good bad (stop fault) :=
  fun _ reader _ => .inr ⟨_, reader, holds, rfl⟩

theorem Comes.bind {goal : β → List (List UInt8) → Prop} {step : Scanning α}
    {next : α → Scanning β} (first : Comes line chunks good bad step)
    (later : ∀ value left, good value left → Comes line left goal bad (next value)) :
    Comes line chunks goal bad (step >>= next) := by
  intro taken reader onLine
  obtain ⟨value, left, _, after, holds, still, done⟩ | ⟨diagnostic, after, holds, stopped⟩ :=
    first onLine
  · rw [outcome_bind_of_ok done]
    exact later value left holds still
  · exact .inr ⟨diagnostic, after, holds, outcome_bind_of_error stopped next⟩

theorem Comes.imp {goal : α → List (List UInt8) → Prop} {worse : Diagnostic ScanFault → Prop}
    {step : Scanning α} (comes : Comes line chunks good bad step)
    (better : ∀ value left, good value left → goal value left)
    (fails : ∀ diagnostic, bad diagnostic → worse diagnostic) :
    Comes line chunks goal worse step := by
  intro taken reader onLine
  obtain ⟨value, left, _, after, holds, given⟩ | ⟨diagnostic, after, holds, stopped⟩ := comes onLine
  · exact .inl ⟨value, left, _, after, better value left holds, given⟩
  · exact .inr ⟨diagnostic, after, fails diagnostic holds, stopped⟩

theorem Comes.weaken {worse : Diagnostic ScanFault → Prop} {step : Scanning α}
    (comes : Comes line chunks good bad step)
    (fails : ∀ diagnostic, bad diagnostic → worse diagnostic) : Comes line chunks good worse step :=
  comes.imp (fun _ _ => id) fails

/-! ## The operations on a reader -/

theorem comes_peek :
    Comes line chunks (fun bytes left => bytes = chunks.headD [] ∧ left = chunks) bad peek := by
  intro taken reader onLine
  obtain ⟨after, looked, moved⟩ := onLine.peek
  exact .inl ⟨_, _, _, after, ⟨rfl, rfl⟩, moved, outcome_peek looked⟩

theorem comes_fill :
    Comes line chunks
      (fun added left => added = decide (1 < chunks.length) ∧ left = joinFirst chunks)
      bad fill := by
  intro taken reader onLine
  obtain ⟨after, filled, moved⟩ := onLine.fill
  exact .inl ⟨_, _, _, after, ⟨rfl, rfl⟩, moved, outcome_fill filled⟩

theorem comes_consumeText {text : List Char} (inFront : InFront text chunks) :
    Comes line chunks
      (fun _ left =>
        left = dropFront (taking (chunks.headD []) (Utf8.encode text).length) chunks)
      bad (consumeText text) := by
  intro taken reader onLine
  obtain ⟨after, consumed, moved⟩ := onLine.consume inFront.length_le
  exact .inl ⟨(), _, _, after, rfl, moved, outcome_consumeText consumed⟩

/-- Malformed bytes stand at the front of what is left of the line. -/
def MalformedAt (line : Line) (chunks : List (List UInt8)) (diagnostic : Diagnostic ScanFault) :
    Prop :=
  ∃ offending, Utf8.decode chunks.flatten = ([], .malformed offending) ∧
    diagnostic = .of (.malformed offending (some (line.stream chunks).offset))

theorem flatten_eq_headD_append (chunks : List (List UInt8)) :
    chunks.flatten = chunks.headD [] ++ chunks.tail.flatten := by
  cases chunks <;> rfl

theorem comes_decode :
    Comes line chunks
      (fun text left => left = chunks ∧ text = (Utf8.decode (chunks.headD [])).1 ∧
        ∀ offending, Utf8.decode (chunks.headD []) ≠ ([], .malformed offending))
      (MalformedAt line chunks) (decode (chunks.headD [])) := by
  intro taken reader onLine
  by_cases malformed : ∃ offending, Utf8.decode (chunks.headD []) = ([], .malformed offending)
  · obtain ⟨offending, malformed⟩ := malformed
    refine .inr ⟨_, reader, ⟨offending, ?_, rfl⟩, ?_⟩
    · rw [flatten_eq_headD_append, Text.Utf8.decode_append_of_malformed (by rw [malformed]),
        malformed]
    · rw [← onLine.consumed_eq_offset]
      exact outcome_decode_of_malformed malformed reader
  · have readable := not_exists.mp malformed
    exact .inl ⟨_, chunks, _, reader, ⟨rfl, rfl, readable⟩, onLine,
      outcome_decode readable reader⟩

/-! ## The text at hand -/

/-- The text is at hand, after reading on while none was, and is empty only at the end. -/
structure LineShows (chunks left : List (List UInt8)) (shown : List Char) : Prop where
  reads : Consumes NothingShown chunks [] left
  text_eq : shown = (Utf8.decode (left.headD [])).1
  readable : ∀ offending, Utf8.decode (left.headD []) ≠ ([], .malformed offending)
  atEnd : shown = [] → left.length ≤ 1

theorem flatten_of_length_le {left : List (List UInt8)} (few : left.length ≤ 1) :
    left.headD [] = left.flatten := by
  match left with
  | [] => rfl
  | [_] => simp
  | _ :: _ :: _ => simp at few

theorem LineShows.inFront {left : List (List UInt8)} {shown : List Char}
    (shows : LineShows chunks left shown) : InFront shown left := by
  obtain ⟨rest, standing, _⟩ := Text.Utf8.exists_of_decode (left.headD [])
  rw [← shows.text_eq] at standing
  exact ⟨rest, standing.symm⟩

theorem shown_prefix_of_headD (left : List (List UInt8)) :
    (Utf8.decode (left.headD [])).1 <+: (Utf8.decode left.flatten).1 := by
  rw [flatten_eq_headD_append]
  exact Text.Utf8.decode_append_prefix _ _

theorem comes_textWithin (steps : Nat) (enough : chunks.length ≤ steps + 1) :
    Comes line chunks (fun shown left => LineShows chunks left shown) (MalformedAt line chunks)
      (textWithin steps) := by
  induction steps generalizing chunks with
  | zero =>
      rw [textWithin_zero]
      refine comes_peek.bind ?_
      rintro _ _ ⟨rfl, rfl⟩
      refine comes_decode.bind ?_
      rintro _ _ ⟨rfl, rfl, readable⟩
      exact comes_pure ⟨.done _, rfl, readable, fun _ => enough⟩
  | succ steps ih =>
      rw [textWithin]
      intro taken reader onLine
      refine (comes_peek.bind ?_) onLine
      rintro _ chunks ⟨rfl, rfl⟩
      refine comes_decode.bind ?_
      rintro _ chunks ⟨rfl, rfl, readable⟩
      split
      · rename_i waiting
        have nothing : NothingShown chunks := by
          simp only [Bool.and_eq_true, List.isEmpty_iff] at waiting
          exact waiting.1
        refine comes_fill.bind ?_
        rintro _ _ ⟨rfl, rfl⟩
        by_cases several : 1 < chunks.length
        · have fewer := length_joinFirst several
          simp only [several, decide_true, if_true]
          refine (ih (by omega)).imp ?_ ?_
          · intro shown left shows
            exact ⟨.fill nothing shows.reads, shows.text_eq, shows.readable, shows.atEnd⟩
          · intro diagnostic malformed
            rwa [MalformedAt, Line.stream_joinFirst, flatten_joinFirst] at malformed
        · rw [joinFirst_of_length_le (by omega)]
          simp only [several, decide_false, Bool.false_eq_true, if_false]
          exact comes_pure ⟨.done _, rfl, readable, fun _ => by omega⟩
      · rename_i waiting
        refine comes_pure ⟨.done _, rfl, readable, fun empty => ?_⟩
        have none : chunks.headD [] = [] := by
          simpa only [empty, List.isEmpty_nil, Bool.true_and, Bool.not_eq_true', Bool.not_eq_false,
            List.isEmpty_iff] using waiting
        simp [onLine.headD_eq_nil_iff.mp none]

theorem comes_text :
    Comes line chunks (fun shown left => LineShows chunks left shown) (MalformedAt line chunks)
      text := by
  intro taken reader onLine
  rw [text, outcome_bind_of_ok (outcome_pendingReads reader)]
  exact comes_textWithin _ onLine.length_le onLine

/-! ## Literals -/

/-- A step agrees on a line with what it comes to when all that is left of the line is there, and
takes the same text off it. -/
def AgreesOnLine (wanted : List (List UInt8) → Prop) (line : Line) (chunks : List (List UInt8))
    (whole : Whole α) (step : Scanning α) : Prop :=
  Comes line chunks
    (fun value left => ∃ text,
      whole (line.stream chunks) = .ok (value, Whole.behind (line.stream chunks) text) ∧
        Consumes wanted chunks text left)
    (fun diagnostic => whole (line.stream chunks) = .error diagnostic) step

/-- When all the text at hand is taken, the end of the line is not taken along. -/
theorem flatten_behind_shown {shown : List Char}
    (last : lineFeed ∈ chunks.headD [] → chunks.tail = [])
    (text_eq : shown = (Utf8.decode (chunks.headD [])).1) (inFront : InFront shown chunks) :
    chunks.flatten = Utf8.encode shown ++
      (dropFront (taking (chunks.headD []) (Utf8.encode shown).length) chunks).flatten := by
  obtain ⟨behind, standing, whole, ⟨_, _, after⟩ | ⟨all, lone, after⟩⟩ := exists_behind inFront last
  · rw [after, whole]
  · have unread : Utf8.decode behind = ([], (Utf8.decode (chunks.headD [])).2) := by
      have split := congrArg Utf8.decode standing
      rw [Text.Utf8.decode_encode_append] at split
      have texts := congrArg Prod.fst split
      rw [← text_eq, List.self_eq_append_right] at texts
      exact Prod.ext texts (congrArg Prod.snd split).symm
    obtain ⟨ending, rfl⟩ := LineEnding.exists_of_lineEnd all
    rw [LineEnding.bytes, Text.Utf8.decode_encode] at unread
    have empty : ending.text = [] := congrArg Prod.fst unread
    rw [after, whole, lone, LineEnding.bytes, empty]
    rfl

theorem agreesOnLine_matchRemaining (literal : String) (remaining : List Char) :
    AgreesOnLine NothingShown line chunks (Whole.matchRemaining literal remaining)
      (matchRemaining literal remaining) := by
  induction length : remaining.length using Nat.strongRecOn generalizing remaining chunks with
  | _ length ih =>
      rw [matchRemaining]
      by_cases empty : remaining = []
      · subst empty
        refine comes_pure ⟨[], ?_, .done chunks⟩
        simp [Whole.matchRemaining, Whole.behind]
      rw [if_neg (by simpa using empty)]
      refine (comes_text.weaken ?_).bind ?_
      · rintro _ ⟨offending, malformed, rfl⟩
        simp [Whole.matchRemaining, Line.stream, malformed, empty]
      intro shown left shows taken reader onLine
      have same : line.stream left = line.stream chunks := by
        rw [Line.stream, Line.stream, shows.reads.flatten_of_nil]
      rw [← same]
      have visible : shown <+: (Utf8.decode (line.stream left).remaining).1 :=
        shows.text_eq ▸ shown_prefix_of_headD left
      by_cases whole : remaining <+: shown
      · rw [if_pos (by simpa using whole)]
        refine (comes_consumeText (shows.inFront.of_prefix whole)).imp ?_ (fun _ => id) onLine
        rintro _ _ rfl
        refine ⟨remaining, ?_, ?_⟩
        · simp [Whole.matchRemaining, whole.trans visible]
        · exact shows.reads.trans (.single empty (shows.inFront.of_prefix whole) onLine.last)
      rw [if_neg (by simpa using whole)]
      cases part : shown.isPrefixOf? remaining with
      | some rest =>
          obtain rfl := List.isPrefixOf?_eq_some_iff_append_eq.mp part
          by_cases solid : shown = []
          · -- Nothing more comes, so nothing but what keeps a character from being read is left.
            have all := flatten_of_length_le (shows.atEnd solid)
            simp only [solid, List.nil_append, Nat.lt_irrefl, if_false]
            refine comes_stop ?_ onLine
            have none : Utf8.decode (line.stream left).remaining =
                ([], (Utf8.decode (left.headD [])).2) := by
              rw [all, Line.stream, ← all, ← solid, shows.text_eq]
            apply Whole.matchRemaining_of_mismatch
            · simpa [none, solid] using empty
            · intro _ offending malformed
              rw [none] at malformed
              exact shows.readable offending
                (Prod.ext (shows.text_eq.symm.trans solid) malformed)
          · have positive := List.length_pos_iff.mpr solid
            have fewer : rest.length < (shown ++ rest).length := by
              rw [List.length_append]
              omega
            simp only [fewer, if_true]
            have stream := Line.stream_behind onLine.length_flatten_le
              (flatten_behind_shown onLine.last shows.text_eq shows.inFront)
            refine ((comes_consumeText shows.inFront).bind ?_) onLine
            rintro _ _ rfl
            rw [Whole.matchRemaining_append visible, ← stream]
            refine (ih _ (by omega) rest rfl).imp ?_ (fun _ => id)
            rintro _ after ⟨text, came, consumes⟩
            refine ⟨shown ++ text, ?_, ?_⟩
            · rw [came, stream, Whole.behind_append]
            · exact shows.reads.trans (.take solid shows.inFront onLine.last consumes)
      | none =>
          refine comes_stop ?_ onLine
          have apart : ¬ shown <+: remaining := by
            rintro ⟨rest, joined⟩
            rw [List.isPrefixOf?_eq_some_iff_append_eq.mpr joined] at part
            simp at part
          exact Whole.matchRemaining_of_apart visible apart whole

/-! ## Captures -/

/-- Attempts at a pattern come to a text at hand for which the verdict asks for no more, or to all
the text that is left. -/
structure Settles (matcher : Matcher) (chunks left : List (List UInt8))
    (result : Pattern.Verdict × List Char) : Prop where
  reads : Consumes (fun _ => True) chunks [] left
  text_eq : result.2 = (Utf8.decode (left.headD [])).1
  verdict_eq : result.1 = matcher result.2
  final : wantsMore result.1 result.2 = false ∨ result.2 = (Utf8.decode chunks.flatten).1

theorem comes_settle (matcher : Matcher) (steps : Nat) {shown : List Char}
    (enough : chunks.length ≤ steps) (shown_eq : shown = (Utf8.decode (chunks.headD [])).1)
    (atEnd : shown = [] → chunks.length ≤ 1) :
    Comes line chunks (fun result left => Settles matcher chunks left result) bad
      (settle matcher steps (chunks.headD []) shown) := by
  induction steps generalizing chunks shown with
  | zero =>
      obtain rfl := List.eq_nil_of_length_eq_zero (Nat.le_zero.mp enough)
      exact comes_pure ⟨.done _, shown_eq, rfl, .inr shown_eq⟩
  | succ steps ih =>
      have stays (final : wantsMore (matcher shown) shown = false ∨
          shown = (Utf8.decode chunks.flatten).1) :
          Settles matcher chunks chunks (matcher shown, shown) :=
        ⟨.done _, shown_eq, rfl, final⟩
      rw [settle]
      split
      · rename_i satisfied
        exact comes_pure (stays (.inl (by simpa using satisfied)))
      split
      · rename_i long
        rw [shown_eq] at long
        obtain ⟨offending, malformed⟩ := Text.Utf8.exists_malformed_of_length long
        refine comes_pure (stays (.inr ?_))
        rw [shown_eq, flatten_eq_headD_append chunks,
          Text.Utf8.decode_append_of_malformed malformed]
      refine comes_fill.bind ?_
      rintro _ _ ⟨rfl, rfl⟩
      by_cases several : 1 < chunks.length
      · have fewer := length_joinFirst several
        have visible : shown ≠ [] := fun empty => absurd (atEnd empty) (by omega)
        have longer : shown <+: (Utf8.decode ((joinFirst chunks).headD [])).1 := by
          rcases chunks with _ | ⟨first, _ | ⟨second, rest⟩⟩
          · simp at several
          · simp at several
          · rw [shown_eq]
            exact Text.Utf8.decode_append_prefix first second
        have stillVisible : (Utf8.decode ((joinFirst chunks).headD [])).1 ≠ [] := fun empty =>
          visible (List.prefix_nil.mp (empty ▸ longer))
        simp only [several, decide_true, if_true]
        refine comes_peek.bind ?_
        rintro _ _ ⟨rfl, rfl⟩
        refine (comes_decode.weaken ?_).bind ?_
        · rintro _ ⟨offending, malformed, _⟩
          have part := shown_prefix_of_headD (joinFirst chunks)
          rw [malformed] at part
          exact (stillVisible (List.prefix_nil.mp part)).elim
        rintro _ _ ⟨rfl, rfl, _⟩
        refine (ih (by omega) rfl fun empty => (stillVisible empty).elim).imp ?_ (fun _ => id)
        intro result left settles
        refine ⟨.fill trivial settles.reads, settles.text_eq, settles.verdict_eq, ?_⟩
        rw [← flatten_joinFirst chunks]
        exact settles.final
      · rw [joinFirst_of_length_le (by omega)]
        simp only [several, decide_false, Bool.false_eq_true, if_false]
        refine comes_pure (stays (.inr ?_))
        rw [shown_eq, flatten_of_length_le (by omega)]

/-- A matcher that matches takes some text that is there. -/
def TakesText (matcher : Matcher) : Prop :=
  ∀ text length, matcher text = .matched length → 0 < length ∧ length ≤ text.length

/-- A verdict that does not ask for more text stands. -/
def Stands (matcher : Matcher) : Prop :=
  ∀ text more, wantsMore (matcher text) text = false → matcher (text ++ more) = matcher text

theorem Settles.matcher_eq {matcher : Matcher} {left : List (List UInt8)}
    {result : Pattern.Verdict × List Char} (settles : Settles matcher chunks left result)
    (sure : Stands matcher ∨ chunks.length ≤ 1) :
    result.2 <+: (Utf8.decode chunks.flatten).1 ∧
      matcher (Utf8.decode chunks.flatten).1 = result.1 := by
  have part : result.2 <+: (Utf8.decode chunks.flatten).1 := by
    rw [settles.text_eq, ← settles.reads.flatten_of_nil]
    exact shown_prefix_of_headD left
  refine ⟨part, ?_⟩
  have whole (same : result.2 = (Utf8.decode chunks.flatten).1) :
      matcher (Utf8.decode chunks.flatten).1 = result.1 := by
    rw [← same, settles.verdict_eq]
  rcases settles.final with satisfied | all
  · rcases sure with stands | few
    · obtain ⟨more, split⟩ := part
      rw [settles.verdict_eq] at satisfied ⊢
      rw [← split, stands result.2 more satisfied]
    · refine whole ?_
      rw [settles.text_eq, flatten_of_length_le (settles.reads.length_le_one few),
        settles.reads.flatten_of_nil]
  · exact whole all

theorem agreesOnLine_matchPattern {matcher : Matcher} (takes : TakesText matcher)
    (sure : Stands matcher ∨ chunks.length ≤ 1) (pattern : String) :
    AgreesOnLine (fun _ => True) line chunks (Whole.matchPattern matcher pattern)
      (matchPattern matcher pattern) := by
  rw [matchPattern]
  refine (comes_text.weaken ?_).bind ?_
  · rintro _ ⟨offending, malformed, rfl⟩
    simp only [Whole.matchPattern, Line.stream, malformed]
  intro shown middle shows
  have same : middle.flatten = chunks.flatten := shows.reads.flatten_of_nil
  have readable : ∀ offending,
      Utf8.decode (line.stream chunks).remaining ≠ ([], .malformed offending) := by
    rw [Line.stream, ← same]
    intro offending malformed
    have part := shown_prefix_of_headD middle
    rw [malformed, ← shows.text_eq] at part
    have few := shows.atEnd (List.prefix_nil.mp part)
    exact shows.readable offending (by rw [flatten_of_length_le few, malformed])
  have reads : Consumes (fun _ => True) chunks [] middle := shows.reads.mono fun _ _ => trivial
  rw [Whole.matchPattern_of_readable readable]
  refine comes_peek.bind ?_
  rintro _ middle ⟨rfl, rfl⟩ taken reader onLine
  rw [outcome_bind_of_ok (outcome_pendingReads reader)]
  refine ((comes_settle matcher _ onLine.length_le shows.text_eq shows.atEnd).bind ?_) onLine
  rintro ⟨verdict, text⟩ left settles
  obtain ⟨part, judged⟩ :=
    settles.matcher_eq (sure.imp_right fun few => shows.reads.length_le_one few)
  rw [same] at part judged
  simp only [Line.stream, judged]
  cases verdict with
  | matched length =>
      intro taken reader onLine
      obtain ⟨positive, within⟩ := takes text length settles.verdict_eq.symm
      obtain ⟨rest, split⟩ := part
      have taken : (Utf8.decode chunks.flatten).1.take length = text.take length := by
        rw [← split, List.take_append_of_le_length within]
      have solid : text.take length ≠ [] := by
        rw [Ne, List.take_eq_nil_iff]
        rintro (zero | rfl)
        · omega
        · simp at within
          omega
      have inFront : InFront (text.take length) left := by
        obtain ⟨rest, standing, _⟩ := Text.Utf8.exists_of_decode (left.headD [])
        rw [← settles.text_eq] at standing
        have whole : InFront text left := ⟨rest, standing.symm⟩
        exact whole.of_prefix (List.take_prefix length text)
      refine ((comes_consumeText inFront).bind ?_) onLine
      rintro _ _ rfl
      refine comes_pure ⟨text.take length, by simp only [taken], ?_⟩
      exact reads.trans (settles.reads.trans (.single solid inFront onLine.last))
  | starved => exact comes_stop rfl
  | failed => exact comes_stop rfl

/-! ## Segments -/

/-- What is wanted of what is at hand before a segment reads on. -/
def wantedBy : PlanSegment → List (List UInt8) → Prop
  | .literal _ => NothingShown
  | .capture _ _ => fun _ => True

/-- The matchers of a plan take some text when they match, and their verdicts stand when a line is
in more than one chunk. -/
structure Suited (compiled : CompiledPlan) (chunks : List (List UInt8)) : Prop where
  takes : ∀ index < compiled.plan.rules.length, TakesText (compiled.matcher index)
  sure : (∀ index < compiled.plan.rules.length, Stands (compiled.matcher index)) ∨
    chunks.length ≤ 1

theorem agreesOnLine_runSegment {compiled : CompiledPlan} (suited : Suited compiled chunks)
    (segment : PlanSegment) :
    AgreesOnLine (wantedBy segment) line chunks (Whole.runSegment compiled segment)
      (runSegment compiled segment) := by
  cases segment with
  | literal literal =>
      refine ((agreesOnLine_matchRemaining literal literal.toList).weaken ?_).bind ?_
      · intro diagnostic failed
        simp only [Whole.runSegment, Whole.bind, failed]
      rintro value left ⟨text, came, consumes⟩
      refine comes_pure ⟨text, ?_, consumes⟩
      simp only [Whole.runSegment, Whole.bind, came]
      rfl
  | capture slot index =>
      rw [runSegment]
      cases found : compiled.plan.rules[index]? with
      | none =>
          refine comes_pure ⟨[], ?_, .done chunks⟩
          simp only [Whole.runSegment, found, Whole.value, Whole.behind_nil]
      | some rule =>
          have bound := (List.getElem?_eq_some_iff.mp found).1
          dsimp only
          refine ((agreesOnLine_matchPattern (suited.takes index bound)
            (suited.sure.imp_left fun stands => stands index bound) _).weaken ?_).bind ?_
          · intro diagnostic failed
            simp only [Whole.runSegment, found, Whole.bind, failed]
          rintro matched left ⟨text, came, consumes⟩
          simp only [Whole.runSegment, found, Whole.bind, came]
          cases type : rule.type? with
          | none =>
              simp only [convert, Whole.convert, type]
              exact comes_pure ⟨text, rfl, consumes⟩
          | some type' =>
              simp only [convert, Whole.convert, type]
              cases type'.conversion.apply matched with
              | ok value => exact comes_pure ⟨text, rfl, consumes⟩
              | error reason => exact comes_stop rfl

theorem AgreesOnLine.of_ok {wanted : List (List UInt8) → Prop} {whole : Whole α}
    {step : Scanning α} {taken : List UInt8} {reader : Reader} {value : α} {stream : Stream}
    (agrees : AgreesOnLine wanted line chunks whole step) (onLine : OnLine line taken chunks reader)
    (came : whole (line.stream chunks) = .ok (value, stream)) :
    ∃ text left taken after, stream = Whole.behind (line.stream chunks) text ∧
      Consumes wanted chunks text left ∧ OnLine line taken left after ∧
        outcome step reader = (.ok value, after) := by
  obtain ⟨_, left, taken, after, ⟨text, same, consumes⟩, still, done⟩ | ⟨_, _, failed, _⟩ :=
    agrees onLine
  · obtain ⟨rfl, rfl⟩ := Prod.mk.inj (Except.ok.inj (came.symm.trans same))
    exact ⟨text, left, taken, after, rfl, consumes, still, done⟩
  · cases came.symm.trans failed

theorem AgreesOnLine.of_error {wanted : List (List UInt8) → Prop} {whole : Whole α}
    {step : Scanning α} {taken : List UInt8} {reader : Reader} {diagnostic : Diagnostic ScanFault}
    (agrees : AgreesOnLine wanted line chunks whole step) (onLine : OnLine line taken chunks reader)
    (failed : whole (line.stream chunks) = .error diagnostic) :
    ∃ after, outcome step reader = (.error (.fault diagnostic), after) := by
  obtain ⟨_, _, _, _, ⟨_, came, _⟩, _⟩ | ⟨_, after, same, stopped⟩ := agrees onLine
  · cases came.symm.trans failed
  · obtain rfl := Except.error.inj (failed.symm.trans same)
    exact ⟨after, stopped⟩

end Scan

end Unformat
