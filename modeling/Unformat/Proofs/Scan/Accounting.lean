import Mathlib
import Unformat.Proofs.Input.Passing
import Unformat.Proofs.Scan.Reading
import Unformat.Proofs.Scan.Slots

/-!
# Every byte of a run

A run over a byte reader consumes the texts of its segments, one behind the other, and nothing
else, whatever the patterns make of the text, however the bytes arrive, and even if reads fail.  A
run that stops has consumed the texts of the segments before the one that it stops in, and of that
one the text that would not convert, or a beginning of the literal.
-/

namespace Unformat.Scan

open Reader (Passes)
open Text (Utf8.decode Utf8.encode)

variable {α β : Type}

/-! ## Steps that consume nothing -/

/-- A read fails, or malformed bytes stand at the place that was come to. -/
inductive Obstacle (offset : Nat) : Stop → Prop
  | unread (failure : ReadFailure) : Obstacle offset (.reader (.read failure))
  | malformed (offending : List UInt8) : Obstacle offset (malformedAt offending offset)

/-- The step stops at an obstacle and has consumed nothing. -/
def Obstructed (step : Scanning α) (reader : Reader) : Prop :=
  ∃ stop after, outcome step reader = (.error stop, after) ∧ Obstacle after.consumed stop ∧
    Passes [] reader after

/-- The step yields something good and has consumed nothing, or it is obstructed. -/
def Looks (good : α → Reader → Prop) (step : Scanning α) (reader : Reader) : Prop :=
  (∃ value after, outcome step reader = (.ok value, after) ∧ Passes [] reader after ∧
    good value after) ∨
  Obstructed step reader

theorem Obstructed.bind {step : Scanning α} {reader : Reader} (obstructed : Obstructed step reader)
    (next : α → Scanning β) : Obstructed (step >>= next) reader := by
  obtain ⟨stop, after, stopped, obstacle, passes⟩ := obstructed
  exact ⟨stop, after, outcome_bind_of_error stopped next, obstacle, passes⟩

theorem Obstructed.behind {step : Scanning α} {next : α → Scanning β} {reader middle : Reader}
    {value : α} (done : outcome step reader = (.ok value, middle))
    (passes : Passes [] reader middle) (obstructed : Obstructed (next value) middle) :
    Obstructed (step >>= next) reader := by
  obtain ⟨stop, after, stopped, obstacle, second⟩ := obstructed
  exact ⟨stop, after, by rw [outcome_bind_of_ok done, stopped], obstacle, passes.trans second⟩

theorem looks_pure {good : α → Reader → Prop} {value : α} {reader : Reader}
    (bare : reader.lines = []) (holds : good value reader) : Looks good (pure value) reader :=
  .inl ⟨value, reader, rfl, .refl bare, holds⟩

theorem Looks.bind {good : α → Reader → Prop} {goal : β → Reader → Prop} {step : Scanning α}
    {next : α → Scanning β} {reader : Reader} (first : Looks good step reader)
    (others : ∀ value middle, middle.lines = [] → good value middle →
      Looks goal (next value) middle) : Looks goal (step >>= next) reader := by
  rcases first with ⟨value, middle, done, passes, holds⟩ | obstructed
  · rcases others value middle passes.bare holds with ⟨result, after, came, second, reached⟩ |
      obstructed
    · rw [← outcome_bind_of_ok done next] at came
      exact .inl ⟨result, after, came, passes.trans second, reached⟩
    · exact .inr (.behind done passes obstructed)
  · exact .inr (obstructed.bind next)

theorem obstructed_onReader {operation : Reader → Except ReaderFault α × Reader}
    {reader after : Reader} {failure : ReadFailure}
    (failed : operation reader = (.error (.read failure), after))
    (passes : Passes [] reader after) : Obstructed (onReader operation) reader := by
  have unfolded : outcome (onReader operation) reader =
      ((operation reader).1.mapError .reader, (operation reader).2) := rfl
  refine ⟨_, after, ?_, .unread failure, passes⟩
  rw [unfolded, failed]
  rfl

theorem looks_peek {reader : Reader} (bare : reader.lines = []) :
    Looks (fun bytes after => bytes = after.base.buffer ∧ reader.base.buffer <+: after.base.buffer)
      peek reader := by
  rcases Reader.peek_of_bare bare with ⟨after, looked, passes, longer⟩ |
    ⟨failure, after, failed, passes⟩
  · exact .inl ⟨_, after, outcome_peek looked, passes, rfl, longer⟩
  · exact .inr (obstructed_onReader failed passes)

theorem looks_fill {reader : Reader} (bare : reader.lines = []) :
    Looks (fun _ after => reader.base.buffer <+: after.base.buffer) fill reader := by
  rcases Reader.fill_of_bare bare with ⟨added, after, filled, passes, longer⟩ |
    ⟨failure, after, failed, passes⟩
  · exact .inl ⟨added, after, outcome_fill filled, passes, longer⟩
  · exact .inr (obstructed_onReader failed passes)

/-- The text stands at the front of the bytes at hand. -/
def AtHand (text : List Char) (reader : Reader) : Prop := Utf8.encode text <+: reader.base.buffer

theorem AtHand.of_prefix {part text : List Char} {reader : Reader} (atHand : AtHand text reader)
    (beginning : part <+: text) : AtHand part reader := by
  obtain ⟨rest, rfl⟩ := beginning
  rw [AtHand, Text.Utf8.encode_append] at atHand
  exact (List.prefix_append _ _).trans atHand

theorem looks_decode {reader : Reader} (bare : reader.lines = []) :
    Looks AtHand (decode reader.base.buffer) reader := by
  by_cases malformed : ∃ offending, Utf8.decode reader.base.buffer = ([], .malformed offending)
  · obtain ⟨offending, malformed⟩ := malformed
    exact .inr ⟨_, reader, outcome_decode_of_malformed malformed reader, .malformed offending,
      .refl bare⟩
  · have decoded := outcome_decode (not_exists.mp malformed) reader
    obtain ⟨rest, standing, _⟩ := Text.Utf8.exists_of_decode reader.base.buffer
    exact .inl ⟨_, reader, decoded, .refl bare, rest, standing.symm⟩

theorem looks_textWithin (steps : Nat) {reader : Reader} (bare : reader.lines = []) :
    Looks AtHand (textWithin steps) reader := by
  induction steps generalizing reader with
  | zero =>
      refine (looks_peek bare).bind ?_
      rintro _ middle bare ⟨rfl, _⟩
      exact looks_decode bare
  | succ steps ih =>
      refine (looks_peek bare).bind ?_
      rintro _ middle bare ⟨rfl, _⟩
      refine (looks_decode bare).bind ?_
      intro shown here bare atHand
      split
      · refine (looks_fill bare).bind ?_
        intro added filled bare longer
        cases added with
        | true => exact ih bare
        | false => exact looks_pure bare (atHand.trans longer)
      · exact looks_pure bare atHand

theorem looks_text {reader : Reader} (bare : reader.lines = []) : Looks AtHand text reader := by
  have unfolded : outcome text reader = outcome (textWithin reader.pendingReads) reader := by
    rw [text, outcome_bind_of_ok (outcome_pendingReads reader)]
  rw [Looks, Obstructed, unfolded]
  exact looks_textWithin reader.pendingReads bare

theorem looks_settle (matcher : Matcher) (steps : Nat) (bytes : List UInt8) {shown : List Char}
    {reader : Reader} (bare : reader.lines = []) (atHand : AtHand shown reader) :
    Looks (fun result after => result.1 = matcher result.2 ∧ AtHand result.2 after)
      (settle matcher steps bytes shown) reader := by
  induction steps generalizing bytes shown reader with
  | zero => exact looks_pure bare ⟨rfl, atHand⟩
  | succ steps ih =>
      have stays : Looks (fun result after => result.1 = matcher result.2 ∧ AtHand result.2 after)
          (pure (matcher shown, shown)) reader := looks_pure bare ⟨rfl, atHand⟩
      rw [settle]
      split
      · exact stays
      split
      · exact stays
      refine (looks_fill bare).bind ?_
      intro added filled bare longer
      cases added with
      | false => exact looks_pure bare ⟨rfl, atHand.trans longer⟩
      | true =>
          refine (looks_peek bare).bind ?_
          rintro _ middle bare ⟨rfl, _⟩
          refine (looks_decode bare).bind ?_
          intro text after bare atHand
          exact ih _ bare atHand

/-! ## Literals -/

theorem outcome_consumeText_of_bare {text : List Char} {reader : Reader}
    (bare : reader.lines = []) (atHand : AtHand text reader) :
    ∃ after, outcome (consumeText text) reader = (.ok (), after) ∧
      Passes (Utf8.encode text) reader after := by
  obtain ⟨after, consumed, passes⟩ := Reader.consume_of_bare bare atHand
  exact ⟨after, outcome_consumeText consumed, passes⟩

/-- What is left of a literal is consumed; or a beginning of it is, and what stands behind that is
not what has to follow, or cannot be looked at. -/
theorem outcome_matchRemaining (literal : String) (remaining : List Char) {reader : Reader}
    (bare : reader.lines = []) :
    (∃ after, outcome (matchRemaining literal remaining) reader = (.ok (), after) ∧
      Passes (Utf8.encode remaining) reader after) ∨
    (∃ stop after part, outcome (matchRemaining literal remaining) reader = (.error stop, after) ∧
      part <+: remaining ∧ part ≠ remaining ∧ Passes (Utf8.encode part) reader after ∧
        (stop = .fault (.of (.literalMismatch literal)) ∨ Obstacle after.consumed stop)) := by
  -- A literal longer than the text at hand goes on behind that text, with fewer characters left.
  induction length : remaining.length using Nat.strongRecOn generalizing remaining reader with
  | _ length ih =>
      rw [matchRemaining]
      by_cases empty : remaining = []
      · subst empty
        exact .inl ⟨reader, rfl, .refl bare⟩
      rw [if_neg (by simpa using empty)]
      rcases looks_text bare with ⟨shown, middle, looked, passes, atHand⟩ |
        ⟨stop, after, stopped, obstacle, passes⟩
      · rw [outcome_bind_of_ok looked]
        by_cases whole : remaining <+: shown
        · obtain ⟨after, done, second⟩ :=
            outcome_consumeText_of_bare passes.bare (atHand.of_prefix whole)
          rw [if_pos (by simpa using whole)]
          exact .inl ⟨after, done, passes.trans second⟩
        rw [if_neg (by simpa using whole)]
        cases part : shown.isPrefixOf? remaining with
        | none => exact .inr ⟨_, middle, [], rfl, List.nil_prefix, Ne.symm empty, passes, .inl rfl⟩
        | some rest =>
            obtain rfl := List.isPrefixOf?_eq_some_iff_append_eq.mp part
            dsimp only
            by_cases fewer : rest.length < (shown ++ rest).length
            · obtain ⟨next, done, second⟩ := outcome_consumeText_of_bare passes.bare atHand
              have both : Passes (Utf8.encode shown) reader next := passes.trans second
              rw [if_pos fewer, outcome_bind_of_ok done]
              rcases ih _ (by omega) rest second.bare rfl with ⟨after, came, last⟩ |
                ⟨stop, after, more, stopped, beginning, short, last, cause⟩
              · left
                refine ⟨after, came, ?_⟩
                rw [Text.Utf8.encode_append]
                exact both.trans last
              · right
                refine ⟨stop, after, shown ++ more, stopped, ?_, by simpa using short, ?_, cause⟩
                · exact (List.prefix_append_right_inj shown).mpr beginning
                · rw [Text.Utf8.encode_append]
                  exact both.trans last
            · rw [if_neg fewer]
              exact .inr ⟨_, middle, [], rfl, List.nil_prefix, Ne.symm empty, passes, .inl rfl⟩
      · right
        exact ⟨stop, after, [], outcome_bind_of_error stopped _, List.nil_prefix, Ne.symm empty,
          passes, .inr obstacle⟩

/-! ## Captures -/

/-- The matcher finds the text at the front of a text that the bytes begin with. -/
def Finds (matcher : Matcher) (remaining : List UInt8) (text : List Char) : Prop :=
  ∃ shown length, Utf8.encode shown <+: remaining ∧ matcher shown = .matched length ∧
    text = shown.take length

theorem outcome_matchPattern_of_bare (matcher : Matcher) (pattern : String) {reader : Reader}
    (bare : reader.lines = []) :
    (∃ text after, outcome (matchPattern matcher pattern) reader = (.ok text, after) ∧
      Finds matcher reader.remaining text ∧ Passes (Utf8.encode text) reader after) ∨
    (∃ after, outcome (matchPattern matcher pattern) reader =
      (.error (.fault (.of (.patternMismatch pattern))), after) ∧ Passes [] reader after) ∨
    Obstructed (matchPattern matcher pattern) reader := by
  rw [matchPattern]
  rcases looks_text bare with ⟨shown, first, looked, passes, atHand⟩ | obstructed
  swap
  · exact .inr (.inr (obstructed.bind _))
  rcases looks_peek passes.bare with ⟨_, second, peeked, none, rfl, longer⟩ | obstructed
  swap
  · exact .inr (.inr (.behind looked passes (obstructed.bind _)))
  have visible : AtHand shown second := atHand.trans longer
  have here : Passes [] reader second := passes.trans none
  rcases looks_settle matcher (second.pendingReads + 1) second.base.buffer none.bare visible with
    ⟨⟨verdict, text⟩, third, settled, still, same, standing⟩ | obstructed
  swap
  · refine .inr (.inr (.behind looked passes (.behind peeked none ?_)))
    exact .behind (outcome_pendingReads second) (.refl none.bare) (obstructed.bind _)
  have come : Passes [] reader third := here.trans still
  rw [outcome_bind_of_ok looked, outcome_bind_of_ok peeked,
    outcome_bind_of_ok (outcome_pendingReads second), outcome_bind_of_ok settled]
  obtain rfl : verdict = matcher text := same
  cases verdict : matcher text with
  | matched length =>
      left
      have part := standing.of_prefix (List.take_prefix length text)
      obtain ⟨after, done, last⟩ := outcome_consumeText_of_bare come.bare part
      refine ⟨text.take length, after, outcome_bind_of_ok done _, ⟨text, length, ?_, verdict, rfl⟩,
        come.trans last⟩
      rw [come.remaining_eq, List.nil_append, Reader.remaining]
      exact standing.trans (List.prefix_append _ _)
  | starved => exact .inr (.inl ⟨third, rfl, come⟩)
  | failed => exact .inr (.inl ⟨third, rfl, come⟩)

/-! ## Segments -/

/-- A segment takes a text off the front of the bytes that remain, and yields values for slots. -/
inductive Takes (compiled : CompiledPlan) (remaining : List UInt8) :
    PlanSegment → List Char → List (Nat × Value) → Prop
  | literal (text : String) : Takes compiled remaining (.literal text) text.toList []
  | untyped {slot : Option Nat} {index : Nat} {rule : Rule} {text : List Char}
      (found : compiled.plan.rules[index]? = some rule) (untyped : rule.type? = none)
      (finds : Finds (compiled.matcher index) remaining text) :
      Takes compiled remaining (.capture slot index) text []
  | typed {slot : Option Nat} {index : Nat} {rule : Rule} {type : ScanType} {text : List Char}
      {value : Value} (found : compiled.plan.rules[index]? = some rule)
      (typed : rule.type? = some type) (finds : Finds (compiled.matcher index) remaining text)
      (converts : type.conversion.apply text = .ok value) :
      Takes compiled remaining (.capture slot index) text
        (slot.map fun slot => (slot, value)).toList

/-- A segment stops, at the place `offset`, when it has taken a text. -/
inductive StopsIn (compiled : CompiledPlan) (remaining : List UInt8) (offset : Nat) :
    PlanSegment → Stop → List Char → Prop
  | literal {text : String} {stop : Stop} {part : List Char} (beginning : part <+: text.toList)
      (short : part ≠ text.toList)
      (cause : stop = .fault (.of (.literalMismatch text)) ∨ Obstacle offset stop) :
      StopsIn compiled remaining offset (.literal text) stop part
  | obstacle {slot : Option Nat} {index : Nat} {stop : Stop} (obstacle : Obstacle offset stop) :
      StopsIn compiled remaining offset (.capture slot index) stop []
  | mismatch {slot : Option Nat} {index : Nat} {rule : Rule}
      (found : compiled.plan.rules[index]? = some rule) :
      StopsIn compiled remaining offset (.capture slot index)
        (.fault (.of (.patternMismatch (rule.pattern?.getD "")))) []
  | unconvertible {slot : Option Nat} {index : Nat} {rule : Rule} {type : ScanType}
      {text : List Char} {reason : ConversionFault}
      (found : compiled.plan.rules[index]? = some rule) (typed : rule.type? = some type)
      (finds : Finds (compiled.matcher index) remaining text)
      (refuses : type.conversion.apply text = .error reason) :
      StopsIn compiled remaining offset (.capture slot index)
        (.fault (.of (.unconvertible (String.ofList text) type.name reason))) text

/-- Segments take texts one behind the other. -/
inductive TakesAll (compiled : CompiledPlan) :
    List UInt8 → List PlanSegment → List (List Char) → List (Nat × Value) → Prop
  | nil {remaining : List UInt8} : TakesAll compiled remaining [] [] []
  | cons {remaining : List UInt8} {segment : PlanSegment} {rest : List PlanSegment}
      {text : List Char} {texts : List (List Char)} {first others : List (Nat × Value)}
      (here : Takes compiled remaining segment text first)
      (later : TakesAll compiled (remaining.drop (Utf8.encode text).length) rest texts others) :
      TakesAll compiled remaining (segment :: rest) (text :: texts) (first ++ others)

variable {compiled : CompiledPlan}

theorem outcome_convert_of_untyped {rule : Rule} (untyped : rule.type? = none)
    (text : List Char) (reader : Reader) :
    outcome (convert rule text) reader = (.ok none, reader) := by
  rw [convert, untyped]
  rfl

theorem outcome_convert_of_ok {rule : Rule} {type : ScanType} {text : List Char} {value : Value}
    (typed : rule.type? = some type) (converts : type.conversion.apply text = .ok value)
    (reader : Reader) : outcome (convert rule text) reader = (.ok (some value), reader) := by
  simp only [convert, typed, converts]
  rfl

theorem outcome_convert_of_error {rule : Rule} {type : ScanType} {text : List Char}
    {reason : ConversionFault} (typed : rule.type? = some type)
    (refuses : type.conversion.apply text = .error reason) (reader : Reader) :
    outcome (convert rule text) reader =
      (.error (.fault (.of (.unconvertible (String.ofList text) type.name reason))), reader) := by
  simp only [convert, typed, refuses]
  rfl

/-- The rule of every capture is one of the plan. -/
def Known (compiled : CompiledPlan) (segments : List PlanSegment) : Prop :=
  ∀ slot index, .capture slot index ∈ segments → index < compiled.plan.rules.length

/-- A segment takes a text and the reader passes over that, or it stops. -/
theorem outcome_runSegment (segment : PlanSegment) (known : Known compiled [segment])
    {reader : Reader} (bare : reader.lines = []) :
    (∃ text outputs after, outcome (runSegment compiled segment) reader = (.ok outputs, after) ∧
      Takes compiled reader.remaining segment text outputs ∧
        Passes (Utf8.encode text) reader after) ∨
    (∃ stop text after, outcome (runSegment compiled segment) reader = (.error stop, after) ∧
      StopsIn compiled reader.remaining after.consumed segment stop text ∧
        Passes (Utf8.encode text) reader after) := by
  cases segment with
  | literal text =>
      rw [runSegment, matchLiteral]
      rcases outcome_matchRemaining text text.toList bare with ⟨after, done, passes⟩ |
        ⟨stop, after, part, stopped, beginning, short, passes, cause⟩
      · left
        exact ⟨text.toList, [], after, outcome_bind_of_ok done _, .literal text, passes⟩
      · right
        exact ⟨stop, part, after, outcome_bind_of_error stopped _,
          .literal beginning short cause, passes⟩
  | capture slot index =>
      have bound := known slot index List.mem_cons_self
      have found := List.getElem?_eq_getElem bound
      generalize compiled.plan.rules[index] = rule at found
      simp only [runSegment, found]
      rcases outcome_matchPattern_of_bare (compiled.matcher index) (rule.pattern?.getD "") bare with
        ⟨text, after, matched, finds, passes⟩ | ⟨after, stopped, passes⟩ |
        ⟨stop, after, stopped, obstacle, passes⟩
      · rw [outcome_bind_of_ok matched]
        cases typed : rule.type? with
        | none =>
            left
            rw [outcome_bind_of_ok (outcome_convert_of_untyped typed text after)]
            refine ⟨text, [], after, ?_, .untyped found typed finds, passes⟩
            cases slot <;> rfl
        | some type =>
            cases converts : type.conversion.apply text with
            | ok value =>
                left
                rw [outcome_bind_of_ok (outcome_convert_of_ok typed converts after)]
                refine ⟨text, _, after, ?_, .typed found typed finds converts, passes⟩
                cases slot <;> rfl
            | error reason =>
                right
                exact ⟨_, text, after,
                  outcome_bind_of_error (outcome_convert_of_error typed converts after) _,
                  .unconvertible found typed finds converts, passes⟩
      · right
        exact ⟨_, [], after, outcome_bind_of_error stopped _, .mismatch found, passes⟩
      · right
        exact ⟨stop, [], after, outcome_bind_of_error stopped _, .obstacle obstacle, passes⟩

/-! ## Runs -/

/-- A run over segments stops: it has come to the segment at `place`, those before it have taken
their texts, and the reader has passed over these and over the part that this segment has taken. -/
structure StopsAt (compiled : CompiledPlan) (segments : List PlanSegment) (reader : Reader)
    (place : Nat) (stop : Stop) (after : Reader) (texts : List (List Char)) (part : List Char) :
    Prop where
  comes : ∃ segment outputs middle, segments[place]? = some segment ∧
    outcome (runSegments compiled (segments.take place)) reader = (.ok outputs, middle) ∧
      TakesAll compiled reader.remaining (segments.take place) texts outputs ∧
        outcome (runSegment compiled segment) middle = (.error stop, after) ∧
          StopsIn compiled middle.remaining after.consumed segment stop part
  passes : Passes (texts.flatMap Utf8.encode ++ Utf8.encode part) reader after

theorem outcome_runSegments_cons {segment : PlanSegment} {reader middle : Reader}
    {first : List (Nat × Value)}
    (here : outcome (runSegment compiled segment) reader = (.ok first, middle))
    (rest : List PlanSegment) :
    outcome (runSegments compiled (segment :: rest)) reader =
      match outcome (runSegments compiled rest) middle with
      | (.ok others, after) => (.ok (first ++ others), after)
      | (.error stop, after) => (.error stop, after) := by
  rw [runSegments, outcome_bind_of_ok here, outcome_bind]
  rcases outcome (runSegments compiled rest) middle with ⟨_ | _, _⟩ <;> rfl

theorem StopsAt.behind {segment : PlanSegment} {rest : List PlanSegment}
    {reader middle after : Reader} {place : Nat} {stop : Stop} {text part : List Char}
    {texts : List (List Char)} {first : List (Nat × Value)}
    (stops : StopsAt compiled rest middle place stop after texts part)
    (here : outcome (runSegment compiled segment) reader = (.ok first, middle))
    (takes : Takes compiled reader.remaining segment text first)
    (passes : Passes (Utf8.encode text) reader middle) :
    StopsAt compiled (segment :: rest) reader (place + 1) stop after (text :: texts) part := by
  obtain ⟨⟨failing, outputs, last, standing, came, taken, stopped, cause⟩, later⟩ := stops
  refine ⟨⟨failing, first ++ outputs, last, by simpa using standing, ?_, ?_, stopped, cause⟩, ?_⟩
  · rw [List.take_succ_cons, outcome_runSegments_cons here, came]
  · rw [← passes.drop_eq] at taken
    exact .cons takes taken
  · rw [List.flatMap_cons, List.append_assoc]
    exact passes.trans later

/-- Segments take their texts and the reader passes over them all, or the run stops in one. -/
theorem outcome_runSegments {segments : List PlanSegment} (known : Known compiled segments)
    {reader : Reader} (bare : reader.lines = []) :
    (∃ texts outputs after, outcome (runSegments compiled segments) reader = (.ok outputs, after) ∧
      TakesAll compiled reader.remaining segments texts outputs ∧
        Passes (texts.flatMap Utf8.encode) reader after) ∨
    (∃ stop place texts part after,
      outcome (runSegments compiled segments) reader = (.error stop, after) ∧
        StopsAt compiled segments reader place stop after texts part) := by
  induction segments generalizing reader with
  | nil => exact .inl ⟨[], [], reader, rfl, .nil, .refl bare⟩
  | cons segment rest ih =>
      have knownHere : Known compiled [segment] := by
        intro slot index member
        exact known slot index (by simpa using .inl (List.mem_singleton.mp member))
      have knownLater : Known compiled rest := by
        intro slot index member
        exact known slot index (List.mem_cons_of_mem _ member)
      rcases outcome_runSegment segment knownHere bare with
        ⟨text, first, middle, here, takes, passes⟩ | ⟨stop, text, after, stopped, cause, passes⟩
      · rw [outcome_runSegments_cons here]
        rcases ih knownLater passes.bare with ⟨texts, others, after, came, later, last⟩ |
          ⟨stop, place, texts, part, after, came, stops⟩
        · left
          rw [came]
          rw [← passes.drop_eq] at later
          exact ⟨text :: texts, first ++ others, after, rfl, .cons takes later, passes.trans last⟩
        · right
          rw [came]
          exact ⟨stop, place + 1, text :: texts, part, after, rfl,
            stops.behind here takes passes⟩
      · right
        refine ⟨stop, 0, [], text, after, outcome_bind_of_error stopped _, ?_⟩
        exact ⟨⟨segment, [], reader, rfl, rfl, .nil, stopped, cause⟩, passes⟩

/-! ## Values -/

/-- Every capture that fills a slot has a rule with a type. -/
def Typed (compiled : CompiledPlan) (segments : List PlanSegment) : Prop :=
  ∀ slot index, .capture (some slot) index ∈ segments →
    ∃ rule type, compiled.plan.rules[index]? = some rule ∧ rule.type? = some type

theorem Takes.slots_eq {remaining : List UInt8} {segment : PlanSegment} {text : List Char}
    {outputs : List (Nat × Value)} (takes : Takes compiled remaining segment text outputs)
    (typed : Typed compiled [segment]) : outputs.map Prod.fst = segment.slot?.toList := by
  cases takes with
  | literal text => rfl
  | @untyped slot index rule text found untyped finds =>
      cases slot with
      | none => rfl
      | some slot =>
          obtain ⟨other, type, otherFound, given⟩ := typed slot index List.mem_cons_self
          obtain rfl : rule = other := Option.some.inj (found.symm.trans otherFound)
          rw [untyped] at given
          cases given
  | @typed slot => cases slot <;> rfl

theorem TakesAll.slots_eq {remaining : List UInt8} {segments : List PlanSegment}
    {texts : List (List Char)} {outputs : List (Nat × Value)}
    (takes : TakesAll compiled remaining segments texts outputs)
    (typed : Typed compiled segments) :
    outputs.map Prod.fst = segments.filterMap PlanSegment.slot? := by
  induction takes with
  | nil => rfl
  | @cons remaining segment rest text texts first others here later ih =>
      have typedHere : Typed compiled [segment] := by
        intro slot index member
        exact typed slot index (by simpa using .inl (List.mem_singleton.mp member))
      have typedLater : Typed compiled rest := by
        intro slot index member
        exact typed slot index (List.mem_cons_of_mem _ member)
      rw [List.map_append, here.slots_eq typedHere, ih typedLater, List.filterMap_cons]
      cases segment.slot? <;> rfl

/-- A capture that fills a slot yields its converted text for it. -/
theorem TakesAll.exists_value {remaining : List UInt8} {segments : List PlanSegment}
    {texts : List (List Char)} {outputs : List (Nat × Value)}
    (takes : TakesAll compiled remaining segments texts outputs) {place slot index : Nat}
    {rule : Rule} {type : ScanType}
    (standing : segments[place]? = some (.capture (some slot) index))
    (found : compiled.plan.rules[index]? = some rule) (typed : rule.type? = some type) :
    ∃ text value, texts[place]? = some text ∧ type.conversion.apply text = .ok value ∧
      (slot, value) ∈ outputs := by
  induction takes generalizing place with
  | nil => simp at standing
  | @cons remaining segment rest text texts first others here later ih =>
      cases place with
      | succ place =>
          obtain ⟨text, value, taken, converts, member⟩ := ih (by simpa using standing)
          exact ⟨text, value, by simpa using taken, converts, List.mem_append_right _ member⟩
      | zero =>
          obtain rfl : segment = .capture (some slot) index := by simpa using standing
          cases here with
          | untyped otherFound untyped finds =>
              obtain rfl := Option.some.inj (found.symm.trans otherFound)
              rw [untyped] at typed
              cases typed
          | typed otherFound otherTyped finds converts =>
              obtain rfl := Option.some.inj (found.symm.trans otherFound)
              obtain rfl := Option.some.inj (typed.symm.trans otherTyped)
              exact ⟨text, _, rfl, converts, by simp⟩

/-- The value at a slot is the converted text of the one capture that fills the slot. -/
structure FillsSlot (compiled : CompiledPlan) (texts : List (List Char)) (values : List Value)
    (slot place : Nat) : Prop where
  fills : ∃ index rule type text value,
    compiled.plan.segments[place]? = some (.capture (some slot) index) ∧
      compiled.plan.rules[index]? = some rule ∧ rule.type? = some type ∧
        texts[place]? = some text ∧ type.conversion.apply text = .ok value ∧
          values[slot]? = some value
  alone : ∀ other index, compiled.plan.segments[other]? = some (.capture (some slot) index) →
    other = place

/-- A run of a bound plan over a byte reader accounts for every byte, whatever its matchers find
and whatever the reads bring.  When it succeeds, the segments have taken their texts one behind the
other, these are the bytes consumed, and every slot has the converted text of its capture.  When it
stops, it has consumed the texts of the segments before the one that it stops in and the part that
this one has taken: nothing, for a capture that does not match or cannot be read on, and the text
that would not convert. -/
theorem execute_accounts_for_bytes {segments : List Segment} {rules : RuleList}
    {template : String} {compiled : CompiledPlan}
    (bound : Plan.bind segments rules template = .ok compiled.plan) {reader : Reader}
    (bare : reader.lines = []) :
    match outcome (execute (.ok compiled)) reader with
    | (.ok values, after) =>
        values.length = compiled.plan.arity ∧
          ∃ texts outputs,
            TakesAll compiled reader.remaining compiled.plan.segments texts outputs ∧
              Passes (texts.flatMap Utf8.encode) reader after ∧
                ∀ slot < compiled.plan.arity, ∃ place, FillsSlot compiled texts values slot place
    | (.error stop, after) =>
        ∃ place texts part,
          StopsAt compiled compiled.plan.segments reader place stop after texts part := by
  have slotted := Plan.wellSlotted_of_bind bound
  have known : Known compiled compiled.plan.segments := slotted.rule_lt
  have typed : Typed compiled compiled.plan.segments := fun slot index member =>
    Plan.exists_type_of_bind bound member
  have unfolded : execute (.ok compiled) = run compiled := rfl
  rw [unfolded, run]
  rcases outcome_runSegments known bare with ⟨texts, outputs, after, came, takes, passes⟩ |
    ⟨stop, place, texts, part, after, stopped, stops⟩
  · rw [outcome_bind_of_ok came, outcome_pure]
    have taken : outputs.map Prod.fst = compiled.plan.slots := by
      rw [takes.slots_eq typed, Plan.slots_eq]
    have count : outputs.length = compiled.plan.slots.length := by
      rw [← taken, List.length_map]
    have nodup := slotted.nodup
    have initial := slotted.initial
    rw [← taken] at nodup initial
    rw [List.length_map] at initial
    obtain ⟨length, entries⟩ := bySlot_getElem? nodup initial
    refine ⟨by rw [length, count, slotted.arity_eq], texts, outputs, takes, passes, ?_⟩
    intro slot below
    obtain ⟨place, index, standing⟩ := slotted.exists_capture below
    obtain ⟨rule, type, found, given⟩ := typed slot index (List.mem_of_getElem? standing)
    obtain ⟨text, value, took, converts, member⟩ := takes.exists_value standing found given
    refine ⟨place, ⟨index, rule, type, text, value, standing, found, given, took, converts,
      entries slot value member⟩, ?_⟩
    intro other otherIndex there
    exact slotted.place_eq standing rfl there rfl
  · rw [outcome_bind_of_error stopped]
    exact ⟨place, texts, part, stops⟩

/-- A read fails while a number behind a literal is being read. -/
theorem execute_accounts_for_bytes_before_failure :
    let plan : Plan :=
      ⟨[.literal "x", .capture (some 0) 0], [.custom "[0-9]+" .string], 1, ""⟩
    let compiled : CompiledPlan := ⟨plan, [fun shown => .matched shown.length]⟩
    let reader : Reader :=
      { base := { pending := [.failure (.failed "gone")], buffer := [0x78, 0x31], consumed := 7 } }
    let after : Reader := { base := { pending := [], buffer := [0x31], consumed := 8 } }
    Plan.bind [.literal "x", .capture ⟨.next, .next⟩ 1]
        { positional := [.custom "[0-9]+" .string] } "" = .ok plan ∧
      outcome (execute (.ok compiled)) reader = (.error (.reader (.read (.failed "gone"))), after) ∧
        ∃ place texts part, StopsAt compiled plan.segments reader place
          (.reader (.read (.failed "gone"))) after texts part := by
  intro plan compiled reader after
  have bound : Plan.bind [.literal "x", .capture ⟨.next, .next⟩ 1]
      { positional := [.custom "[0-9]+" .string] } "" = .ok compiled.plan := by cbv
  have came : outcome (execute (.ok compiled)) reader =
      (.error (.reader (.read (.failed "gone"))), after) := by cbv
  have bare : reader.lines = [] := rfl
  have accounted := execute_accounts_for_bytes bound bare
  rw [came] at accounted
  exact ⟨bound, came, accounted⟩

end Unformat.Scan
