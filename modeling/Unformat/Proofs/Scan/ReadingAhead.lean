import Unformat.Proofs.Input.Passing
import Unformat.Proofs.Input.Supply
import Unformat.Proofs.Scan.Reading
import Unformat.Proofs.Text.LongestPrefix

/-!
# How far a capture reads ahead

Matching a pattern reads on while nothing is at hand, while what is at hand is only the beginning of
a code point, and while the match reaches to the end of the text at hand or wants more than that;
but never with more than three bytes behind that text.  So it comes to an end when the reads do, and
on a stream without an end it does so once four bytes behind the text are at hand.  Whatever it ends
with, it has consumed the text that it gives and nothing else.
-/

namespace Unformat

/-- The bytes begin a code point, a character or a surrogate, and are not all of it. -/
def Text.Utf8.OpensCodePoint (bytes : List UInt8) : Prop :=
  Unfinished bytes ∨ IsCutSurrogate bytes

/-- The bytes spell a text of `offset` bytes, and those behind it begin no character. -/
def Text.Utf8.BreaksAt (bytes : List UInt8) (offset : Nat) : Prop :=
  ∃ text, Longest bytes text ∧ (encode text).length = offset ∧ IllFormed (bytes.drop offset)

namespace ByteReader

/-- The reader behind some reads. -/
def afterReads : Nat → ByteReader → ByteReader
  | 0, base => base
  | count + 1, base => afterReads count base.fill.2

/-- The reader that the first `count` deliveries of an endless stream are to come to. -/
def fedBy (source : Nat → Delivery) (count : Nat) (base : ByteReader) : ByteReader :=
  { base with pending := (List.range count).map source }

/-- The reader with more reads behind those that are to come. -/
def withMore (base : ByteReader) (more : List Delivery) : ByteReader :=
  { base with pending := base.pending ++ more }

theorem fedBy_eq_withMore (base : ByteReader) (source : Nat → Delivery) {count more : Nat}
    (le : count ≤ more) :
    ∃ rest, base.fedBy source more = (base.fedBy source count).withMore rest := by
  obtain ⟨extra, rfl⟩ := Nat.exists_eq_add_of_le le
  refine ⟨((List.range extra).map (count + ·)).map source, ?_⟩
  simp only [fedBy, withMore, List.range_add, List.map_append]

theorem fill_withMore {base : ByteReader} (coming : base.pending ≠ []) (more : List Delivery) :
    (base.withMore more).fill = (base.fill.1, base.fill.2.withMore more) := by
  obtain ⟨pending, buffer, ended, consumed⟩ := base
  cases ended with
  | true => rfl
  | false =>
      match pending, coming with
      | .data [] :: _, _ | .data (_ :: _) :: _, _ | .failure _ :: _, _ => rfl

theorem pending_fill {base : ByteReader} (unended : base.ended = false) :
    base.fill.2.pending = base.pending.tail := by
  obtain ⟨pending, buffer, ended, consumed⟩ := base
  obtain rfl : ended = false := unended
  match pending with
  | [] | .data [] :: _ | .data (_ :: _) :: _ | .failure _ :: _ => rfl

theorem supply_fill (base : ByteReader) : base.fill.2.supply = base.supply := by
  rcases base.fill_waits with ⟨_, after, filled, waits⟩ | ⟨_, after, failed, waits⟩
  · rw [filled]
    exact waits.supply_eq
  · rw [failed]
    exact waits.supply_eq

end ByteReader

namespace Scan

open Text (Utf8.encode Utf8.longestPrefix Utf8.OpensCodePoint)

variable {matcher : Matcher} {pattern : String} {base : ByteReader}

/-! ## When another read is made -/

/-- The match asks for another read, with this text at hand. -/
structure Asks (matcher : Matcher) (base : ByteReader) (text : List Char) : Prop where
  unended : base.ended = false
  shown : Utf8.longestPrefix base.buffer = .ok text
  short : base.buffer.length ≤ (Utf8.encode text).length + 3
  cause : base.buffer = [] ∨ Utf8.OpensCodePoint base.buffer ∨
    wantsMore (matcher text) text = true

/-- What the match says of the bytes at hand. -/
def answer (matcher : Matcher) (pattern : String) (base : ByteReader) :
    Except Stop (List Char) :=
  match Utf8.longestPrefix base.buffer with
  | .error offending => .error (malformedAt offending base.consumed)
  | .ok text =>
      match matcher text with
      | .matched length => .ok (text.take length)
      | _ => .error (.fault (.of (.patternMismatch pattern)))

/-- The bytes that an answer consumes. -/
def takenBy : Except Stop (List Char) → List UInt8
  | .ok text => Utf8.encode text
  | .error _ => []

/-- The bytes are gone, and nothing else is; that no read is to come may have been noticed or
not. -/
structure Leaves (settled : ByteReader) (bytes : List UInt8) (reader : Reader) : Prop where
  bare : reader.lines = []
  buffer_eq : settled.buffer = bytes ++ reader.base.buffer
  pending_eq : reader.base.pending = settled.pending
  consumed_eq : reader.consumed = settled.consumed + bytes.length
  ended_eq : reader.base.ended = settled.ended ∨ settled.pending = []

/-- The match asks for so many reads, one by one, until it asks for none or one fails. -/
inductive ReadsAhead (matcher : Matcher) (pattern : String) :
    ByteReader → Nat → Except Stop (List Char) × Reader → Prop
  | settled {base : ByteReader} {result : Except Stop (List Char) × Reader}
      (quiet : ∀ text, ¬ Asks matcher base text) (answers : result.1 = answer matcher pattern base)
      (leaves : Leaves base (takenBy result.1) result.2) :
      ReadsAhead matcher pattern base 0 result
  | failed {base next : ByteReader} {text : List Char} {reason : ReadFailure}
      (asks : Asks matcher base text) (fails : base.fill = (.error (.read reason), next)) :
      ReadsAhead matcher pattern base 1 (.error (.reader (.read reason)), ⟨next, []⟩)
  | onward {base next : ByteReader} {text : List Char} {added : Bool} {count : Nat}
      {result : Except Stop (List Char) × Reader} (asks : Asks matcher base text)
      (reads : base.fill = (.ok added, next))
      (later : ReadsAhead matcher pattern next count result) :
      ReadsAhead matcher pattern base (count + 1) result

/-! ## The text at hand -/

/-- Bytes that begin a code point and are not all of it spell no text. -/
theorem no_text_of_opensCodePoint {bytes : List UInt8} (opens : Utf8.OpensCodePoint bytes) :
    (Text.Utf8.decode bytes).1 = [] := by
  rcases opens with ⟨_, c, more, some, spelled⟩ | cut
  · obtain ⟨rest, split, _⟩ := Text.Utf8.exists_of_decode bytes
    have inFront := Text.Utf8.decode_append_prefix bytes more
    have alone := Text.Utf8.decode_utf8EncodeChar_append c []
    rw [List.append_nil, ← spelled, Text.Utf8.decode_nil] at alone
    rw [alone] at inFront
    cases found : (Text.Utf8.decode bytes).1 with
    | nil => rfl
    | cons first others =>
        -- The character would be spelled out with nothing of it left.
        rw [found] at inFront split
        obtain ⟨rfl, _⟩ := List.cons_prefix_cons.mp inFront
        have lengths := congrArg List.length spelled
        have behind := List.length_pos_iff.mpr some
        simp only [split, Text.Utf8.encode_cons, List.length_append] at lengths
        omega
  · rw [Text.Utf8.decode_of_front_incomplete cut.front_eq]

theorem opensCodePoint_of_no_text {bytes : List UInt8} (some : bytes ≠ [])
    (shown : Utf8.longestPrefix bytes = .ok []) : Utf8.OpensCodePoint bytes ∧ bytes.length ≤ 3 := by
  have found : Text.Utf8.front bytes = .incomplete := by
    have decoded := Text.Utf8.decode_of_longestPrefix_eq_ok shown
    cases found : Text.Utf8.front bytes with
    | empty => exact (some (Text.Utf8.front_eq_empty_iff.mp found)).elim
    | incomplete => rfl
    | malformed size =>
        rw [Text.Utf8.longestPrefix_of_front_malformed found] at shown
        cases shown
    | scalar c size => simp [Text.Utf8.decode_of_front_scalar found] at decoded
  exact ⟨Text.Utf8.unfinished_or_cut_of_front_incomplete found,
    Text.Utf8.length_of_front_incomplete found⟩

namespace Asks

variable {text : List Char}

theorem not_of_ended (ended : base.ended = true) : ¬ Asks matcher base text := by
  intro asks
  rw [asks.unended] at ended
  cases ended

theorem not_of_malformed {offending : List UInt8}
    (malformed : Utf8.longestPrefix base.buffer = .error offending) :
    ¬ Asks matcher base text := by
  intro asks
  rw [asks.shown] at malformed
  cases malformed

/-- As long as the end has not been met, bytes without a text ask for more. -/
theorem of_no_text (unended : base.ended = false)
    (shown : Utf8.longestPrefix base.buffer = .ok []) : Asks matcher base [] := by
  by_cases empty : base.buffer = []
  · exact ⟨unended, shown, by simp [empty], .inl empty⟩
  · obtain ⟨opens, short⟩ := opensCodePoint_of_no_text empty shown
    exact ⟨unended, shown, by omega, .inr (.inl opens)⟩

/-- With a text at hand, only what the matcher makes of it can ask for more. -/
theorem wantsMore (asks : Asks matcher base text) (some : text ≠ []) :
    wantsMore (matcher text) text = true := by
  have found := Text.Utf8.decode_of_longestPrefix_eq_ok asks.shown
  rcases asks.cause with empty | opens | wants
  · rw [empty, Text.Utf8.decode_nil] at found
    exact (some found.symm).elim
  · rw [no_text_of_opensCodePoint opens] at found
    exact (some found.symm).elim
  · exact wants

end Asks

/-! ## Answering -/

/-- Take the text that a verdict gives. -/
def takeMatched (pattern : String) : Pattern.Verdict × List Char → Scanning (List Char)
  | (.matched length, shown) => do
      let matched := shown.take length
      consumeText matched
      return matched
  | _ => stop (.patternMismatch pattern)

/-- Look again, and match until the verdict is settled. -/
def settleText (matcher : Matcher) (pattern : String) (shown : List Char) :
    Scanning (List Char) := do
  let bytes ← peek
  takeMatched pattern (← settle matcher ((← pendingReads) + 1) bytes shown)

theorem matchPattern_eq (matcher : Matcher) (pattern : String) :
    matchPattern matcher pattern = text >>= settleText matcher pattern := rfl

theorem answers_takeMatched {settled : ByteReader} {text : List Char}
    (same : Leaves settled [] ⟨base, []⟩) (shown : Utf8.longestPrefix settled.buffer = .ok text) :
    (outcome (takeMatched pattern (matcher text, text)) ⟨base, []⟩).1 =
        answer matcher pattern settled ∧
      Leaves settled (takenBy (outcome (takeMatched pattern (matcher text, text)) ⟨base, []⟩).1)
        (outcome (takeMatched pattern (matcher text, text)) ⟨base, []⟩).2 := by
  simp only [answer, shown]
  cases verdict : matcher text with
  | failed | starved => exact ⟨rfl, same⟩
  | matched length =>
      have atHand : Utf8.encode (text.take length) <+: base.buffer := by
        have found := Text.Utf8.longest_decode settled.buffer
        rw [Text.Utf8.decode_of_longestPrefix_eq_ok shown] at found
        obtain ⟨rest, split⟩ := List.take_prefix length text
        obtain ⟨behind, standing⟩ := found.1
        refine ⟨Utf8.encode rest ++ behind, ?_⟩
        rw [← List.append_assoc, ← Text.Utf8.encode_append, split, standing]
        exact same.buffer_eq
      have within : ¬ (((Utf8.encode (text.take length)).length : Int) < 0 ∨
          (base.buffer.length : Int) < (Utf8.encode (text.take length)).length) := by
        have bound := atHand.length_le
        omega
      have took : outcome (takeMatched pattern (.matched length, text)) ⟨base, []⟩ =
          (.ok (text.take length), _) :=
        outcome_bind_of_ok (outcome_consumeText (Reader.consume_of_bare_of_within within)) _
      rw [took]
      refine ⟨rfl, rfl, ?_, same.pending_eq, ?_, same.ended_eq⟩
      · obtain ⟨behind, standing⟩ := atHand
        rw [same.buffer_eq, List.nil_append]
        simp [takenBy, ← standing]
      · have before := same.consumed_eq
        simp only [Reader.consumed, List.length_nil, Nat.add_zero] at before
        simp [takenBy, Reader.consumed, before]

theorem Leaves.refl (base : ByteReader) : Leaves base [] ⟨base, []⟩ :=
  ⟨rfl, rfl, rfl, rfl, .inl rfl⟩

/-- Nothing is asked for, and the text at hand is judged. -/
theorem readsAhead_of_quiet {text : List Char} (quiet : ∀ other, ¬ Asks matcher base other)
    (shown : Utf8.longestPrefix base.buffer = .ok text) :
    ReadsAhead matcher pattern base 0
      (outcome (takeMatched pattern (matcher text, text)) ⟨base, []⟩) := by
  obtain ⟨answers, leaves⟩ := answers_takeMatched (.refl base) shown
  exact .settled quiet answers leaves

/-- The end may go unnoticed when no read is to come. -/
theorem readsAhead_of_unread {text : List Char} (unended : base.ended = false)
    (none : base.pending = []) (asks : Asks matcher base text) :
    ReadsAhead matcher pattern base 1
      (outcome (takeMatched pattern (matcher text, text)) ⟨base, []⟩) := by
  have reads : base.fill = (.ok false, { base with ended := true }) := by
    simp [ByteReader.fill, unended, none]
  have same : Leaves { base with ended := true } [] ⟨base, []⟩ := ⟨rfl, rfl, rfl, rfl, .inr none⟩
  obtain ⟨answers, leaves⟩ := answers_takeMatched same asks.shown
  exact .onward asks reads (.settled (fun _ => Asks.not_of_ended rfl) answers leaves)

/-! ## Reading until the match is settled -/

theorem outcome_onReader_of_error {α : Type} {operation : Reader → Except ReaderFault α × Reader}
    {reader after : Reader} {fault : ReaderFault}
    (failed : operation reader = (.error fault, after)) :
    outcome (onReader operation) reader = (.error (.reader fault), after) := by
  have unfolded : outcome (onReader operation) reader =
      ((operation reader).1.mapError .reader, (operation reader).2) := rfl
  rw [unfolded, failed]
  rfl

/-- What one more read comes to, for a reader that has not met the end. -/
inductive Fills (base : ByteReader) : Prop
  | ends {next : ByteReader} (reads : base.fill = (.ok false, next)) (ended : next.ended = true)
      (buffer_eq : next.buffer = base.buffer) (fewer : next.pending.length ≤ base.pending.length)
  | brings {next : ByteReader} {bytes : List UInt8} (reads : base.fill = (.ok true, next))
      (solid : bytes ≠ []) (buffer_eq : next.buffer = base.buffer ++ bytes)
      (fewer : next.pending.length < base.pending.length)
  | fails {next : ByteReader} {reason : ReadFailure}
      (reads : base.fill = (.error (.read reason), next))

theorem fills_of_unended (unended : base.ended = false) : Fills base := by
  obtain ⟨pending, buffer, ended, consumed⟩ := base
  obtain rfl : ended = false := unended
  match pending with
  | [] => exact .ends rfl rfl rfl (Nat.le_refl _)
  | .data [] :: pending => exact .ends rfl rfl rfl (Nat.le_succ _)
  | .data (byte :: bytes) :: pending =>
      exact .brings rfl (List.cons_ne_nil byte bytes) rfl (Nat.lt_succ_self _)
  | .failure reason :: pending => exact .fails rfl

theorem outcome_fill_of_ok {next : ByteReader} {added : Bool}
    (reads : base.fill = (.ok added, next)) :
    outcome fill ⟨base, []⟩ = (.ok added, ⟨next, []⟩) :=
  outcome_fill (by simp only [Reader.fill, Reader.fillThrough, reads])

theorem outcome_fill_of_error {next : ByteReader} {fault : ReaderFault}
    (reads : base.fill = (.error fault, next)) :
    outcome fill ⟨base, []⟩ = (.error (.reader fault), ⟨next, []⟩) :=
  outcome_onReader_of_error (by simp only [Reader.fill, Reader.fillThrough, reads])

/-- Looking reads only when nothing is at hand and the end has not been met. -/
theorem outcome_peek_of_look (here : base.buffer ≠ [] ∨ base.ended = true) :
    outcome peek ⟨base, []⟩ = (.ok base.buffer, ⟨base, []⟩) := by
  by_cases empty : base.buffer = []
  · have ended := here.resolve_left (not_not_intro empty)
    apply outcome_peek
    rw [Reader.peek_eq_fill empty]
    simp only [Reader.fill, Reader.fillThrough, ByteReader.fill, ended, if_true, Except.map]
  · exact outcome_peek (Reader.peek_of_buffer empty)

theorem outcome_decode_of_ok {bytes : List UInt8} {text : List Char}
    (shown : Utf8.longestPrefix bytes = .ok text) (reader : Reader) :
    outcome (decode bytes) reader = (.ok text, reader) := by
  have unfolded : outcome (decode bytes) reader = decode bytes reader := rfl
  simp [unfolded, decode, shown]

theorem outcome_decode_of_error {bytes offending : List UInt8}
    (malformed : Utf8.longestPrefix bytes = .error offending) (reader : Reader) :
    outcome (decode bytes) reader = (.error (malformedAt offending reader.consumed), reader) :=
  outcome_decode_of_malformed (Text.Utf8.decode_of_longestPrefix_eq_error malformed) reader

/-- Malformed bytes at hand are the answer. -/
theorem readsAhead_of_malformed {offending : List UInt8}
    (malformed : Utf8.longestPrefix base.buffer = .error offending)
    (rest : List Char → Scanning (List Char)) :
    ReadsAhead matcher pattern base 0
      (outcome (decode base.buffer >>= rest) ⟨base, []⟩) := by
  rw [outcome_bind_of_error (outcome_decode_of_error malformed _)]
  refine .settled (fun _ => Asks.not_of_malformed malformed) ?_ (.refl base)
  simp [answer, malformed, Reader.consumed]

/-- A match that is settled asks for no read, or only for one that finds nothing to come. -/
theorem readsAhead_of_settled {text : List Char}
    (shown : Utf8.longestPrefix base.buffer = .ok text)
    (looked : text ≠ [] ∨ base.ended = true ∨ base.pending = [])
    (settled : text ≠ [] → ¬ Asks matcher base text) :
    ∃ count, ReadsAhead matcher pattern base count
      (outcome (takeMatched pattern (matcher text, text)) ⟨base, []⟩) := by
  by_cases asking : ∃ other, Asks matcher base other
  · obtain ⟨other, asks⟩ := asking
    obtain rfl : other = text := Except.ok.inj (asks.shown.symm.trans shown)
    have none : base.pending = [] := by
      rcases looked with some | ended | none
      · exact (settled some asks).elim
      · exact (Asks.not_of_ended ended asks).elim
      · exact none
    exact ⟨1, readsAhead_of_unread asks.unended none asks⟩
  · exact ⟨0, readsAhead_of_quiet (not_exists.mp asking) shown⟩

/-- A match that asks for a read goes on with what the read brings. -/
theorem readsAhead_fill {text : List Char} {rest : Bool → Scanning (List Char)}
    (asks : base.ended = false → Asks matcher base text)
    (stops : ∀ next, next.ended = true → next.buffer = base.buffer →
      ∃ count, ReadsAhead matcher pattern next count (outcome (rest false) ⟨next, []⟩))
    (goesOn : base.ended = false → ∀ next bytes, next.buffer = base.buffer ++ bytes →
      next.buffer ≠ [] → next.pending.length < base.pending.length →
        ∃ count, ReadsAhead matcher pattern next count (outcome (rest true) ⟨next, []⟩)) :
    ∃ count, ReadsAhead matcher pattern base count (outcome (fill >>= rest) ⟨base, []⟩) := by
  cases ended : base.ended with
  | true =>
      have reads : base.fill = (.ok false, base) := by simp [ByteReader.fill, ended]
      rw [outcome_bind_of_ok (outcome_fill_of_ok reads)]
      exact stops base ended rfl
  | false =>
      cases fills_of_unended ended with
      | @fails next reason reads =>
          rw [outcome_bind_of_error (outcome_fill_of_error reads)]
          exact ⟨1, .failed (asks ended) reads⟩
      | @ends next reads last buffer_eq =>
          rw [outcome_bind_of_ok (outcome_fill_of_ok reads)]
          obtain ⟨count, later⟩ := stops next last buffer_eq
          exact ⟨count + 1, .onward (asks ended) reads later⟩
      | @brings next bytes reads solid buffer_eq fewer =>
          rw [outcome_bind_of_ok (outcome_fill_of_ok reads)]
          have here : next.buffer ≠ [] := by
            rw [buffer_eq]
            exact List.append_ne_nil_of_right_ne_nil _ solid
          obtain ⟨count, later⟩ := goesOn ended next bytes buffer_eq here fewer
          exact ⟨count + 1, .onward (asks ended) reads later⟩

/-- From a text at hand on, the match asks for reads until it is settled. -/
theorem readsAhead_settle {steps : Nat} {text : List Char} (enough : base.pending.length < steps)
    (shown : Utf8.longestPrefix base.buffer = .ok text)
    (looked : text ≠ [] ∨ base.ended = true ∨ base.pending = []) :
    ∃ count, ReadsAhead matcher pattern base count
      (outcome (settle matcher steps base.buffer text >>= takeMatched pattern) ⟨base, []⟩) := by
  induction steps generalizing base text with
  | zero => omega
  | succ steps ih =>
      rw [settle]
      by_cases wants : wantsMore (matcher text) text = true
      swap
      · rw [if_pos (by simpa using wants), outcome_bind_of_ok (outcome_pure _ _)]
        exact readsAhead_of_settled shown looked fun some asks => wants (asks.wantsMore some)
      rw [if_neg (by simpa using wants)]
      by_cases long : 3 < base.buffer.length - (Utf8.encode text).length
      · rw [if_pos long, outcome_bind_of_ok (outcome_pure _ _)]
        refine readsAhead_of_settled shown looked fun _ asks => ?_
        have short := asks.short
        omega
      rw [if_neg long]
      rw [bind_assoc]
      refine readsAhead_fill (fun unended => ⟨unended, shown, by omega, .inr (.inr wants)⟩) ?_ ?_
      · intro next ended buffer_eq
        rw [if_neg Bool.false_ne_true, outcome_bind_of_ok (outcome_pure _ _)]
        exact readsAhead_of_settled (buffer_eq ▸ shown) (.inr (.inl ended))
          fun _ => Asks.not_of_ended ended
      · intro unended next bytes buffer_eq here fewer
        rw [if_pos rfl, bind_assoc, outcome_bind_of_ok (outcome_peek_of_look (.inl here)),
          bind_assoc]
        cases read : Utf8.longestPrefix next.buffer with
        | error offending => exact ⟨0, readsAhead_of_malformed read _⟩
        | ok more =>
            rw [outcome_bind_of_ok (outcome_decode_of_ok read _)]
            refine ih (by omega) read (.inl fun none => ?_)
            -- A text stays in front of what is read behind it, so there was none before.
            have inFront := Text.Utf8.decode_append_prefix base.buffer bytes
            rw [← buffer_eq, Text.Utf8.decode_of_longestPrefix_eq_ok shown,
              Text.Utf8.decode_of_longestPrefix_eq_ok read, none] at inFront
            rcases looked with some | ended | last
            · exact some (List.prefix_nil.mp inFront)
            · simp [unended] at ended
            · simp [last] at fewer

/-- Once the text at hand has been looked at, the match goes on from there. -/
theorem readsAhead_settleText {text : List Char}
    (shown : Utf8.longestPrefix base.buffer = .ok text)
    (looked : text ≠ [] ∨ base.ended = true ∨ base.pending = [])
    (here : base.buffer ≠ [] ∨ base.ended = true) :
    ∃ count, ReadsAhead matcher pattern base count
      (outcome (settleText matcher pattern text) ⟨base, []⟩) := by
  have looks : outcome peek ⟨base, []⟩ = (.ok base.buffer, ⟨base, []⟩) := outcome_peek_of_look here
  rw [settleText, outcome_bind_of_ok looks, outcome_bind_of_ok (outcome_pendingReads _)]
  exact readsAhead_settle (Nat.lt_succ_self _) shown looked

/-- While there are bytes and no text, the match asks for more. -/
theorem readsAhead_textWithin {steps : Nat} (enough : base.pending.length ≤ steps)
    (here : base.buffer ≠ [] ∨ base.ended = true) :
    ∃ count, ReadsAhead matcher pattern base count
      (outcome (textWithin steps >>= settleText matcher pattern) ⟨base, []⟩) := by
  induction steps generalizing base with
  | zero =>
      have none : base.pending = [] := List.length_eq_zero_iff.mp (Nat.le_zero.mp enough)
      rw [textWithin, bind_assoc, outcome_bind_of_ok (outcome_peek_of_look here)]
      cases read : Utf8.longestPrefix base.buffer with
      | error offending => exact ⟨0, readsAhead_of_malformed read _⟩
      | ok text =>
          rw [outcome_bind_of_ok (outcome_decode_of_ok read _)]
          exact readsAhead_settleText read (.inr (.inr none)) here
  | succ steps ih =>
      rw [textWithin, bind_assoc, outcome_bind_of_ok (outcome_peek_of_look here), bind_assoc]
      cases read : Utf8.longestPrefix base.buffer with
      | error offending => exact ⟨0, readsAhead_of_malformed read _⟩
      | ok text =>
          rw [outcome_bind_of_ok (outcome_decode_of_ok read _)]
          by_cases opens : (text.isEmpty && !base.buffer.isEmpty) = true
          swap
          · rw [if_neg opens, outcome_bind_of_ok (outcome_pure _ _)]
            refine readsAhead_settleText read ?_ here
            by_cases none : text = []
            · right
              left
              exact here.resolve_left (not_not_intro (by simpa [none] using opens))
            · exact .inl none
          rw [if_pos opens, bind_assoc]
          obtain rfl : text = [] := by simpa using (Bool.and_eq_true_iff.mp opens).1
          refine readsAhead_fill (fun unended => .of_no_text unended read) ?_ ?_
          · intro next ended buffer_eq
            rw [if_neg Bool.false_ne_true, outcome_bind_of_ok (outcome_pure _ _)]
            exact readsAhead_settleText (buffer_eq ▸ read) (.inr (.inl ended)) (.inr ended)
          · intro unended next bytes buffer_eq here fewer
            rw [if_pos rfl]
            exact ih (by omega) (.inl here)

/-- Reading the text at hand begins with a look. -/
theorem exists_textWithin_eq (steps : Nat) :
    ∃ rest : List UInt8 → Scanning (List Char), textWithin steps = peek >>= rest := by
  cases steps <;> exact ⟨_, rfl⟩

/-- When nothing is at hand, a look is a read, and behind the read it shows the same again. -/
theorem outcome_textWithin_of_fill {next : ByteReader} {added : Bool} (empty : base.buffer = [])
    (reads : base.fill = (.ok added, next)) (here : next.buffer ≠ [] ∨ next.ended = true)
    (steps : Nat) (rest : List Char → Scanning (List Char)) :
    outcome (textWithin steps >>= rest) ⟨base, []⟩ =
      outcome (textWithin steps >>= rest) ⟨next, []⟩ := by
  obtain ⟨looking, unfolded⟩ := exists_textWithin_eq steps
  have looks : outcome peek ⟨base, []⟩ = (.ok next.buffer, ⟨next, []⟩) := by
    apply outcome_peek
    rw [Reader.peek_eq_fill empty]
    simp only [Reader.fill, Reader.fillThrough, reads, Except.map]
  rw [unfolded, bind_assoc, outcome_bind_of_ok looks,
    outcome_bind_of_ok (outcome_peek_of_look here)]

/-- Whatever its pattern and its reader, a match asks for reads one by one until it is settled or
one of them fails. -/
theorem readsAhead_matchPattern (matcher : Matcher) (pattern : String) (base : ByteReader) :
    ∃ count, ReadsAhead matcher pattern base count
      (outcome (matchPattern matcher pattern) ⟨base, []⟩) := by
  have unfolded : outcome (matchPattern matcher pattern) ⟨base, []⟩ =
      outcome (textWithin base.pending.length >>= settleText matcher pattern) ⟨base, []⟩ := by
    rw [matchPattern_eq, text, bind_assoc, outcome_bind_of_ok (outcome_pendingReads _)]
    rfl
  rw [unfolded]
  by_cases here : base.buffer ≠ [] ∨ base.ended = true
  · exact readsAhead_textWithin (Nat.le_refl _) here
  · -- With nothing at hand looking reads, and then it looks at what the read has brought.
    have empty : base.buffer = [] := not_not.mp (not_or.mp here).1
    have unended : base.ended = false := by simpa using (not_or.mp here).2
    have asks : Asks matcher base [] :=
      .of_no_text unended (by simp [empty, Text.Utf8.longestPrefix])
    cases fills_of_unended unended with
    | @fails next reason reads =>
        obtain ⟨looking, steps⟩ := exists_textWithin_eq base.pending.length
        have looks : outcome peek ⟨base, []⟩ = (.error (.reader (.read reason)), ⟨next, []⟩) := by
          apply outcome_onReader_of_error
          rw [Reader.peek_eq_fill empty]
          simp only [Reader.fill, Reader.fillThrough, reads, Except.map]
        rw [steps, bind_assoc, outcome_bind_of_error looks]
        exact ⟨1, .failed asks reads⟩
    | @ends next reads ended _ fewer =>
        rw [outcome_textWithin_of_fill empty reads (.inr ended)]
        obtain ⟨count, later⟩ := readsAhead_textWithin fewer (.inr ended)
        exact ⟨count + 1, .onward asks reads later⟩
    | @brings next bytes reads solid buffer_eq fewer =>
        have some : next.buffer ≠ [] := by simpa [buffer_eq, empty] using solid
        rw [outcome_textWithin_of_fill empty reads (.inl some)]
        obtain ⟨count, later⟩ := readsAhead_textWithin (Nat.le_of_lt fewer) (.inl some)
        exact ⟨count + 1, .onward asks reads later⟩

/-! ## How many reads there are -/

namespace ReadsAhead

variable {count : Nat} {result : Except Stop (List Char) × Reader}

theorem of_ended (ahead : ReadsAhead matcher pattern base count result)
    (ended : base.ended = true) : count = 0 := by
  cases ahead with
  | settled => rfl
  | failed asks | onward asks => exact (Asks.not_of_ended ended asks).elim

/-- Each read takes one of those to come; behind the last one the end is met. -/
theorem count_le (ahead : ReadsAhead matcher pattern base count result) :
    count ≤ base.pending.length + 1 := by
  induction ahead with
  | settled => exact Nat.zero_le _
  | failed => exact Nat.le_add_left _ _
  | @onward base next text added count result asks reads later ih =>
      cases fills_of_unended asks.unended with
      | fails fails => cases fails.symm.trans reads
      | ends ends last =>
          cases ends.symm.trans reads
          rw [later.of_ended last]
          omega
      | brings brings _ _ fewer =>
          cases brings.symm.trans reads
          omega

/-- A read consumes nothing. -/
theorem passes_fill (base : ByteReader) : Reader.Passes [] ⟨base, []⟩ ⟨base.fill.2, []⟩ := by
  have unfolded : (Reader.fill ⟨base, []⟩).2 = ⟨base.fill.2, []⟩ := rfl
  have bare : (⟨base, []⟩ : Reader).lines = [] := rfl
  rcases Reader.fill_of_bare bare with ⟨_, after, filled, passes, _⟩ |
    ⟨_, after, filled, passes⟩ <;>
  · rw [filled] at unfolded
    exact unfolded ▸ passes

/-- What is consumed is the text that is given. -/
theorem passes (ahead : ReadsAhead matcher pattern base count result) :
    Reader.Passes (takenBy result.1) ⟨base, []⟩ result.2 := by
  induction ahead with
  | @settled base result _ _ leaves =>
      refine ⟨leaves.bare, ?_, leaves.consumed_eq⟩
      simp only [Reader.remaining, leaves.buffer_eq, leaves.pending_eq, List.append_assoc]
  | @failed base next text reason asks fails =>
      have reading := passes_fill base
      rwa [fails] at reading
  | @onward base next text added count result asks reads later ih =>
      have reading := passes_fill base
      rw [reads] at reading
      exact reading.trans ih

end ReadsAhead

/-- No read is asked for once four bytes behind a text are at hand that cannot go on. -/
theorem Asks.length_lt {text : List Char} {offset : Nat} (asks : Asks matcher base text)
    (breaks : Text.Utf8.BreaksAt base.supply offset) : base.buffer.length < offset + 4 := by
  obtain ⟨whole, longest, rfl, _⟩ := breaks
  rw [Text.Utf8.longest_iff] at longest
  have inFront := Text.Utf8.decode_append_prefix base.buffer
    (if base.ended then [] else delivered base.pending)
  rw [Text.Utf8.decode_of_longestPrefix_eq_ok asks.shown] at inFront
  have within : text <+: whole := longest ▸ inFront
  obtain ⟨rest, rfl⟩ := within
  have short := asks.short
  rw [Text.Utf8.encode_append, List.length_append]
  omega

/-- The match has stopped when that many bytes have been read. -/
theorem ReadsAhead.count_le_of_breaks {count offset chunks : Nat}
    {result : Except Stop (List Char) × Reader}
    (ahead : ReadsAhead matcher pattern base count result)
    (breaks : Text.Utf8.BreaksAt base.supply offset)
    (enough : offset + 4 ≤ (base.afterReads chunks).buffer.length) : count ≤ chunks := by
  induction ahead generalizing chunks with
  | settled => exact Nat.zero_le _
  | failed asks fails =>
      have few := asks.length_lt breaks
      cases chunks with
      | zero => exact absurd enough (Nat.not_le_of_lt few)
      | succ chunks => exact Nat.le_add_left _ _
  | @onward base next text added count result asks reads later ih =>
      have few := asks.length_lt breaks
      cases chunks with
      | zero => exact absurd enough (Nat.not_le_of_lt few)
      | succ chunks =>
          have same := base.supply_fill
          rw [ByteReader.afterReads, reads] at enough
          rw [reads] at same
          exact Nat.succ_le_succ (ih (same ▸ breaks) enough)

/-- Reads that are not asked for change nothing of the answer. -/
theorem ReadsAhead.eq_of_withMore {count other : Nat} {more : List Delivery}
    {result longer : Except Stop (List Char) × Reader}
    (ahead : ReadsAhead matcher pattern base count result) (few : count ≤ base.pending.length)
    (further : ReadsAhead matcher pattern (base.withMore more) other longer) :
    other = count ∧ longer.1 = result.1 := by
  have alike {base : ByteReader} {text : List Char} :
      Asks matcher (base.withMore more) text ↔ Asks matcher base text :=
    ⟨fun asks => ⟨asks.unended, asks.shown, asks.short, asks.cause⟩,
      fun asks => ⟨asks.unended, asks.shown, asks.short, asks.cause⟩⟩
  induction ahead generalizing other longer with
  | settled quiet answers =>
      cases further with
      | settled _ same => exact ⟨rfl, same.trans answers.symm⟩
      | failed asks | onward asks => exact (quiet _ (alike.mp asks)).elim
  | @failed base next text reason asks fails =>
      have coming : base.pending ≠ [] := List.length_pos_iff.mp few
      cases further with
      | settled quiet => exact (quiet _ (alike.mpr asks)).elim
      | failed _ also =>
          rw [ByteReader.fill_withMore coming, fails] at also
          cases also
          exact ⟨rfl, rfl⟩
      | onward _ reads =>
          rw [ByteReader.fill_withMore coming, fails] at reads
          cases reads
  | @onward base next text added count result asks reads later ih =>
      have coming : base.pending ≠ [] := List.length_pos_iff.mp (Nat.zero_lt_of_lt few)
      have left := ByteReader.pending_fill asks.unended
      rw [reads] at left
      have fewer : count ≤ next.pending.length := by
        rw [left, List.length_tail]
        omega
      cases further with
      | settled quiet => exact (quiet _ (alike.mpr asks)).elim
      | failed _ fails =>
          rw [ByteReader.fill_withMore coming, reads] at fails
          cases fails
      | onward _ also behind =>
          rw [ByteReader.fill_withMore coming, reads] at also
          cases also
          obtain ⟨rfl, same⟩ := ih fewer behind
          exact ⟨rfl, same⟩

/-- On an endless stream that breaks a text off, a match comes to an end, and no more is read than
until four bytes behind the text are at hand. -/
theorem exists_answer_of_endless (matcher : Matcher) (pattern : String) (base : ByteReader)
    {source : Nat → Delivery} {offset chunks : Nat}
    (breaks : Text.Utf8.BreaksAt (base.fedBy source chunks).supply offset)
    (enough : offset + 4 ≤ ((base.fedBy source chunks).afterReads chunks).buffer.length) :
    ∃ count ≤ chunks, ∃ result, ∀ more ≥ chunks,
      ReadsAhead matcher pattern (base.fedBy source more) count
        (outcome (matchPattern matcher pattern) ⟨base.fedBy source more, []⟩) ∧
      (outcome (matchPattern matcher pattern) ⟨base.fedBy source more, []⟩).1 = result := by
  obtain ⟨count, ahead⟩ := readsAhead_matchPattern matcher pattern (base.fedBy source chunks)
  have bound := ahead.count_le_of_breaks breaks enough
  refine ⟨count, bound, (outcome (matchPattern matcher pattern) ⟨base.fedBy source chunks, []⟩).1,
    fun more le => ?_⟩
  obtain ⟨other, further⟩ := readsAhead_matchPattern matcher pattern (base.fedBy source more)
  obtain ⟨rest, extended⟩ := base.fedBy_eq_withMore source le
  have few : count ≤ (base.fedBy source chunks).pending.length := by
    simpa [ByteReader.fedBy] using bound
  obtain ⟨rfl, same⟩ := ahead.eq_of_withMore few (extended ▸ further)
  exact ⟨further, extended ▸ same⟩

/-- Matching a pattern reads on only while nothing is at hand, while what is at hand is only the
beginning of a code point, or while the match may change, and never with more than three bytes
behind the text at hand.  So it comes to an end; it does so as soon as four bytes behind a text are
at hand that cannot go on, even if the stream has no end; and it consumes the text that it gives, or
nothing. -/
theorem matchPattern_reads_ahead (matcher : Matcher) (pattern : String) (base : ByteReader) :
    (∃ count,
      ReadsAhead matcher pattern base count
        (outcome (matchPattern matcher pattern) ⟨base, []⟩) ∧
      count ≤ base.pending.length + 1 ∧
      (∀ offset chunks, Text.Utf8.BreaksAt base.supply offset →
        offset + 4 ≤ (base.afterReads chunks).buffer.length → count ≤ chunks) ∧
      Reader.Passes (takenBy (outcome (matchPattern matcher pattern) ⟨base, []⟩).1) ⟨base, []⟩
        (outcome (matchPattern matcher pattern) ⟨base, []⟩).2) ∧
    ∀ (source : Nat → Delivery) (offset chunks : Nat),
      Text.Utf8.BreaksAt (base.fedBy source chunks).supply offset →
      offset + 4 ≤ ((base.fedBy source chunks).afterReads chunks).buffer.length →
      ∃ count ≤ chunks, ∃ result, ∀ more ≥ chunks,
        ReadsAhead matcher pattern (base.fedBy source more) count
          (outcome (matchPattern matcher pattern) ⟨base.fedBy source more, []⟩) ∧
        (outcome (matchPattern matcher pattern) ⟨base.fedBy source more, []⟩).1 = result := by
  obtain ⟨count, ahead⟩ := readsAhead_matchPattern matcher pattern base
  refine ⟨⟨count, ahead, ahead.count_le, ?_, ahead.passes⟩, ?_⟩
  · intro offset chunks breaks enough
    exact ahead.count_le_of_breaks breaks enough
  · intro source offset chunks breaks enough
    exact exists_answer_of_endless matcher pattern base breaks enough

/-- Behind one character come bytes that begin none, for ever. The match would go on to the end of
the text, and the third read is the last. -/
theorem matchPattern_reads_ahead_of_endless :
    let matcher : Matcher := fun text => .matched text.length
    let source : Nat → Delivery := fun index =>
      if index = 0 then .data [0x61] else .data [0xFF, 0xFF]
    let base : ByteReader := { pending := [] }
    Text.Utf8.BreaksAt (base.fedBy source 3).supply 1 ∧
      1 + 4 ≤ ((base.fedBy source 3).afterReads 3).buffer.length ∧
      ∃ count ≤ 3, ∃ result, ∀ more ≥ 3,
        ReadsAhead matcher "" (base.fedBy source more) count
          (outcome (matchPattern matcher "") ⟨base.fedBy source more, []⟩) ∧
        (outcome (matchPattern matcher "") ⟨base.fedBy source more, []⟩).1 = result := by
  intro matcher source base
  have breaks : Text.Utf8.BreaksAt (base.fedBy source 3).supply 1 := by
    refine ⟨['a'], ?_, by decide, List.cons_ne_nil _ _, ?_⟩
    · have front : Text.Utf8.front [0xFF, 0xFF, 0xFF, 0xFF] = .malformed 1 := rfl
      have decoded := Text.Utf8.decode_encode_append ['a'] [0xFF, 0xFF, 0xFF, 0xFF]
      rw [Text.Utf8.decode_of_front_malformed front] at decoded
      exact (Text.Utf8.longest_iff _ _).mpr (congrArg Prod.fst decoded).symm
    · exact Text.Utf8.not_unfinished_of_ofByte?_eq_none rfl List.prefix_rfl
  have enough : 1 + 4 ≤ ((base.fedBy source 3).afterReads 3).buffer.length := by decide
  exact ⟨breaks, enough, (matchPattern_reads_ahead matcher "" base).2 source 1 3 breaks enough⟩

end Scan

end Unformat
