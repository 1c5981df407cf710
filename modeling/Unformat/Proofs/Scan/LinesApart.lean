import Mathlib
import Unformat.Proofs.Scan.LineAttempts
import Unformat.Proofs.Text.Utf8

/-!
# Lines do not influence each other

When all bytes arrive in one chunk, so does each line, and the attempt at a line comes to what the
plan comes to over that line as the only chunk.  Scanning the first line of a text and going on with
what is left of the text then comes to the same as one scan line by line.
-/

namespace Unformat

open Scan (Stop Echoes aloneOutcome)
open Text (Utf8.encode)

/-! ## Lines of a single chunk -/

namespace Line

variable {chunks : List (List UInt8)}

theorem length_behind_nth_le (few : chunks.length ≤ 1) (offset number : Nat) :
    (nth offset chunks number).behind.length ≤ 1 := by
  induction number with
  | zero => exact Nat.le_trans (length_behindChunks_le _) few
  | succ number ih => exact Nat.le_trans (length_behindChunks_le _) ih

theorem length_chunks_nth_le (few : chunks.length ≤ 1) (offset number : Nat) :
    (nth offset chunks number).chunks.length ≤ 1 := by
  cases number with
  | zero => exact Nat.le_trans (length_lineChunks_le _) few
  | succ number =>
      exact Nat.le_trans (length_lineChunks_le _) (length_behind_nth_le few offset number)

theorem chunks_nth_of_one (few : chunks.length ≤ 1) {offset number : Nat}
    (some : (nth offset chunks number).chunks ≠ []) :
    (nth offset chunks number).chunks = [(linesOf chunks.flatten).getD number []] := by
  have single := length_chunks_nth_le few offset number
  rw [← bytes_nth offset, bytes]
  rcases standing : (nth offset chunks number).chunks with _ | ⟨first, _ | ⟨second, rest⟩⟩
  · exact (some standing).elim
  · simp
  · simp [standing] at single

end Line

namespace LineIteration

/-- The attempts at the lines of one chunk come to what the lines alone come to, and are given back
one by one. -/
theorem exists_outcomes_of_one_chunk (compiled : Except PatternFault CompiledPlan)
    {base : ByteReader} (steady : base.Steady) (few : base.chunks.length ≤ 1) :
    ∃ outcomes : List (Except Stop (List Value)),
      outcomes.length = (linesOf base.rest).length ∧
      (∀ (number : Nat) (bound : number < outcomes.length),
        Echoes (number + 1) (base.consumed + ((linesOf base.rest).take number).flatten.length)
          (Scan.outcome (Scan.execute compiled)
            (Reader.ofChunks [(linesOf base.rest).getD number []]).byLine).1 outcomes[number] ∧
        ∀ errors, ∃ next,
          (afterAttempts number
            { compiled, scan := { errors }, reader := ⟨base, [false]⟩ }).attempt =
              (.ok (some ⟨number + 1, outcomes[number], .ok ()⟩), next)) ∧
      ∀ asked,
        (after asked
          { compiled, scan := { errors := .raise }, reader := ⟨base, [false]⟩ }).next.1 =
            outcomes[asked]?.elim .finished stepOf := by
  have onLine := OnLine.start steady
  obtain ⟨outcomes, yields⟩ := exists_yields compiled onLine 0
  have before (errors : LineErrors) : Before compiled 0 (.nth base.consumed base.chunks 0) outcomes
      { compiled, scan := { errors }, reader := ⟨base, [false]⟩ } := ⟨rfl, rfl, onLine, yields⟩
  refine ⟨outcomes, yields.length_eq onLine, ?_,
    fun asked => (after_of_raise (before .raise) rfl asked).2⟩
  intro number bound
  have here (errors : LineErrors) :=
    before_afterAttempts (before errors) number (Nat.le_of_lt bound)
  rw [List.drop_eq_getElem_cons bound] at here
  constructor
  · cases (here .raise).yields with
    | line some echoes _ =>
        rwa [Line.before_nth, aloneOutcome, Line.chunks_nth_of_one few some] at echoes
  · intro errors
    obtain ⟨next, tried, _⟩ := (here errors).attempt_of_line
    exact ⟨next, tried⟩

theorem ofChunks_one (bytes : List UInt8) :
    (Reader.ofChunks [bytes]).base.Steady ∧ (Reader.ofChunks [bytes]).base.chunks.length ≤ 1 ∧
      (Reader.ofChunks [bytes]).base.rest = bytes := by
  refine ⟨fun _ => unfailing_data [bytes], ?_⟩
  cases bytes with
  | nil => exact ⟨Nat.zero_le _, rfl⟩
  | cons byte bytes =>
      have one : (Reader.ofChunks [byte :: bytes]).base.chunks = [byte :: bytes] := rfl
      rw [ByteReader.rest, one, List.flatten_singleton]
      exact ⟨Nat.le_refl _, rfl⟩

/-- The attempt at a line of one chunk comes to what the line alone comes to. -/
theorem attempt_in_one_chunk (compiled : Except PatternFault CompiledPlan) (errors : LineErrors)
    {bytes : List UInt8} {number : Nat} (bound : number < (linesOf bytes).length) :
    ∃ outcome next,
      (afterAttempts number
        { compiled, scan := { errors }, reader := (Reader.ofChunks [bytes]).byLine }).attempt =
          (.ok (some ⟨number + 1, outcome, .ok ()⟩), next) ∧
      Echoes (number + 1) ((linesOf bytes).take number).flatten.length
        (Scan.outcome (Scan.execute compiled)
          (Reader.ofChunks [(linesOf bytes)[number]]).byLine).1 outcome := by
  obtain ⟨steady, few, rest⟩ := ofChunks_one bytes
  obtain ⟨outcomes, count, comes, _⟩ := exists_outcomes_of_one_chunk compiled steady few
  rw [rest] at count comes
  obtain ⟨echoes, tries⟩ := comes number (count ▸ bound)
  obtain ⟨next, tried⟩ := tries errors
  rw [List.getD_eq_getElem?_getD, List.getElem?_eq_getElem bound, Option.getD_some] at echoes
  have offset : (Reader.ofChunks [bytes]).base.consumed = 0 := rfl
  rw [offset, Nat.zero_add] at echoes
  exact ⟨_, next, tried, echoes⟩

end LineIteration

/-! ## The lines of a text -/

theorem lineFeed_mem_encode_iff {text : List Char} :
    lineFeed ∈ Utf8.encode text ↔ '\n' ∈ text := by
  rw [Text.Utf8.encode, List.mem_flatMap]
  constructor
  · rintro ⟨c, member, inside⟩
    exact Text.Utf8.eq_of_mem_utf8EncodeChar (by decide) inside ▸ member
  · intro member
    exact ⟨'\n', member, by decide⟩

theorem splitLine_of_mem {text : String} {front rest : List Char}
    (split : text.toList = front ++ '\n' :: rest) (absent : '\n' ∉ front) :
    splitLine text = (String.ofList (front ++ ['\n']), String.ofList rest) := by
  have passed : (front ++ '\n' :: rest).takeWhile (· != '\n') = front := by
    rw [List.takeWhile_append_of_pos fun c member => by
      simpa using fun same : c = '\n' => absent (same ▸ member)]
    simp
  simp [splitLine, split, passed]

theorem splitLine_of_not_mem {text : String} (absent : '\n' ∉ text.toList) :
    splitLine text = (text, "") := by
  have passed : text.toList.takeWhile (· != '\n') = text.toList := by
    rw [List.takeWhile_eq_self_iff]
    intro c member
    simpa using fun same : c = '\n' => absent (same ▸ member)
  simp [splitLine, passed]

/-- Taking the first line off a text takes the first line off its bytes. -/
theorem encode_splitLine (text : String) :
    Utf8.encode (splitLine text).1.toList = firstLine (Utf8.encode text.toList) ∧
      Utf8.encode (splitLine text).2.toList = behindLine (Utf8.encode text.toList) := by
  by_cases member : '\n' ∈ text.toList
  · obtain ⟨front, rest, split, absent⟩ := List.eq_append_cons_of_mem member
    have bytes : Utf8.encode text.toList =
        Utf8.encode front ++ lineFeed :: Utf8.encode rest := by
      rw [split, Text.Utf8.encode_append, Text.Utf8.encode_cons]
      rfl
    have none := mt lineFeed_mem_encode_iff.mp absent
    rw [splitLine_of_mem split absent, bytes, firstLine_append none, behindLine_append none]
    simp only [String.toList_ofList, Text.Utf8.encode_append]
    exact ⟨rfl, trivial⟩
  · have none := mt lineFeed_mem_encode_iff.mp member
    rw [splitLine_of_not_mem member, firstLine_of_not_mem none, behindLine_of_not_mem none]
    exact ⟨rfl, rfl⟩

/-! ## Scanning first lines -/

section Engine

variable [PatternEngine]

/-- What is left of an input after its first line has been scanned so many times. -/
def afterFirstLines (template : String) (rules : RuleList) : Nat → String → String
  | 0, input => input
  | count + 1, input =>
      (scanFirstLine template (.ok rules) (afterFirstLines template rules count input)).2

theorem encode_afterFirstLines (template : String) (rules : RuleList) (count : Nat)
    (text : String) :
    Utf8.encode (afterFirstLines template rules count text).toList =
      ((linesOf (Utf8.encode text.toList)).drop count).flatten := by
  induction count with
  | zero => rw [afterFirstLines, List.drop_zero, flatten_linesOf]
  | succ count ih =>
      rw [← behindLine_flatten_drop, ← ih]
      exact (encode_splitLine _).2

omit [PatternEngine] in
theorem cut_of_length_le {α : Type} {size : Nat} {items : List α} (short : items.length ≤ size)
    (solid : items ≠ []) : cut size items = [items] := by
  rw [cut, if_pos (.inl short)]
  simp [solid]

omit [PatternEngine] in
/-- Scanning a line that fits into one read is a run over the line alone. -/
theorem scanLine_eq (scanner : Scanner) {line : String}
    (short : (Utf8.encode line.toList).length ≤ 8192) (solid : Utf8.encode line.toList ≠ []) :
    scanner.scanLine line =
      (Scan.outcome (Scan.execute scanner.compiled)
        (Reader.ofChunks [Utf8.encode line.toList]).byLine).1.mapError .ofStop := by
  have opened : Reader.ofSource Config.standard.bufferSize (.text line) =
      .ok (Reader.ofChunks [Utf8.encode line.toList]) := by
    have pieces := cut_of_length_le short solid
    simp [Reader.ofSource, Config.standard, Source.deliveries, Source.deliverBytes, pieces,
      Reader.ofChunks]
  rw [Scanner.scanLine, opened]
  rfl

theorem Scanner.config_of_make {template : String} {rules : RuleList} {scanner : Scanner}
    (made : Scanner.make template rules = .ok scanner) : scanner.config = {} := by
  unfold Scanner.make at made
  cases built : Plan.build template rules with
  | error failure => simp [built] at made
  | ok plan =>
      rw [built] at made
      cases made
      rfl

/-- The next request of a scan line by line brings what scanning the first line of what is left
brings, at the line with the given number; or both come to the end. -/
inductive SameOnLine (number offset : Nat) : Except Failure (List Value) → ScanStep → Prop
  | line {alone outcome : Except Stop (List Value)} (echoes : Echoes number offset alone outcome) :
      SameOnLine number offset (alone.mapError .ofStop) (LineIteration.stepOf outcome)
  | finished : SameOnLine number offset (.error .endOfInput) .finished

theorem scanFirstLine_of_empty (template : String) (rules : RuleList) {input : String}
    (empty : Utf8.encode input.toList = []) :
    (scanFirstLine template (.ok rules) input).1 = .error .endOfInput := by
  obtain rfl : input = "" := String.toList_eq_nil_iff.mp (Text.Utf8.encode_eq_nil_iff.mp empty)
  rfl

theorem scanFirstLine_of_solid {template : String} {rules : RuleList} {scanner : Scanner}
    (made : Scanner.make template rules = .ok scanner) {input : String}
    (solid : Utf8.encode input.toList ≠ [])
    (short : (firstLine (Utf8.encode input.toList)).length ≤ 8192) :
    (scanFirstLine template (.ok rules) input).1 =
      (Scan.outcome (Scan.execute scanner.compiled)
        (Reader.ofChunks [firstLine (Utf8.encode input.toList)]).byLine).1.mapError .ofStop := by
  have line := (encode_splitLine input).1
  have solidLine : Utf8.encode (splitLine input).1.toList ≠ [] :=
    line ▸ mt firstLine_eq_nil_iff.mp solid
  have some : (splitLine input).1 ≠ "" := by
    intro none
    rw [none] at solidLine
    exact solidLine rfl
  rw [← line, ← scanLine_eq scanner (line ▸ short) solidLine]
  simp only [scanFirstLine, if_neg some]
  exact congrArg (· >>= fun scanner => scanner.scanLine (splitLine input).1) made

omit [PatternEngine] in
theorem exists_lines_of_one_piece {scanner : Scanner} (standard : scanner.config = {})
    (bytes : List UInt8) :
    ∃ base, scanner.lines (.pieces [.data bytes]) (some "raise") =
        .ok { compiled := scanner.compiled, scan := { errors := .raise },
              reader := ⟨base, [false]⟩ } ∧
      base.Steady ∧ base.chunks.length ≤ 1 ∧ base.rest = bytes ∧ base.consumed = 0 := by
  have opened : scanner.lines (.pieces [.data bytes]) (some "raise") =
      .ok { compiled := scanner.compiled, scan := { errors := .raise },
            reader := (Reader.ofDeliveries (Source.deliverPieces [.data bytes])).byLine } := by
    rw [Scanner.lines, Scanner.reader, standard]
    rfl
  refine ⟨_, opened, ?_⟩
  cases bytes with
  | nil => exact ⟨fun _ => .nil, Nat.zero_le _, rfl, rfl⟩
  | cons byte bytes =>
      obtain ⟨steady, few, rest⟩ := LineIteration.ofChunks_one (byte :: bytes)
      exact ⟨steady, few, rest, rfl⟩

/-- Scanning first lines one after the other comes to the same as one scan line by line. -/
theorem scanFirstLine_line_by_line {template : String} {rules : RuleList} {scanner : Scanner}
    (made : Scanner.make template rules = .ok scanner) {text : String}
    (short : ∀ line ∈ linesOf (Utf8.encode text.toList), line.length ≤ 8192) :
    ∃ iteration,
      scanner.lines (.pieces [.data (Utf8.encode text.toList)]) (some "raise") = .ok iteration ∧
      ∀ number,
        SameOnLine (number + 1)
          ((linesOf (Utf8.encode text.toList)).take number).flatten.length
          (scanFirstLine template (.ok rules) (afterFirstLines template rules number text)).1
          (iteration.after number).next.1 := by
  obtain ⟨base, opened, steady, few, rest, offset⟩ :=
    exists_lines_of_one_piece (Scanner.config_of_make made) (Utf8.encode text.toList)
  obtain ⟨outcomes, count, comes, given⟩ :=
    LineIteration.exists_outcomes_of_one_chunk scanner.compiled steady few
  rw [rest] at count comes
  refine ⟨_, opened, ?_⟩
  intro number
  rw [given]
  -- What is left of the text has the lines that are still to be tried.
  have left := encode_afterFirstLines template rules number text
  have lines := linesOf_flatten_drop (Utf8.encode text.toList) number
  have line := firstLine_flatten_drop (Utf8.encode text.toList) number
  rw [← left] at lines line
  by_cases bound : number < outcomes.length
  · have inside : number < (linesOf (Utf8.encode text.toList)).length := count ▸ bound
    have solid : Utf8.encode (afterFirstLines template rules number text).toList ≠ [] := by
      intro empty
      rw [empty, linesOf_nil, eq_comm, List.drop_eq_nil_iff] at lines
      omega
    have here : (linesOf (Utf8.encode text.toList)).getD number [] ∈
        linesOf (Utf8.encode text.toList) := by
      rw [List.getD_eq_getElem?_getD, List.getElem?_eq_getElem inside]
      exact List.getElem_mem inside
    have fits := short _ here
    rw [← line] at fits
    have echoes := (comes number bound).1
    rw [← line, offset, Nat.zero_add] at echoes
    rw [scanFirstLine_of_solid made solid fits, List.getElem?_eq_getElem bound]
    exact .line echoes
  · have past : (linesOf (Utf8.encode text.toList)).length ≤ number := by omega
    rw [List.drop_of_length_le past] at left
    rw [scanFirstLine_of_empty template rules left, List.getElem?_eq_none (by omega)]
    exact .finished

/-- Lines do not influence each other.  When bytes arrive in one chunk, the attempt at a line comes
to what the plan comes to over that line alone.  So scanning first lines of a text, each of which
fits into one read, one after the other brings the same as a scan line by line over the text. -/
theorem lines_do_not_interfere :
    (∀ (compiled : Except PatternFault CompiledPlan) (errors : LineErrors) (bytes : List UInt8)
        (number : Nat) (bound : number < (linesOf bytes).length), ∃ outcome next,
      (LineIteration.afterAttempts number
        { compiled, scan := { errors }, reader := (Reader.ofChunks [bytes]).byLine }).attempt =
          (.ok (some ⟨number + 1, outcome, .ok ()⟩), next) ∧
      Echoes (number + 1) ((linesOf bytes).take number).flatten.length
        (Scan.outcome (Scan.execute compiled)
          (Reader.ofChunks [(linesOf bytes)[number]]).byLine).1 outcome) ∧
    ∀ (template : String) (rules : RuleList) (scanner : Scanner) (text : String),
      Scanner.make template rules = .ok scanner →
      (∀ line ∈ linesOf (Utf8.encode text.toList), line.length ≤ 8192) →
      ∃ iteration,
        scanner.lines (.pieces [.data (Utf8.encode text.toList)]) (some "raise") =
          .ok iteration ∧
        ∀ number,
          SameOnLine (number + 1)
            ((linesOf (Utf8.encode text.toList)).take number).flatten.length
            (scanFirstLine template (.ok rules) (afterFirstLines template rules number text)).1
            (iteration.after number).next.1 :=
  ⟨fun compiled errors _ _ bound => LineIteration.attempt_in_one_chunk compiled errors bound,
    fun _ _ _ _ made short => scanFirstLine_line_by_line made short⟩

end Engine

/-- Two lines, the first of which the plan does not match. -/
theorem lines_do_not_interfere_of_two :
    (let compiled : Except PatternFault CompiledPlan := .ok ⟨⟨[.literal "a"], [], 0, ""⟩, []⟩
      ∃ outcome next,
        (LineIteration.afterAttempts 1
          { compiled, scan := { errors := .skip },
            reader := (Reader.ofChunks [[0x62, 0x0A, 0x61]]).byLine }).attempt =
            (.ok (some ⟨2, outcome, .ok ()⟩), next) ∧
        Echoes 2 2
          (Scan.outcome (Scan.execute compiled) (Reader.ofChunks [[0x61]]).byLine).1 outcome) ∧
    ∃ scanner iteration,
      Scanner.make "a" {} = .ok scanner ∧
      scanner.lines (.pieces [.data (Utf8.encode "b\na".toList)]) (some "raise") = .ok iteration ∧
        ∀ number,
          SameOnLine (number + 1)
            ((linesOf (Utf8.encode "b\na".toList)).take number).flatten.length
            (scanFirstLine "a" (.ok {}) (afterFirstLines "a" {} number "b\na")).1
            (iteration.after number).next.1 := by
  refine ⟨lines_do_not_interfere.1 _ .skip [0x62, 0x0A, 0x61] 1 (by decide), ?_⟩
  have ready : (Scanner.make "a" {}).isOk = true := by cbv
  have short : ∀ line ∈ linesOf (Utf8.encode "b\na".toList), line.length ≤ 8192 := by decide
  cases made : Scanner.make "a" {} with
  | error failure =>
      rw [made] at ready
      cases ready
  | ok scanner =>
      obtain ⟨iteration, opened, same⟩ := lines_do_not_interfere.2 "a" {} scanner "b\na" made short
      exact ⟨scanner, iteration, rfl, opened, same⟩

end Unformat
