import Unformat.Proofs.Input.LineChunks

/-!
# A line reader keeps to its line

A line reader around a byte reader that does not fail stands on one line of the bytes at any time.
What it shows and what it consumes belongs to that line, the line is done when its line feed has
been consumed, and going on comes to the first byte of the line behind it.
-/

namespace Unformat

/-! ## Where a line reader stands -/

/-- A line of a stream: the number of bytes before it, its chunks, and the chunks behind it. -/
structure Line where
  before : Nat
  chunks : List (List UInt8)
  behind : List (List UInt8)

namespace Line

def bytes (line : Line) : List UInt8 := line.chunks.flatten

/-- The first line of the chunks that stand behind `before` bytes. -/
def first (before : Nat) (chunks : List (List UInt8)) : Line :=
  ⟨before, lineChunks chunks, behindChunks chunks⟩

def next (line : Line) : Line := first (line.before + line.bytes.length) line.behind

end Line

/-- A line reader has consumed some bytes of a line, and the given chunks of it are left.  Only when
the line feed has been consumed is the line done. -/
structure OnLine (line : Line) (taken : List UInt8) (chunks : List (List UInt8))
    (reader : Reader) : Prop where
  lines_eq : reader.lines = [decide (lineFeed ∈ taken)]
  steady : reader.base.Steady
  bytes_eq : line.bytes = taken ++ chunks.flatten
  consumed_eq : reader.consumed = line.before + taken.length
  chunks_eq : chunks = if lineFeed ∈ taken then [] else lineChunks reader.base.chunks
  behind_eq : line.behind =
    if lineFeed ∈ taken then reader.base.chunks else behindChunks reader.base.chunks

/-- A line reader that is not done takes the bytes asked for and the end of the line behind them,
and is done when the line feed is among them. -/
theorem Reader.consume_of_line {base : ByteReader} (steady : base.Steady) {shown : List UInt8}
    (first : firstLine (base.chunks.headD []) = shown) {count : Nat}
    (within : count ≤ shown.length) :
    ∃ after, Reader.consume ⟨base, [false]⟩ count =
        (.ok (), ⟨after, [decide (lineFeed ∈ shown.take (taking shown count))]⟩) ∧
      after.Stands (dropFront (taking shown count) base.chunks)
        (base.consumed + taking shown count) := by
  obtain ⟨middle, looked, stands, atHand⟩ := steady.stands.peek
  have shorter := (firstLine_opens (base.chunks.headD [])).length_le
  rw [first] at shorter
  obtain ⟨after, consumed, later⟩ := stands.consume atHand (Nat.le_trans (taking_le within) shorter)
  refine ⟨after, ?_, later⟩
  simp only [Reader.consume, Reader.consumeThrough, Reader.peekThrough, looked]
  by_cases member : lineFeed ∈ base.chunks.headD []
  · obtain ⟨front, rest, absent, split⟩ := exists_front_of_mem member
    rw [split, firstLine_append absent] at first
    subst first
    rw [List.length_append, List.length_singleton] at within
    simp only [split, lineLength?_append absent, withLineEnd_eq_taking rest within, consumed,
      mem_take_iff absent]
    simp [Reader.around]
  · rw [firstLine_of_not_mem member] at first
    subst first
    have before : lineFeed ∉ (base.chunks.headD []).take count :=
      fun inside => member (List.mem_of_mem_take inside)
    rw [taking_of_not_mem member] at consumed ⊢
    simp only [lineLength?_of_not_mem member, consumed, before]
    simp [Reader.around]

theorem Reader.consume_bare {base after : ByteReader} {count : Nat}
    (consumed : base.consume count = (.ok (), after)) :
    Reader.consume ⟨base, []⟩ count = (.ok (), ⟨after, []⟩) := by
  rw [Reader.consume, Reader.consumeThrough, consumed]

/-- Skipping a line drops all of it, however many chunks it is in. -/
theorem Reader.skipLine_of_stands {base : ByteReader} {chunks : List (List UInt8)} {consumed : Nat}
    (stands : base.Stands chunks consumed) {steps : Nat} (enough : chunks.length < steps) :
    ∃ after, Reader.skipLine steps ⟨base, []⟩ = (.ok (), ⟨after, []⟩) ∧ after.Steady ∧
      after.chunks = behindChunks chunks ∧
        after.consumed = consumed + (lineChunks chunks).flatten.length := by
  -- A step that finds no line feed drops a whole chunk, so the steps outlast the chunks.
  induction steps generalizing base chunks consumed with
  | zero => omega
  | succ steps ih =>
      obtain ⟨middle, looked, here, atHand⟩ := stands.peek
      have solid := stands.solid
      rw [Reader.skipLine, Reader.peek, Reader.peekThrough, looked]
      cases chunks with
      | nil => exact ⟨middle, rfl, here.steady, here.chunks_eq, here.consumed_eq⟩
      | cons chunk rest =>
          have full := solid chunk List.mem_cons_self
          rw [List.headD_cons] at atHand ⊢
          simp only [List.isEmpty_iff, full, if_false]
          by_cases member : lineFeed ∈ chunk
          · obtain ⟨front, behind, absent, rfl⟩ := exists_front_of_mem member
            have line : firstLine (front ++ lineFeed :: behind) = front ++ [lineFeed] :=
              firstLine_append absent behind
            have within : front.length + 1 ≤ (front ++ lineFeed :: behind).length := by simp
            have dropped := dropFront_of_mem
              (show lineFeed ∈ ((front ++ lineFeed :: behind) :: rest).headD [] from member)
            rw [List.headD_cons, line, List.length_append, List.length_singleton] at dropped
            obtain ⟨after, consumed, later⟩ := here.consume atHand within
            refine ⟨after, ?_, later.steady, later.chunks_eq.trans dropped, ?_⟩
            · rw [lineLength?_append absent]
              exact Reader.consume_bare consumed
            · rw [lineChunks, if_pos member, line, List.flatten_singleton, List.length_append]
              exact later.consumed_eq
          · obtain ⟨next, consumed, there⟩ := here.consume atHand (Nat.le_refl _)
            rw [List.headD_cons] at consumed there
            rw [dropFront, if_pos (Nat.le_refl _)] at there
            simp only [lineLength?_of_not_mem member, Reader.consume_bare consumed]
            obtain ⟨after, skipped, steady, left, place⟩ := ih there (by simpa using enough)
            refine ⟨after, skipped, steady, ?_, ?_⟩
            · rw [left, behindChunks, if_neg member]
            · rw [place, lineChunks, if_neg member, List.flatten_cons, List.length_append,
                Nat.add_assoc]

namespace OnLine

variable {line : Line} {taken : List UInt8} {chunks : List (List UInt8)} {reader : Reader}

/-- A line reader that has just come to a line. -/
theorem start {base : ByteReader} (steady : base.Steady) :
    OnLine (.first base.consumed base.chunks) [] (lineChunks base.chunks) ⟨base, [false]⟩ where
  lines_eq := by simp
  steady := steady
  bytes_eq := rfl
  consumed_eq := rfl
  chunks_eq := by simp
  behind_eq := by simp [Line.first]

/-- A line reader is done with the line and nothing is left of it, or it goes on with the first
line of what its byte reader is to give. -/
theorem cases (onLine : OnLine line taken chunks reader) :
    ∃ base, (lineFeed ∈ taken ∧ reader = ⟨base, [true]⟩ ∧ chunks = [] ∧
        line.behind = base.chunks) ∨
      (lineFeed ∉ taken ∧ reader = ⟨base, [false]⟩ ∧ chunks = lineChunks base.chunks ∧
        line.behind = behindChunks base.chunks) := by
  obtain ⟨base, lines⟩ := reader
  obtain ⟨rfl, _, _, _, left, behind⟩ := onLine
  by_cases fed : lineFeed ∈ taken
  · rw [if_pos fed] at left behind
    exact ⟨base, .inl ⟨fed, by simp [fed], left, behind⟩⟩
  · rw [if_neg fed] at left behind
    exact ⟨base, .inr ⟨fed, by simp [fed], left, behind⟩⟩

/-- A line reader stays where it is when the byte reader cuts the bytes of the line otherwise. -/
theorem move {base : ByteReader} (onLine : OnLine line taken chunks ⟨base, [false]⟩)
    {after : ByteReader} {others : List (List UInt8)} (stands : after.Stands others base.consumed)
    (same : others.flatten = base.chunks.flatten)
    (behind : behindChunks others = behindChunks base.chunks) :
    OnLine line taken (lineChunks others) ⟨after, [false]⟩ := by
  have unfed : lineFeed ∉ taken := by simpa using onLine.lines_eq
  have bytes : (lineChunks others).flatten = chunks.flatten := by
    rw [onLine.chunks_eq, if_neg unfed, flatten_lineChunks, flatten_lineChunks, same]
  exact {
    lines_eq := onLine.lines_eq
    steady := stands.steady
    bytes_eq := by rw [bytes, onLine.bytes_eq]
    consumed_eq := stands.consumed_eq.trans onLine.consumed_eq
    chunks_eq := by rw [if_neg unfed, stands.chunks_eq]
    behind_eq := by rw [onLine.behind_eq, if_neg unfed, if_neg unfed, stands.chunks_eq, behind] }

theorem solid (onLine : OnLine line taken chunks reader) : ∀ chunk ∈ chunks, chunk ≠ [] := by
  obtain ⟨base, ⟨_, rfl, rfl, _⟩ | ⟨_, rfl, rfl, _⟩⟩ := onLine.cases
  · simp
  · exact solid_lineChunks onLine.steady.stands.solid

theorem length_le (onLine : OnLine line taken chunks reader) :
    chunks.length ≤ reader.pendingReads + 1 := by
  obtain ⟨base, ⟨_, rfl, rfl, _⟩ | ⟨_, rfl, rfl, _⟩⟩ := onLine.cases
  · simp
  · exact Nat.le_trans (length_lineChunks_le _) onLine.steady.stands.length_le

theorem rest_eq (onLine : OnLine line taken chunks reader) :
    reader.base.rest = chunks.flatten ++ line.behind.flatten := by
  obtain ⟨base, ⟨_, rfl, rfl, behind⟩ | ⟨_, rfl, rfl, behind⟩⟩ := onLine.cases
  · rw [behind]
    rfl
  · rw [behind, flatten_lineChunks, flatten_behindChunks, firstLine_append_behindLine]
    rfl

theorem eq_nil_iff (onLine : OnLine line taken chunks reader) (unfed : lineFeed ∉ taken) :
    chunks = [] ↔ reader.base.rest = [] := by
  have bytes : chunks.flatten = firstLine reader.base.rest := by
    rw [onLine.chunks_eq, if_neg unfed, flatten_lineChunks]
    rfl
  rw [← firstLine_eq_nil_iff, ← bytes]
  constructor
  · intro empty
    rw [empty, List.flatten_nil]
  · intro empty
    exact List.eq_nil_iff_forall_not_mem.mpr fun chunk member =>
      onLine.solid chunk member (List.flatten_eq_nil_iff.mp empty chunk member)

/-! ## The operations -/

theorem peek (onLine : OnLine line taken chunks reader) :
    ∃ after, reader.peek = (.ok (chunks.headD []), after) ∧ OnLine line taken chunks after := by
  obtain ⟨base, ⟨_, rfl, rfl, _⟩ | ⟨_, rfl, rfl, _⟩⟩ := onLine.cases
  · exact ⟨_, rfl, onLine⟩
  · obtain ⟨after, looked, stands, _⟩ := onLine.steady.stands.peek
    refine ⟨⟨after, [false]⟩, ?_, onLine.move stands rfl rfl⟩
    simp only [Reader.peek, Reader.peekThrough, looked, headD_lineChunks]
    rfl

theorem fill (onLine : OnLine line taken chunks reader) :
    ∃ after, reader.fill = (.ok (decide (1 < chunks.length)), after) ∧
      OnLine line taken (joinFirst chunks) after := by
  obtain ⟨base, ⟨_, rfl, rfl, _⟩ | ⟨_, rfl, rfl, _⟩⟩ := onLine.cases
  · exact ⟨_, rfl, onLine⟩
  obtain ⟨middle, looked, stands, atHand⟩ := onLine.steady.stands.peek
  by_cases member : lineFeed ∈ base.chunks.headD []
  · -- The line feed is at hand, and nothing is read.
    have whole : (base.chunks.headD []).contains lineFeed = true := by simpa using member
    have moved := onLine.move stands rfl rfl
    rw [lineChunks_of_mem member] at moved ⊢
    refine ⟨⟨middle, [false]⟩, ?_, moved⟩
    simp only [Reader.fill, Reader.fillThrough, Reader.peekThrough, looked, whole, if_true]
    rfl
  · obtain ⟨after, filled, joined⟩ := stands.fill atHand
    have part : (base.chunks.headD []).contains lineFeed = false := by simpa using member
    have moved := onLine.move joined (flatten_joinFirst _) (behindChunks_joinFirst member)
    rw [lineChunks_joinFirst member] at moved
    refine ⟨⟨after, [false]⟩, ?_, moved⟩
    simp only [Reader.fill, Reader.fillThrough, Reader.peekThrough, looked, part, filled,
      one_lt_length_lineChunks member]
    rfl

theorem consume (onLine : OnLine line taken chunks reader) {count : Nat}
    (within : count ≤ (chunks.headD []).length) :
    ∃ after, reader.consume count = (.ok (), after) ∧
      OnLine line (taken ++ (chunks.headD []).take (taking (chunks.headD []) count))
        (dropFront (taking (chunks.headD []) count) chunks) after := by
  obtain ⟨base, ⟨_, rfl, rfl, _⟩ | ⟨unfed, rfl, left, behind⟩⟩ := onLine.cases
  · obtain rfl : count = 0 := by simpa using within
    refine ⟨_, rfl, ?_⟩
    simpa [taking, lineEnd, dropFront] using onLine
  have first : firstLine (base.chunks.headD []) = chunks.headD [] := by
    rw [left, headD_lineChunks]
  obtain ⟨after, consumed, stands⟩ := Reader.consume_of_line onLine.steady first within
  refine ⟨_, consumed, ?_⟩
  have bound := taking_le within
  -- What of the bytes taken was asked for, and what is the end of the line, no longer matters.
  generalize taking (chunks.headD []) count = total at stands bound ⊢
  have split := take_append_dropFront bound
  refine ⟨by simp [unfed], stands.steady, ?_, ?_, ?_, ?_⟩
  · rw [onLine.bytes_eq, List.append_assoc, split]
  · rw [List.length_append, List.length_take, Nat.min_eq_left bound, ← Nat.add_assoc]
    exact stands.consumed_eq.trans (congrArg (· + total) onLine.consumed_eq)
  · have ahead := dropFront_lineChunks (first ▸ bound)
    rw [← left, first] at ahead
    simp only [List.mem_append, unfed, false_or, stands.chunks_eq]
    exact ahead
  · have past := behindChunks_eq (first ▸ bound)
    rw [← behind, first] at past
    simp only [List.mem_append, unfed, false_or, stands.chunks_eq]
    exact past

theorem atEnd (onLine : OnLine line taken chunks reader) :
    ∃ after, reader.atEnd = (.ok (decide (lineFeed ∉ taken ∧ chunks = [])), after) ∧
      OnLine line taken chunks after := by
  have solid := onLine.solid
  obtain ⟨after, looked, moved⟩ := onLine.peek
  obtain ⟨base, ⟨fed, rfl, rfl, _⟩ | ⟨unfed, rfl, _⟩⟩ := onLine.cases
  · exact ⟨_, by simp [Reader.atEnd, fed], onLine⟩
  · refine ⟨after, ?_, moved⟩
    simp only [Reader.atEnd, looked, unfed]
    cases chunks with
    | nil => rfl
    | cons chunk rest => simp [Except.map, solid chunk List.mem_cons_self]

theorem nextLine (onLine : OnLine line taken chunks reader) :
    ∃ after, reader.nextLine = (.ok (), after) ∧
      OnLine line.next [] line.next.chunks after := by
  obtain ⟨base, ⟨_, rfl, rfl, behind⟩ | ⟨unfed, rfl, left, behind⟩⟩ := onLine.cases
  · refine ⟨⟨base, [false]⟩, rfl, ?_⟩
    have place : base.consumed = line.before + line.bytes.length := by
      rw [onLine.bytes_eq, List.flatten_nil, List.append_nil]
      exact onLine.consumed_eq
    have moved := start onLine.steady
    rwa [← behind, place] at moved
  · have enough : base.chunks.length < base.pending.length + 2 :=
      Nat.lt_succ_of_le onLine.steady.stands.length_le
    obtain ⟨after, skipped, steady, ahead, place⟩ :=
      Reader.skipLine_of_stands onLine.steady.stands enough
    refine ⟨⟨after, [false]⟩, ?_, ?_⟩
    · simp only [Reader.nextLine, Reader.pendingReads, skipped]
      rfl
    · have whole : after.consumed = line.before + line.bytes.length := by
        rw [place, onLine.bytes_eq, ← left, List.length_append, ← Nat.add_assoc,
          ← onLine.consumed_eq]
        rfl
      have moved := start steady
      rwa [whole, ahead, ← behind] at moved

end OnLine

/-! ## A line with nothing around it -/

/-- The line with nothing before or behind it. -/
def Line.alone (line : Line) : Line := ⟨0, line.chunks, []⟩

theorem OnLine.alone {line : Line} {reader : Reader} (onLine : OnLine line [] line.chunks reader) :
    OnLine line.alone [] line.chunks (Reader.ofChunks line.chunks).byLine := by
  have stands := ByteReader.stands_ofChunks onLine.solid
  have same : lineChunks line.chunks = line.chunks := by
    rw [onLine.chunks_eq, if_neg List.not_mem_nil, lineChunks_lineChunks]
  have whole : OnLine (.first 0 line.chunks) [] (lineChunks line.chunks)
      (Reader.ofChunks line.chunks).byLine := by
    have first := OnLine.start stands.steady
    rwa [stands.chunks_eq] at first
  rwa [Line.first, ← same, behindChunks_lineChunks, same, same] at whole

/-! ## The lines of a stream -/

/-- The line that so many others stand before, when `offset` bytes stand before the first one.
Behind the last line there are only empty ones. -/
def Line.nth (offset : Nat) (chunks : List (List UInt8)) : Nat → Line
  | 0 => .first offset chunks
  | number + 1 => (nth offset chunks number).next

theorem Line.behind_nth (offset : Nat) (chunks : List (List UInt8)) (number : Nat) :
    (nth offset chunks number).behind.flatten =
      ((linesOf chunks.flatten).drop (number + 1)).flatten := by
  induction number with
  | zero =>
      have first := behindLine_flatten_drop chunks.flatten 0
      rw [List.drop_zero, flatten_linesOf] at first
      rw [nth, Line.first, flatten_behindChunks, first]
  | succ number ih =>
      rw [nth, next, Line.first, flatten_behindChunks, ih, behindLine_flatten_drop]

theorem Line.bytes_nth (offset : Nat) (chunks : List (List UInt8)) (number : Nat) :
    (nth offset chunks number).bytes = (linesOf chunks.flatten).getD number [] := by
  cases number with
  | zero =>
      have first := firstLine_flatten_drop chunks.flatten 0
      rw [List.drop_zero, flatten_linesOf] at first
      rw [nth, Line.first, bytes, flatten_lineChunks, first]
  | succ number =>
      rw [nth, next, Line.first, bytes, flatten_lineChunks, behind_nth, firstLine_flatten_drop]

theorem Line.before_nth (offset : Nat) (chunks : List (List UInt8)) (number : Nat) :
    (nth offset chunks number).before =
      offset + ((linesOf chunks.flatten).take number).flatten.length := by
  induction number with
  | zero => rfl
  | succ number ih =>
      rw [nth, next, Line.first, ih, bytes_nth, flatten_take_succ, List.length_append,
        Nat.add_assoc]

/-- What a line reader may have come to, and how often it has gone on to the next line, after any
operations.  As many bytes are consumed as are shown, or fewer. -/
inductive Reaches (start : Reader) : Nat → Reader → Prop
  | start : Reaches start 0 start
  | peek {number : Nat} {reader : Reader} (reached : Reaches start number reader) :
      Reaches start number reader.peek.2
  | fill {number : Nat} {reader : Reader} (reached : Reaches start number reader) :
      Reaches start number reader.fill.2
  | atEnd {number : Nat} {reader : Reader} (reached : Reaches start number reader) :
      Reaches start number reader.atEnd.2
  | consume {number : Nat} {reader : Reader} (reached : Reaches start number reader)
      {shown : List UInt8} (looked : reader.peek.1 = .ok shown) {count : Nat}
      (within : count ≤ shown.length) : Reaches start number (reader.consume count).2
  | nextLine {number : Nat} {reader : Reader} (reached : Reaches start number reader) :
      Reaches start (number + 1) reader.nextLine.2

/-- Every operation keeps a line reader on its line, and going on comes to the next one. -/
theorem Reaches.onLine {base : ByteReader} (steady : base.Steady) {number : Nat} {reader : Reader}
    (reached : Reaches ⟨base, [false]⟩ number reader) :
    ∃ taken chunks, OnLine (.nth base.consumed base.chunks number) taken chunks reader := by
  induction reached with
  | start => exact ⟨_, _, OnLine.start steady⟩
  | peek _ ih =>
      obtain ⟨taken, chunks, onLine⟩ := ih
      obtain ⟨after, looked, moved⟩ := onLine.peek
      rw [looked]
      exact ⟨_, _, moved⟩
  | fill _ ih =>
      obtain ⟨taken, chunks, onLine⟩ := ih
      obtain ⟨after, filled, moved⟩ := onLine.fill
      rw [filled]
      exact ⟨_, _, moved⟩
  | atEnd _ ih =>
      obtain ⟨taken, chunks, onLine⟩ := ih
      obtain ⟨after, asked, moved⟩ := onLine.atEnd
      rw [asked]
      exact ⟨_, _, moved⟩
  | consume _ looked within ih =>
      obtain ⟨taken, chunks, onLine⟩ := ih
      obtain ⟨_, same, _⟩ := onLine.peek
      rw [same] at looked
      cases looked
      obtain ⟨after, consumed, moved⟩ := onLine.consume within
      rw [consumed]
      exact ⟨_, _, moved⟩
  | nextLine _ ih =>
      obtain ⟨taken, chunks, onLine⟩ := ih
      obtain ⟨after, went, moved⟩ := onLine.nextLine
      rw [went]
      exact ⟨_, _, moved⟩

/-- A line reader has consumed the lines before the one with the given number and `taken` of that
one, of which `left` is still to be given, as are the lines behind it.  It is done when the line
feed has been taken. -/
structure Within (lines : List (List UInt8)) (offset number : Nat) (taken left : List UInt8)
    (reader : Reader) : Prop where
  line_eq : lines.getD number [] = taken ++ left
  rest_eq : reader.base.rest = left ++ (lines.drop (number + 1)).flatten
  consumed_eq : reader.consumed = offset + (lines.take number).flatten.length + taken.length
  lines_eq : reader.lines = [decide (lineFeed ∈ taken)]

/-- A line reader is within a line, and no operation fails or takes it anywhere else: it shows the
next bytes of the line, consumes them and the end of the line behind them, and goes on to the first
byte of the line behind it. -/
structure KeepsToLine (lines : List (List UInt8)) (offset number : Nat) (taken left : List UInt8)
    (reader : Reader) : Prop extends Within lines offset number taken left reader where
  shows : ∃ shown after, reader.peek = (.ok shown, after) ∧ shown <+: left ∧
    (shown = [] → left = []) ∧ Within lines offset number taken left after ∧
      ∀ count ≤ shown.length, ∃ after, reader.consume count = (.ok (), after) ∧
        Within lines offset number (taken ++ shown.take count ++ lineEnd (shown.drop count))
          (left.drop (taking shown count)) after
  readsOn : ∃ added after, reader.fill = (.ok added, after) ∧
    Within lines offset number taken left after
  ends : ∃ ended after, reader.atEnd = (.ok ended, after) ∧
    Within lines offset number taken left after ∧
      (ended = true ↔ lineFeed ∉ taken ∧ reader.base.rest = [])
  goesOn : ∃ after, reader.nextLine = (.ok (), after) ∧
    Within lines offset (number + 1) [] (lines.getD (number + 1) []) after

theorem OnLine.within {offset number : Nat} {all : List (List UInt8)} {taken : List UInt8}
    {chunks : List (List UInt8)} {reader : Reader}
    (onLine : OnLine (.nth offset all number) taken chunks reader) :
    Within (linesOf all.flatten) offset number taken chunks.flatten reader where
  line_eq := by rw [← Line.bytes_nth offset, onLine.bytes_eq]
  rest_eq := by rw [onLine.rest_eq, Line.behind_nth]
  consumed_eq := by rw [onLine.consumed_eq, Line.before_nth]
  lines_eq := onLine.lines_eq

theorem Within.rest_split {bytes : List UInt8} {offset number : Nat} {taken left : List UInt8}
    {reader : Reader} (within : Within (linesOf bytes) offset number taken left reader) :
    bytes = ((linesOf bytes).take number).flatten ++ taken ++ reader.base.rest := by
  have later := firstLine_append_behindLine ((linesOf bytes).drop number).flatten
  rw [firstLine_flatten_drop, behindLine_flatten_drop, within.line_eq, List.append_assoc,
    ← within.rest_eq] at later
  rw [List.append_assoc, later, ← List.flatten_append, List.take_append_drop, flatten_linesOf]

/-- Whatever a line reader is asked for, in any order and however the bytes arrive, it keeps to the
line that it has been told to go on to, and no byte is lost or given twice. -/
theorem keepsToLine_of_reaches {base : ByteReader} (steady : base.Steady) {number : Nat}
    {reader : Reader} (reached : Reaches ⟨base, [false]⟩ number reader) :
    ∃ taken left, KeepsToLine (linesOf base.rest) base.consumed number taken left reader ∧
      base.rest = ((linesOf base.rest).take number).flatten ++ taken ++ reader.base.rest := by
  obtain ⟨taken, chunks, onLine⟩ := reached.onLine steady
  refine ⟨taken, chunks.flatten, ⟨onLine.within, ?_, ?_, ?_, ?_⟩, onLine.within.rest_split⟩
  · obtain ⟨after, looked, moved⟩ := onLine.peek
    refine ⟨_, after, looked, headD_prefix_flatten chunks, ?_, moved.within, ?_⟩
    · intro empty
      cases chunks with
      | nil => rfl
      | cons chunk rest => exact (onLine.solid chunk List.mem_cons_self empty).elim
    · intro count within
      obtain ⟨after, consumed, moved⟩ := onLine.consume within
      refine ⟨after, consumed, ?_⟩
      have there := moved.within
      rwa [take_taking, ← List.append_assoc, flatten_dropFront (taking_le within)] at there
  · obtain ⟨after, filled, moved⟩ := onLine.fill
    have there := moved.within
    rw [flatten_joinFirst] at there
    exact ⟨_, after, filled, there⟩
  · obtain ⟨after, asked, moved⟩ := onLine.atEnd
    refine ⟨_, after, asked, moved.within, ?_⟩
    rw [decide_eq_true_iff]
    exact and_congr_right onLine.eq_nil_iff
  · obtain ⟨after, went, moved⟩ := onLine.nextLine
    rw [← Line.nth] at moved
    have there := moved.within
    have line := there.line_eq
    rw [List.nil_append] at line
    refine ⟨after, went, ?_⟩
    rw [ByteReader.rest, line]
    exact there

/-- A line of which one byte was taken before it was seen that a line feed comes behind the carriage
return. -/
theorem keepsToLine_of_split_end :
    let base : ByteReader := { pending := [.data [0x61, 0x0D], .data [0x0A, 0x62]] }
    let reader := (Reader.consume ⟨base, [false]⟩ 1).2
    base.Steady ∧ Reaches ⟨base, [false]⟩ 0 reader ∧
      ∃ taken left, KeepsToLine (linesOf base.rest) base.consumed 0 taken left reader ∧
        base.rest = ((linesOf base.rest).take 0).flatten ++ taken ++ reader.base.rest := by
  intro base reader
  have steady : base.Steady := fun _ => .more (.more .nil)
  have looked : (Reader.peek ⟨base, [false]⟩).1 = .ok [0x61, 0x0D] := by cbv
  have reached : Reaches ⟨base, [false]⟩ 0 reader := .consume .start looked (by decide)
  exact ⟨steady, reached, keepsToLine_of_reaches steady reached⟩

end Unformat
