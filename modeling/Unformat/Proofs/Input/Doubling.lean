import Unformat.Proofs.Input.LineKeeping

/-!
# A line reader around a line reader

A second line reader around a line reader adds nothing while both are on their line: it shows,
reads and consumes what the inner one does, and is done with the line when the inner one is.  When
it is told to go on to the next line, the inner one is not told.
-/

namespace Unformat

theorem firstLine_firstLine (bytes : List UInt8) :
    firstLine (firstLine bytes) = firstLine bytes := by
  by_cases member : lineFeed ∈ bytes
  · obtain ⟨front, rest, absent, rfl⟩ := exists_front_of_mem member
    rw [firstLine_append absent, firstLine_append absent]
  · rw [firstLine_of_not_mem member, firstLine_of_not_mem member]

theorem lineLength?_firstLine (bytes : List UInt8) :
    lineLength? (firstLine bytes) = lineLength? bytes := by
  by_cases member : lineFeed ∈ bytes
  · obtain ⟨front, rest, absent, rfl⟩ := exists_front_of_mem member
    rw [firstLine_append absent, lineLength?_append absent, lineLength?_append absent]
  · rw [firstLine_of_not_mem member]

theorem contains_firstLine (bytes : List UInt8) :
    (firstLine bytes).contains lineFeed = bytes.contains lineFeed := by
  rw [Bool.eq_iff_iff, List.contains_iff_mem, List.contains_iff_mem, mem_firstLine_iff]

theorem withLineEnd_firstLine {bytes : List UInt8} {length : Nat}
    (line : lineLength? bytes = some length) (count : Int) :
    withLineEnd (firstLine bytes) length count = withLineEnd bytes length count := by
  have front : firstLine bytes = bytes.take (length + 1) := by rw [firstLine, line]
  unfold withLineEnd
  split
  · rfl
  · by_cases before : 0 ≤ count ∧ count + 1 = length
    · have within : count.toNat < length + 1 := by omega
      rw [front, List.getElem?_take_of_lt within]
    · have elsewhere (byte : Option UInt8) :
          ¬ (0 ≤ count ∧ count + 1 = length ∧ byte = some carriageReturn) :=
        fun all => before ⟨all.1, all.2.1⟩
      rw [if_neg (elsewhere _), if_neg (elsewhere _)]

/-- Nothing is added to a count that is negative or past the end of the line. -/
theorem withLineEnd_of_outside (bytes : List UInt8) {length : Nat} {count : Int}
    (outside : count < 0 ∨ (length : Int) < count) : withLineEnd bytes length count = count := by
  rw [withLineEnd, if_neg (by omega), if_neg (by omega)]

/-- The end of a line is added once. -/
theorem withLineEnd_withLineEnd (bytes : List UInt8) (length : Nat) (count : Int) :
    withLineEnd bytes length (withLineEnd bytes length count) = withLineEnd bytes length count := by
  by_cases first : count = length
  · have total : withLineEnd bytes length count = count + 1 := by rw [withLineEnd, if_pos first]
    rw [total]
    exact withLineEnd_of_outside bytes (by omega)
  by_cases second : 0 ≤ count ∧ count + 1 = length ∧ bytes[count.toNat]? = some carriageReturn
  · have total : withLineEnd bytes length count = count + 2 := by
      rw [withLineEnd, if_neg first, if_pos second]
    rw [total]
    exact withLineEnd_of_outside bytes (by omega)
  · have total : withLineEnd bytes length count = count := by
      rw [withLineEnd, if_neg first, if_neg second]
    rw [total, total]

namespace ByteReader

/-- What a look has shown, the next look shows again, and nothing is read for it. -/
theorem peek_of_peek {base after : ByteReader} {shown : List UInt8}
    (looked : base.peek = (.ok shown, after)) : after.peek = (.ok shown, after) := by
  obtain ⟨pending, buffer, ended, consumed⟩ := base
  cases buffer with
  | cons byte buffer =>
      cases looked
      rfl
  | nil =>
      cases ended with
      | true =>
          cases looked
          rfl
      | false =>
          match pending with
          | [] | .data [] :: _ | .data (_ :: _) :: _ =>
              cases looked
              rfl
          | .failure _ :: _ => cases looked

end ByteReader

namespace Reader

theorem peekThrough_of_peekThrough {lines : List Bool} {base after : ByteReader}
    {shown : List UInt8} (looked : peekThrough lines base = (.ok shown, after)) :
    peekThrough lines after = (.ok shown, after) := by
  induction lines generalizing shown with
  | nil => exact ByteReader.peek_of_peek looked
  | cons done inner ih =>
      cases done with
      | true =>
          cases looked
          rfl
      | false =>
          simp only [peekThrough] at looked ⊢
          rcases came : peekThrough inner base with ⟨_ | visible, middle⟩
          · rw [came] at looked
            cases looked
          · rw [came] at looked
            cases looked
            rw [ih came]
            rfl

/-- The reader with its outermost line reader around it once more. -/
def doubled (reader : Reader) : Reader :=
  match reader.lines with
  | [] => reader
  | done :: inner => { reader with lines := done :: done :: inner }

variable {reader : Reader}

@[simp] theorem base_doubled (reader : Reader) : reader.doubled.base = reader.base := by
  rw [doubled]
  split <;> rfl

theorem peekThrough_double (done : Bool) (inner : List Bool) (base : ByteReader) :
    peekThrough (done :: done :: inner) base = peekThrough (done :: inner) base := by
  cases done with
  | true => rfl
  | false =>
      simp only [peekThrough]
      rcases peekThrough inner base with ⟨_ | shown, after⟩
      · rfl
      · simp only [Except.map, firstLine_firstLine]

theorem fillThrough_double (done : Bool) (inner : List Bool) (base : ByteReader) :
    fillThrough (done :: done :: inner) base = fillThrough (done :: inner) base := by
  cases done with
  | true => rfl
  | false =>
      rcases came : peekThrough inner base with ⟨fault | shown, after⟩
      · simp only [fillThrough, peekThrough, came, Except.map]
      · have again := peekThrough_of_peekThrough came
        simp only [fillThrough, peekThrough, came, Except.map, contains_firstLine, again]
        split <;> rfl

theorem consumeThrough_double (done : Bool) (inner : List Bool) (base : ByteReader) (count : Int) :
    consumeThrough (done :: done :: inner) base count =
      ((consumeThrough (done :: inner) base count).1,
        (consumeThrough (done :: inner) base count).2.doubled) := by
  cases done with
  | true => rfl
  | false =>
      rcases came : peekThrough inner base with ⟨fault | shown, after⟩
      · simp only [consumeThrough, peekThrough, came, Except.map]
        rfl
      · have again := peekThrough_of_peekThrough came
        rcases line : lineLength? shown with _ | length
        · simp only [consumeThrough, peekThrough, came, Except.map, lineLength?_firstLine, line,
            again]
          rfl
        · simp only [consumeThrough, peekThrough, came, Except.map, lineLength?_firstLine, line,
            again, withLineEnd_firstLine line, withLineEnd_withLineEnd]
          rfl

/-! ## The operations -/

theorem peek_doubled (reader : Reader) :
    reader.doubled.peek = (reader.peek.1, reader.peek.2.doubled) := by
  obtain ⟨base, _ | ⟨done, inner⟩⟩ := reader
  · rfl
  · simp only [doubled, peek, peekThrough_double]

theorem fill_doubled (reader : Reader) :
    reader.doubled.fill = (reader.fill.1, reader.fill.2.doubled) := by
  obtain ⟨base, _ | ⟨done, inner⟩⟩ := reader
  · rfl
  · simp only [doubled, fill, fillThrough_double]

theorem consume_doubled (reader : Reader) (count : Int) :
    reader.doubled.consume count =
      ((reader.consume count).1, (reader.consume count).2.doubled) := by
  obtain ⟨base, _ | ⟨done, inner⟩⟩ := reader
  · rfl
  · exact consumeThrough_double done inner base count

theorem atEnd_doubled (base : ByteReader) (inner : List Bool) :
    (Reader.doubled ⟨base, false :: inner⟩).atEnd =
      ((Reader.atEnd ⟨base, false :: inner⟩).1,
        (Reader.atEnd ⟨base, false :: inner⟩).2.doubled) := by
  have looks := peek_doubled ⟨base, false :: inner⟩
  simp only [atEnd, doubled] at looks ⊢
  rw [looks]

end Reader

end Unformat
