import Unformat.Input.ByteReader

/-!
# Readers

A reader is a byte reader with any number of line readers around it. A line reader shows the bytes
of one line, its line feed included. Consuming up to the end of the line consumes the line feed, or
a carriage return and the line feed, as well; then the line is done, and the line reader shows
nothing until it is told to go on to the next line.
-/

namespace Unformat

/-- A byte reader and the line readers around it, the outermost first; of each is known whether its
line is done. -/
structure Reader where
  base : ByteReader
  lines : List Bool := []
  deriving Repr, DecidableEq

/-- The byte that ends a line. -/
def lineFeed : UInt8 := 0x0A

/-- The byte that may stand before the line feed. -/
def carriageReturn : UInt8 := 0x0D

/-- The number of bytes before the first line feed, if there is one. -/
def lineLength? (bytes : List UInt8) : Option Nat := bytes.idxOf? lineFeed

/-- The bytes up to the first line feed, which is included. -/
def firstLine (bytes : List UInt8) : List UInt8 :=
  match lineLength? bytes with
  | some length => bytes.take (length + 1)
  | none => bytes

/-- What consuming `count` bytes of a line of `length` bytes amounts to when it stops at the end of
the line: the line feed goes too, and a carriage return before it. -/
def withLineEnd (bytes : List UInt8) (length : Nat) (count : Int) : Int :=
  if count = length then count + 1
  else if 0 ≤ count ∧ count + 1 = length ∧ bytes[count.toNat]? = some carriageReturn then count + 2
  else count

namespace Reader

def consumed (reader : Reader) : Nat := reader.base.consumed

/-- The number of reads that may still bring something. -/
def pendingReads (reader : Reader) : Nat := reader.base.pending.length

/-- The number of bytes that have not been consumed. -/
def bytesLeft (reader : Reader) : Nat :=
  reader.base.buffer.length + reader.base.pending.foldl (fun count read =>
    match read with
    | .data content => count + content.length
    | .failure _ => count) 0

/-- Put a line reader around a reader. -/
def around (done : Bool) (reader : Reader) : Reader := { reader with lines := done :: reader.lines }

/-- What line readers show of the bytes at hand, read if there are none. -/
def peekThrough : List Bool → ByteReader → Except ReaderFault (List UInt8) × ByteReader
  | [], base => base.peek
  | true :: _, base => (.ok [], base)
  | false :: inner, base =>
      let (result, base) := peekThrough inner base
      (result.map firstLine, base)

/-- Read once more, unless some line reader shows the end of its line. -/
def fillThrough : List Bool → ByteReader → Except ReaderFault Bool × ByteReader
  | [], base => base.fill
  | true :: _, base => (.ok false, base)
  | false :: inner, base =>
      match peekThrough inner base with
      | (.error fault, base) => (.error fault, base)
      | (.ok shown, base) =>
          if shown.contains lineFeed then (.ok false, base) else fillThrough inner base

/-- Drop the first `count` bytes that line readers show. -/
def consumeThrough : List Bool → ByteReader → Int → Except ReaderFault Unit × Reader
  | [], base, count =>
      let (result, base) := base.consume count
      (result, { base })
  | true :: inner, base, count =>
      (if count = 0 then .ok () else .error .pastLine, ⟨base, true :: inner⟩)
  | false :: inner, base, count =>
      match peekThrough inner base with
      | (.error fault, base) => (.error fault, ⟨base, false :: inner⟩)
      | (.ok shown, base) =>
          match lineLength? shown with
          | none =>
              let (result, reader) := consumeThrough inner base count
              (result, reader.around false)
          | some length =>
              let total := withLineEnd shown length count
              let (result, reader) := consumeThrough inner base total
              (result, reader.around (decide ((length : Int) < total)))

def peek (reader : Reader) : Except ReaderFault (List UInt8) × Reader :=
  let (result, base) := peekThrough reader.lines reader.base
  (result, { reader with base })

/-- Read once more. Tells whether bytes were added. -/
def fill (reader : Reader) : Except ReaderFault Bool × Reader :=
  let (result, base) := fillThrough reader.lines reader.base
  (result, { reader with base })

def consume (reader : Reader) (count : Int) : Except ReaderFault Unit × Reader :=
  consumeThrough reader.lines reader.base count

/-- Whether nothing is left to read. A line reader between two lines does not look. -/
def atEnd (reader : Reader) : Except ReaderFault Bool × Reader :=
  match reader.lines with
  | true :: _ => (.ok false, reader)
  | _ =>
      let (result, reader) := reader.peek
      (result.map List.isEmpty, reader)

/-- Consume bytes up to and including a line feed, in at most `steps` pieces. -/
def skipLine : Nat → Reader → Except ReaderFault Unit × Reader
  | 0, reader => (.ok (), reader)
  | steps + 1, reader =>
      match reader.peek with
      | (.error fault, reader) => (.error fault, reader)
      | (.ok shown, reader) =>
          if shown.isEmpty then (.ok (), reader)
          else match lineLength? shown with
            | some length => reader.consume (length + 1)
            | none =>
                match reader.consume shown.length with
                | (.error fault, reader) => (.error fault, reader)
                | (.ok (), reader) => skipLine steps reader

/-- Go on to the next line: skip what is left of the present one, unless it is done. Every piece
but the first takes a read, so the number of reads bounds them. -/
def nextLine (reader : Reader) : Except ReaderFault Unit × Reader :=
  match reader.lines with
  | [] => (.ok (), reader)
  | true :: inner => (.ok (), { reader with lines := false :: inner })
  | false :: inner =>
      let (result, inner) := skipLine (reader.pendingReads + 2) { reader with lines := inner }
      (result, inner.around false)

/-- The reader of the deliveries to come. -/
def ofDeliveries (pending : List Delivery) : Reader := { base := { pending } }

/-- The reader of one line at a time. -/
def byLine (reader : Reader) : Reader := reader.around false

end Reader

end Unformat
