import Unformat.Input.Source

/-!
# Byte readers

A byte reader keeps the bytes that have been delivered and not yet consumed. Looking at them reads
only when there are none, and more can be read at any time, until a read has brought none.
-/

namespace Unformat

/-- Why an operation on a reader fails. -/
inductive ReaderFault where
  /-- A read fails. -/
  | read (failure : ReadFailure)
  /-- More bytes were to be consumed than are buffered, or a negative number of them. -/
  | overrun (count : Int) (buffered : Nat)
  /-- Bytes were to be consumed behind the end of a line. -/
  | pastLine
  deriving Repr, DecidableEq

/-- A reader of bytes: the deliveries to come, the bytes at hand, whether the end was met, and how
many bytes have been consumed. -/
structure ByteReader where
  pending : List Delivery
  buffer : List UInt8 := []
  ended : Bool := false
  consumed : Nat := 0
  deriving Repr, DecidableEq

namespace ByteReader

/-- Read once more, unless the end was met. Tells whether bytes were added. -/
def fill (reader : ByteReader) : Except ReaderFault Bool × ByteReader :=
  if reader.ended then (.ok false, reader)
  else match reader.pending with
    | [] => (.ok false, { reader with ended := true })
    | .data [] :: pending => (.ok false, { reader with pending, ended := true })
    | .data bytes :: pending =>
        (.ok true, { reader with pending, buffer := reader.buffer ++ bytes })
    | .failure failure :: pending => (.error (.read failure), { reader with pending })

/-- The bytes at hand, read if there are none. -/
def peek (reader : ByteReader) : Except ReaderFault (List UInt8) × ByteReader :=
  match reader.buffer with
  | [] =>
      match reader.fill with
      | (.ok _, filled) => (.ok filled.buffer, filled)
      | (.error fault, filled) => (.error fault, filled)
  | buffer => (.ok buffer, reader)

def consume (reader : ByteReader) (count : Int) : Except ReaderFault Unit × ByteReader :=
  if count < 0 ∨ (reader.buffer.length : Int) < count then
    (.error (.overrun count reader.buffer.length), reader)
  else
    (.ok (), { reader with
      buffer := reader.buffer.drop count.toNat
      consumed := reader.consumed + count.toNat })

end ByteReader

end Unformat
