import Unformat.Text.Utf8

/-!
# Sources of bytes

Whatever a source is, reading it is a sequence of deliveries: each read brings some bytes or fails.
A read that brings no bytes is the end of the source, and so is the end of the sequence. A text or
a file is cut into deliveries of the size asked for; pieces come as they are.
-/

namespace Unformat

open Text

inductive ReadFailure where
  | failed (message : String)
  /-- The user interrupts the program. -/
  | interrupted
  deriving Repr, DecidableEq

/-- What one read brings. -/
inductive Delivery where
  | data (bytes : List UInt8)
  | failure (reason : ReadFailure)
  deriving Repr, DecidableEq

inductive Source where
  | text (content : String)
  | bytes (content : List UInt8)
  /-- A file of text, of which a read takes characters. -/
  | textFile (content : String)
  /-- A sequence of pieces, of which empty ones are passed over. A sequence may fail to bring a
  piece and still go on. -/
  | pieces (items : List Delivery)
  /-- A file that brings the given deliveries. -/
  | reads (items : List Delivery)
  /-- A value that cannot be read, by the name of its kind. -/
  | unreadable (kind : String)
  deriving Repr, DecidableEq

/-- A list cut into pieces of `size` items, the last of which may be shorter. -/
def cut {α : Type} (size : Nat) (items : List α) : List (List α) :=
  if items.length ≤ size ∨ size = 0 then
    if items.isEmpty then [] else [items]
  else items.take size :: cut size (items.drop size)
termination_by items.length
decreasing_by
  rw [List.length_drop]
  omega

namespace Source

/-- Bytes delivered `size` at a time. -/
def deliverBytes (size : Nat) (bytes : List UInt8) : List Delivery :=
  (cut size bytes).map .data

/-- The deliveries of a sequence of pieces. -/
def deliverPieces : List Delivery → List Delivery
  | [] => []
  | .data [] :: rest => deliverPieces rest
  | .data content :: rest => .data content :: deliverPieces rest
  | .failure reason :: rest => .failure reason :: deliverPieces rest

/-- What the reads of a source bring when they ask for `size` bytes or characters; for a value that
cannot be read, the name of its kind. -/
def deliveries (size : Nat) : Source → Except String (List Delivery)
  | .text content => .ok (deliverBytes size (Utf8.encode content.toList))
  | .bytes content => .ok (deliverBytes size content)
  | .textFile content => .ok ((cut size content.toList).map fun part => .data (Utf8.encode part))
  | .pieces items => .ok (deliverPieces items)
  | .reads items => .ok items
  | .unreadable kind => .error kind

end Source

end Unformat
