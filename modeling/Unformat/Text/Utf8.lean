import Unformat.Text.Hex

/-!
# UTF-8, a prefix at a time

Bytes arrive in pieces, so a reader has to decode as much as is complete. `Utf8.decode` splits a
byte sequence into the longest well-formed prefix and what follows it: nothing, a sequence that
more bytes may complete, or bytes that no continuation makes well formed. The malformed bytes are
the lead byte and the continuation bytes that could still follow it. The first two bytes of a
surrogate are found to be malformed only when a third byte stands behind them.
-/

namespace Unformat.Text.Utf8

def encode (text : List Char) : List UInt8 := text.flatMap String.utf8EncodeChar

/-- What a lead byte promises: how many continuation bytes follow, the bounds of the first of
them, and the bits that the lead byte itself contributes. -/
structure Lead where
  count : Nat
  low : UInt8 := 0x80
  high : UInt8 := 0xBF
  bits : Nat
  deriving Repr, DecidableEq

/-- The promise of a byte in front position; `none` for a byte that cannot stand there. -/
def Lead.ofByte? (byte : UInt8) : Option Lead :=
  let n := byte.toNat
  if n < 0x80 then some { count := 0, bits := n }
  else if n < 0xC2 then none
  else if n < 0xE0 then some { count := 1, bits := n - 0xC0 }
  else if n = 0xE0 then some { count := 2, low := 0xA0, bits := 0 }
  else if n = 0xED then some { count := 2, high := 0x9F, bits := 0xD }
  else if n < 0xF0 then some { count := 2, bits := n - 0xE0 }
  else if n = 0xF0 then some { count := 3, low := 0x90, bits := 0 }
  else if n < 0xF4 then some { count := 3, bits := n - 0xF0 }
  else if n = 0xF4 then some { count := 3, high := 0x8F, bits := 4 }
  else none

/-- The longest run of continuation bytes, at most `count` of them, of which the first lies
between `low` and `high`. -/
def continuation : Nat → UInt8 → UInt8 → List UInt8 → List UInt8
  | 0, _, _, _ => []
  | _ + 1, _, _, [] => []
  | count + 1, low, high, byte :: rest =>
      if low ≤ byte ∧ byte ≤ high then byte :: continuation count 0x80 0xBF rest else []

/-- The scalar value that the lead bits and the continuation bytes spell. -/
def scalarValue (bits : Nat) (tail : List UInt8) : Nat :=
  tail.foldl (fun total byte => total * 64 + (byte.toNat - 0x80)) bits

/-- What stands at the front of a byte sequence. -/
inductive Front where
  | empty
  /-- A whole character of `size` bytes. -/
  | scalar (c : Char) (size : Nat)
  /-- The beginning of a character that more bytes may complete. -/
  | incomplete
  /-- `size` bytes that no continuation makes well formed. -/
  | malformed (size : Nat)
  deriving Repr, DecidableEq

/-- Whether two bytes begin a surrogate: the lead byte is ED and the next byte too great for it.
While nothing follows them they pass for the beginning of a character. -/
def beginsSurrogate (lead : UInt8) (rest : List UInt8) : Bool :=
  match rest with
  | [byte] => lead == 0xED && 0xA0 ≤ byte && byte ≤ 0xBF
  | _ => false

def front : List UInt8 → Front
  | [] => .empty
  | byte :: rest =>
      match Lead.ofByte? byte with
      | none => .malformed 1
      | some lead =>
          let tail := continuation lead.count lead.low lead.high rest
          if tail.length = lead.count then
            .scalar (Char.ofNat (scalarValue lead.bits tail)) (lead.count + 1)
          else if tail.length = rest.length ∨ beginsSurrogate byte rest then .incomplete
          else .malformed (tail.length + 1)

theorem length_continuation_le (count : Nat) (low high : UInt8) (bytes : List UInt8) :
    (continuation count low high bytes).length ≤ bytes.length := by
  induction bytes generalizing count low high with
  | nil => cases count <;> simp [continuation]
  | cons byte rest ih =>
      cases count with
      | zero => simp [continuation]
      | succ count =>
          simp only [continuation]
          split
          · simpa using ih count 0x80 0xBF
          · simp

/-- A character at the front takes at least one byte and no more than there are. -/
theorem front_scalar_size {bytes : List UInt8} {c : Char} {size : Nat}
    (found : front bytes = .scalar c size) : 0 < size ∧ size ≤ bytes.length := by
  cases bytes with
  | nil => simp [front] at found
  | cons byte rest =>
      simp only [front] at found
      split at found
      · simp at found
      · rename_i lead _
        have bound := length_continuation_le lead.count lead.low lead.high rest
        split at found
        · rename_i whole
          simp only [Front.scalar.injEq] at found
          simp only [List.length_cons]
          omega
        · split at found <;> simp at found

/-- What follows the longest well-formed prefix. -/
inductive Remainder where
  | empty
  | incomplete (bytes : List UInt8)
  | malformed (bytes : List UInt8)
  deriving Repr, DecidableEq

/-- The longest well-formed prefix, decoded, and what follows it. -/
def decode (bytes : List UInt8) : List Char × Remainder :=
  match _found : front bytes with
  | .empty => ([], .empty)
  | .incomplete => ([], .incomplete bytes)
  | .malformed size => ([], .malformed (bytes.take size))
  | .scalar c size =>
      let (text, remainder) := decode (bytes.drop size)
      (c :: text, remainder)
termination_by bytes.length
decreasing_by
  have bounds := front_scalar_size _found
  rw [List.length_drop]
  omega

/-- The text of the longest well-formed prefix. Only malformed bytes at the very front are
refused; they are then the result. -/
def longestPrefix (bytes : List UInt8) : Except (List UInt8) (List Char) :=
  match decode bytes with
  | ([], .malformed offending) => .error offending
  | (text, _) => .ok text

end Unformat.Text.Utf8
