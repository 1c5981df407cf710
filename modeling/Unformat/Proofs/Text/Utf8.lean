import Unformat.Text.Utf8

/-!
# Decoding and encoding

`front` finds a character exactly when the bytes begin with its encoding.  From this, decoding
takes the encoding of a text off the front of any bytes, and what it has found does not change
when more bytes arrive.
-/

namespace Unformat.Text.Utf8

/-! ## Lead bytes and continuation bytes -/

/-- The promise of each lead byte, by ranges. -/
theorem Lead.ofByte?_eq_some_iff {byte : UInt8} {lead : Lead} :
    Lead.ofByte? byte = some lead ↔
      (byte.toNat < 0x80 ∧ lead = { count := 0, bits := byte.toNat }) ∨
      (0xC2 ≤ byte.toNat ∧ byte.toNat < 0xE0 ∧
        lead = { count := 1, bits := byte.toNat - 0xC0 }) ∨
      (byte.toNat = 0xE0 ∧ lead = { count := 2, low := 0xA0, bits := 0 }) ∨
      (byte.toNat = 0xED ∧ lead = { count := 2, high := 0x9F, bits := 0xD }) ∨
      (0xE1 ≤ byte.toNat ∧ byte.toNat < 0xF0 ∧ byte.toNat ≠ 0xED ∧
        lead = { count := 2, bits := byte.toNat - 0xE0 }) ∨
      (byte.toNat = 0xF0 ∧ lead = { count := 3, low := 0x90, bits := 0 }) ∨
      (0xF1 ≤ byte.toNat ∧ byte.toNat < 0xF4 ∧
        lead = { count := 3, bits := byte.toNat - 0xF0 }) ∨
      (byte.toNat = 0xF4 ∧ lead = { count := 3, high := 0x8F, bits := 4 }) := by
  unfold Lead.ofByte?
  simp only
  split <;> grind

/-- What the promise of a lead byte says about the number of bytes, its own bits and the next
byte. -/
theorem Lead.bounds {byte : UInt8} {lead : Lead} (promise : Lead.ofByte? byte = some lead) :
    (lead.count = 0 ∧ byte.toNat < 0x80 ∧ lead.bits = byte.toNat) ∨
    (lead.count = 1 ∧ byte.toNat = lead.bits + 0xC0 ∧ 2 ≤ lead.bits ∧ lead.bits < 32 ∧
      lead.low.toNat = 0x80 ∧ lead.high.toNat = 0xBF) ∨
    (lead.count = 2 ∧ byte.toNat = lead.bits + 0xE0 ∧ lead.bits < 16 ∧
      0x80 ≤ lead.low.toNat ∧ lead.high.toNat ≤ 0xBF ∧
      (lead.bits = 0 → 0xA0 ≤ lead.low.toNat) ∧ (lead.bits = 0xD → lead.high.toNat ≤ 0x9F)) ∨
    (lead.count = 3 ∧ byte.toNat = lead.bits + 0xF0 ∧ lead.bits ≤ 4 ∧
      0x80 ≤ lead.low.toNat ∧ lead.high.toNat ≤ 0xBF ∧
      (lead.bits = 0 → 0x90 ≤ lead.low.toNat) ∧ (lead.bits = 4 → lead.high.toNat ≤ 0x8F)) := by
  rcases Lead.ofByte?_eq_some_iff.mp promise with
    ⟨small, rfl⟩ | ⟨least, most, rfl⟩ | ⟨exact, rfl⟩ | ⟨exact, rfl⟩ | ⟨least, most, other, rfl⟩ |
      ⟨exact, rfl⟩ | ⟨least, most, rfl⟩ | ⟨exact, rfl⟩ <;>
    simp <;> omega

theorem Lead.count_le {byte : UInt8} {lead : Lead} (found : Lead.ofByte? byte = some lead) :
    lead.count ≤ 3 := by
  rcases Lead.bounds found with ⟨count, _⟩ | ⟨count, _⟩ | ⟨count, _⟩ | ⟨count, _⟩ <;> omega

theorem length_continuation_le_count (count : Nat) (low high : UInt8) (bytes : List UInt8) :
    (continuation count low high bytes).length ≤ count := by
  induction bytes generalizing count low high with
  | nil => cases count <;> simp [continuation]
  | cons byte rest ih =>
      cases count with
      | zero => simp [continuation]
      | succ count =>
          simp only [continuation]
          split
          · simpa using ih count 0x80 0xBF
          · simp

theorem continuation_append {count : Nat} {low high : UInt8} {bytes : List UInt8}
    (ended : (continuation count low high bytes).length = count ∨
      (continuation count low high bytes).length ≠ bytes.length) (more : List UInt8) :
    continuation count low high (bytes ++ more) = continuation count low high bytes := by
  induction bytes generalizing count low high with
  | nil =>
      cases count with
      | zero => simp [continuation]
      | succ count => simp [continuation] at ended
  | cons byte rest ih =>
      cases count with
      | zero => simp [continuation]
      | succ count =>
          by_cases within : low ≤ byte ∧ byte ≤ high
          · simp only [continuation, within, and_self, if_true, List.length_cons,
              Nat.add_right_cancel_iff, ne_eq, List.cons_append, List.cons.injEq,
              true_and] at ended ⊢
            exact ih ended
          · simp [continuation, within]

/-! ## The front of a byte sequence -/

theorem toNat_ofNat {value : Nat} (valid : value.isValidChar) :
    (Char.ofNat value).toNat = value := by
  rw [Char.ofNat, dif_pos valid]
  rfl

theorem utf8EncodeChar_one {value : Nat} (bound : value < 0x80) :
    String.utf8EncodeChar (Char.ofNat value) = [UInt8.ofNat value] := by
  have valid : value.isValidChar := Or.inl (by omega)
  have number : (Char.ofNat value).val.toNat = value := toNat_ofNat valid
  simp only [String.utf8EncodeChar, number]
  rw [if_pos (by omega)]

theorem utf8EncodeChar_two {value : Nat} (low : 0x80 ≤ value) (bound : value < 0x800) :
    String.utf8EncodeChar (Char.ofNat value) =
      [UInt8.ofNat (value / 64 + 0xC0), UInt8.ofNat (value % 64 + 0x80)] := by
  have valid : value.isValidChar := Or.inl (by omega)
  have number : (Char.ofNat value).val.toNat = value := toNat_ofNat valid
  have first : value / 64 % 32 = value / 64 := Nat.mod_eq_of_lt (by omega)
  simp only [String.utf8EncodeChar, number]
  rw [if_neg (by omega), if_pos (by omega), first]

theorem utf8EncodeChar_three {value : Nat} (valid : value.isValidChar) (low : 0x800 ≤ value)
    (bound : value < 0x10000) :
    String.utf8EncodeChar (Char.ofNat value) =
      [UInt8.ofNat (value / 4096 + 0xE0), UInt8.ofNat (value / 64 % 64 + 0x80),
        UInt8.ofNat (value % 64 + 0x80)] := by
  have number : (Char.ofNat value).val.toNat = value := toNat_ofNat valid
  have first : value / 4096 % 16 = value / 4096 := Nat.mod_eq_of_lt (by omega)
  simp only [String.utf8EncodeChar, number]
  rw [if_neg (by omega), if_neg (by omega), if_pos (by omega), first]

theorem utf8EncodeChar_four {value : Nat} (low : 0x10000 ≤ value) (bound : value < 0x110000) :
    String.utf8EncodeChar (Char.ofNat value) =
      [UInt8.ofNat (value / 262144 + 0xF0), UInt8.ofNat (value / 4096 % 64 + 0x80),
        UInt8.ofNat (value / 64 % 64 + 0x80), UInt8.ofNat (value % 64 + 0x80)] := by
  have valid : value.isValidChar := Or.inr ⟨by omega, bound⟩
  have number : (Char.ofNat value).val.toNat = value := toNat_ofNat valid
  have first : value / 262144 % 8 = value / 262144 := Nat.mod_eq_of_lt (by omega)
  simp only [String.utf8EncodeChar, number]
  rw [if_neg (by omega), if_neg (by omega), if_neg (by omega), first]

theorem ofNat_eq_of_toNat (byte : UInt8) {value : Nat} (equality : byte.toNat = value) :
    UInt8.ofNat value = byte := by
  rw [← equality, UInt8.ofNat_toNat]

theorem exists_of_continuation_full {count : Nat} {low high : UInt8} {bytes : List UInt8}
    (full : (continuation (count + 1) low high bytes).length = count + 1) :
    ∃ byte rest, bytes = byte :: rest ∧ low.toNat ≤ byte.toNat ∧ byte.toNat ≤ high.toNat ∧
      continuation (count + 1) low high bytes = byte :: continuation count 0x80 0xBF rest ∧
        (continuation count 0x80 0xBF rest).length = count := by
  cases bytes with
  | nil => simp [continuation] at full
  | cons byte rest =>
      by_cases within : low ≤ byte ∧ byte ≤ high
      · refine ⟨byte, rest, rfl, UInt8.le_iff_toNat_le.mp within.1,
          UInt8.le_iff_toNat_le.mp within.2, ?_, ?_⟩
        · simp [continuation, within]
        · simpa [continuation, within] using full
      · simp [continuation, within] at full

theorem continuation_zero (low high : UInt8) (bytes : List UInt8) :
    continuation 0 low high bytes = [] := by
  cases bytes <;> rfl

theorem utf8EncodeChar_of_two {lead second : UInt8} {bits : Nat}
    (first : lead.toNat = bits + 0xC0) (least : 2 ≤ bits) (most : bits < 32)
    (low : 0x80 ≤ second.toNat) (high : second.toNat ≤ 0xBF) :
    String.utf8EncodeChar (Char.ofNat (scalarValue bits [second])) = [lead, second] := by
  simp only [scalarValue, List.foldl_cons, List.foldl_nil]
  rw [utf8EncodeChar_two (by omega) (by omega), ofNat_eq_of_toNat lead (by omega),
    ofNat_eq_of_toNat second (by omega)]

theorem utf8EncodeChar_of_three {lead second third : UInt8} {bits : Nat}
    (first : lead.toNat = bits + 0xE0) (most : bits < 16)
    (low : 0x80 ≤ second.toNat) (high : second.toNat ≤ 0xBF)
    (lowest : bits = 0 → 0xA0 ≤ second.toNat) (surrogate : bits = 0xD → second.toNat ≤ 0x9F)
    (thirdLow : 0x80 ≤ third.toNat) (thirdHigh : third.toNat ≤ 0xBF) :
    String.utf8EncodeChar (Char.ofNat (scalarValue bits [second, third])) =
      [lead, second, third] := by
  have valid : ((bits * 64 + (second.toNat - 0x80)) * 64 + (third.toNat - 0x80)).isValidChar := by
    unfold Nat.isValidChar
    omega
  simp only [scalarValue, List.foldl_cons, List.foldl_nil]
  rw [utf8EncodeChar_three valid (by omega) (by omega),
    ofNat_eq_of_toNat lead (by omega), ofNat_eq_of_toNat second (by omega),
    ofNat_eq_of_toNat third (by omega)]

theorem utf8EncodeChar_of_four {lead second third fourth : UInt8} {bits : Nat}
    (first : lead.toNat = bits + 0xF0) (most : bits ≤ 4)
    (low : 0x80 ≤ second.toNat) (high : second.toNat ≤ 0xBF)
    (lowest : bits = 0 → 0x90 ≤ second.toNat) (greatest : bits = 4 → second.toNat ≤ 0x8F)
    (thirdLow : 0x80 ≤ third.toNat) (thirdHigh : third.toNat ≤ 0xBF)
    (fourthLow : 0x80 ≤ fourth.toNat) (fourthHigh : fourth.toNat ≤ 0xBF) :
    String.utf8EncodeChar (Char.ofNat (scalarValue bits [second, third, fourth])) =
      [lead, second, third, fourth] := by
  simp only [scalarValue, List.foldl_cons, List.foldl_nil]
  rw [utf8EncodeChar_four (by omega) (by omega),
    ofNat_eq_of_toNat lead (by omega), ofNat_eq_of_toNat second (by omega),
    ofNat_eq_of_toNat third (by omega), ofNat_eq_of_toNat fourth (by omega)]

/-- The character that a lead byte and all its continuation bytes spell is encoded by them. -/
theorem exists_of_full {lead : Lead} {byte : UInt8} {rest : List UInt8}
    (promise : Lead.ofByte? byte = some lead)
    (full : (continuation lead.count lead.low lead.high rest).length = lead.count) :
    ∃ behind, byte :: rest =
        String.utf8EncodeChar (Char.ofNat
          (scalarValue lead.bits (continuation lead.count lead.low lead.high rest))) ++ behind ∧
      (String.utf8EncodeChar (Char.ofNat
        (scalarValue lead.bits (continuation lead.count lead.low lead.high rest)))).length =
          lead.count + 1 := by
  rcases Lead.bounds promise with ⟨count, small, bits⟩ | ⟨count, first, least, most, lows, highs⟩ |
    ⟨count, first, most, lows, highs, lowest, greatest⟩ |
    ⟨count, first, most, lows, highs, lowest, greatest⟩
  · rw [count, continuation_zero, scalarValue, List.foldl_nil, bits, utf8EncodeChar_one small,
      UInt8.ofNat_toNat]
    exact ⟨rest, rfl, rfl⟩
  · rw [count] at full ⊢
    obtain ⟨second, behind, rfl, low, high, run, _⟩ := exists_of_continuation_full full
    rw [run, continuation_zero,
      utf8EncodeChar_of_two first least most (by omega) (by omega)]
    exact ⟨behind, rfl, rfl⟩
  · rw [count] at full ⊢
    obtain ⟨second, behind, rfl, low, high, run, full⟩ := exists_of_continuation_full full
    obtain ⟨third, behind, rfl, thirdLow, thirdHigh, thirdRun, _⟩ :=
      exists_of_continuation_full full
    rw [run, thirdRun, continuation_zero,
      utf8EncodeChar_of_three first most (by omega) (by omega) (by omega) (by omega)
        thirdLow thirdHigh]
    exact ⟨behind, rfl, rfl⟩
  · rw [count] at full ⊢
    obtain ⟨second, behind, rfl, low, high, run, full⟩ := exists_of_continuation_full full
    obtain ⟨third, behind, rfl, thirdLow, thirdHigh, thirdRun, full⟩ :=
      exists_of_continuation_full full
    obtain ⟨fourth, behind, rfl, fourthLow, fourthHigh, fourthRun, _⟩ :=
      exists_of_continuation_full full
    rw [run, thirdRun, fourthRun, continuation_zero,
      utf8EncodeChar_of_four first most (by omega) (by omega) (by omega) (by omega)
        thirdLow thirdHigh fourthLow fourthHigh]
    exact ⟨behind, rfl, rfl⟩

/-- A character at the front stands there with the bytes of its encoding. -/
theorem exists_of_front_scalar {bytes : List UInt8} {c : Char} {size : Nat}
    (found : front bytes = .scalar c size) :
    ∃ rest, bytes = String.utf8EncodeChar c ++ rest ∧
      size = (String.utf8EncodeChar c).length := by
  cases bytes with
  | nil => simp [front] at found
  | cons byte rest =>
      simp only [front] at found
      cases promise : Lead.ofByte? byte with
      | none => simp [promise] at found
      | some lead =>
          simp only [promise] at found
          by_cases full : (continuation lead.count lead.low lead.high rest).length = lead.count
          · rw [if_pos full, Front.scalar.injEq] at found
            obtain ⟨rfl, rfl⟩ := found
            obtain ⟨behind, equality, length⟩ := exists_of_full promise full
            exact ⟨behind, equality, length.symm⟩
          · rw [if_neg full] at found
            split at found <;> simp at found

theorem continuation_cons {low high byte : UInt8} (count : Nat) (rest : List UInt8)
    (least : low.toNat ≤ byte.toNat) (most : byte.toNat ≤ high.toNat) :
    continuation (count + 1) low high (byte :: rest) =
      byte :: continuation count 0x80 0xBF rest := by
  have within : low ≤ byte ∧ byte ≤ high :=
    ⟨UInt8.le_iff_toNat_le.mpr least, UInt8.le_iff_toNat_le.mpr most⟩
  simp [continuation, within]

theorem Lead.ofByte?_of_one {byte : UInt8} (small : byte.toNat < 0x80) :
    Lead.ofByte? byte = some { count := 0, bits := byte.toNat } :=
  Lead.ofByte?_eq_some_iff.mpr (Or.inl ⟨small, rfl⟩)

theorem Lead.ofByte?_of_two {byte : UInt8} {bits : Nat} (first : byte.toNat = bits + 0xC0)
    (least : 2 ≤ bits) (most : bits < 32) :
    Lead.ofByte? byte = some { count := 1, bits } := by
  refine Lead.ofByte?_eq_some_iff.mpr (Or.inr (Or.inl ⟨by omega, by omega, ?_⟩))
  have equality : byte.toNat - 0xC0 = bits := by omega
  rw [equality]

theorem Lead.exists_of_three {byte : UInt8} {bits : Nat} (first : byte.toNat = bits + 0xE0)
    (most : bits < 16) :
    ∃ lead, Lead.ofByte? byte = some lead ∧ lead.count = 2 ∧ lead.bits = bits ∧
      lead.low.toNat = (if bits = 0 then 0xA0 else 0x80) ∧
      lead.high.toNat = (if bits = 0xD then 0x9F else 0xBF) := by
  by_cases lowest : bits = 0
  · refine ⟨{ count := 2, low := 0xA0, bits := 0 }, Lead.ofByte?_eq_some_iff.mpr ?_, ?_⟩
    · exact Or.inr (Or.inr (Or.inl ⟨by omega, rfl⟩))
    · simp [lowest]
  · by_cases surrogate : bits = 0xD
    · refine ⟨{ count := 2, high := 0x9F, bits := 0xD }, Lead.ofByte?_eq_some_iff.mpr ?_, ?_⟩
      · exact Or.inr (Or.inr (Or.inr (Or.inl ⟨by omega, rfl⟩)))
      · simp [surrogate]
    · refine ⟨{ count := 2, bits := byte.toNat - 0xE0 }, Lead.ofByte?_eq_some_iff.mpr ?_, ?_⟩
      · exact Or.inr (Or.inr (Or.inr (Or.inr
          (Or.inl ⟨by omega, by omega, by omega, rfl⟩))))
      · simp [lowest, surrogate]
        omega

theorem Lead.exists_of_four {byte : UInt8} {bits : Nat} (first : byte.toNat = bits + 0xF0)
    (most : bits ≤ 4) :
    ∃ lead, Lead.ofByte? byte = some lead ∧ lead.count = 3 ∧ lead.bits = bits ∧
      lead.low.toNat = (if bits = 0 then 0x90 else 0x80) ∧
      lead.high.toNat = (if bits = 4 then 0x8F else 0xBF) := by
  by_cases lowest : bits = 0
  · refine ⟨{ count := 3, low := 0x90, bits := 0 }, Lead.ofByte?_eq_some_iff.mpr ?_, ?_⟩
    · exact Or.inr (Or.inr (Or.inr (Or.inr (Or.inr (Or.inl ⟨by omega, rfl⟩)))))
    · simp [lowest]
  · by_cases greatest : bits = 4
    · refine ⟨{ count := 3, high := 0x8F, bits := 4 }, Lead.ofByte?_eq_some_iff.mpr ?_, ?_⟩
      · exact Or.inr (Or.inr (Or.inr (Or.inr (Or.inr (Or.inr (Or.inr ⟨by omega, rfl⟩))))))
      · simp [greatest]
    · refine ⟨{ count := 3, bits := byte.toNat - 0xF0 }, Lead.ofByte?_eq_some_iff.mpr ?_, ?_⟩
      · exact Or.inr (Or.inr (Or.inr (Or.inr (Or.inr (Or.inr
          (Or.inl ⟨by omega, by omega, rfl⟩))))))
      · simp [lowest, greatest]
        omega

theorem front_of_full {lead : Lead} {byte : UInt8} {rest tail : List UInt8}
    (promise : Lead.ofByte? byte = some lead)
    (run : continuation lead.count lead.low lead.high rest = tail)
    (full : tail.length = lead.count) :
    front (byte :: rest) = .scalar (Char.ofNat (scalarValue lead.bits tail)) (lead.count + 1) := by
  simp [front, promise, run, full]

theorem toNat_ofNat_byte {number : Nat} (bound : number < 256) :
    (UInt8.ofNat number).toNat = number :=
  UInt8.toNat_ofNat_of_lt' bound

theorem front_of_one {value : Nat} (bound : value < 0x80) (rest : List UInt8) :
    front (UInt8.ofNat value :: rest) = .scalar (Char.ofNat value) 1 := by
  have number : (UInt8.ofNat value).toNat = value := toNat_ofNat_byte (by omega)
  rw [front_of_full (Lead.ofByte?_of_one (by omega)) (continuation_zero _ _ _) rfl, number]
  rfl

theorem front_of_two {value : Nat} (low : 0x80 ≤ value) (bound : value < 0x800)
    (rest : List UInt8) :
    front (UInt8.ofNat (value / 64 + 0xC0) :: UInt8.ofNat (value % 64 + 0x80) :: rest) =
      .scalar (Char.ofNat value) 2 := by
  have lead : (UInt8.ofNat (value / 64 + 0xC0)).toNat = value / 64 + 0xC0 :=
    toNat_ofNat_byte (by omega)
  have second : (UInt8.ofNat (value % 64 + 0x80)).toNat = value % 64 + 0x80 :=
    toNat_ofNat_byte (by omega)
  have run : continuation 1 0x80 0xBF (UInt8.ofNat (value % 64 + 0x80) :: rest) =
      [UInt8.ofNat (value % 64 + 0x80)] := by
    rw [continuation_cons 0 _ (by rw [second]; simp) (by rw [second]; simp; omega),
      continuation_zero]
  have total : value / 64 * 64 + (value % 64 + 0x80 - 0x80) = value := by omega
  rw [front_of_full (Lead.ofByte?_of_two lead (by omega) (by omega)) run rfl]
  simp only [scalarValue, List.foldl_cons, List.foldl_nil, second, total]

theorem front_of_three {value : Nat} (valid : value.isValidChar) (low : 0x800 ≤ value)
    (bound : value < 0x10000) (rest : List UInt8) :
    front (UInt8.ofNat (value / 4096 + 0xE0) :: UInt8.ofNat (value / 64 % 64 + 0x80) ::
      UInt8.ofNat (value % 64 + 0x80) :: rest) = .scalar (Char.ofNat value) 3 := by
  have scalar : value < 0xD800 ∨ 0xDFFF < value ∧ value < 0x110000 := valid
  have first : (UInt8.ofNat (value / 4096 + 0xE0)).toNat = value / 4096 + 0xE0 :=
    toNat_ofNat_byte (by omega)
  have second : (UInt8.ofNat (value / 64 % 64 + 0x80)).toNat = value / 64 % 64 + 0x80 :=
    toNat_ofNat_byte (by omega)
  have third : (UInt8.ofNat (value % 64 + 0x80)).toNat = value % 64 + 0x80 :=
    toNat_ofNat_byte (by omega)
  obtain ⟨lead, promise, count, bits, lowest, highest⟩ := Lead.exists_of_three first (by omega)
  have run : continuation lead.count lead.low lead.high
      (UInt8.ofNat (value / 64 % 64 + 0x80) :: UInt8.ofNat (value % 64 + 0x80) :: rest) =
      [UInt8.ofNat (value / 64 % 64 + 0x80), UInt8.ofNat (value % 64 + 0x80)] := by
    rw [count, continuation_cons 1 _ (by rw [second]; split at lowest <;> omega)
        (by rw [second]; split at highest <;> omega),
      continuation_cons 0 _ (by rw [third]; simp) (by rw [third]; simp; omega),
      continuation_zero]
  have total : (value / 4096 * 64 + (value / 64 % 64 + 0x80 - 0x80)) * 64 +
      (value % 64 + 0x80 - 0x80) = value := by omega
  rw [front_of_full promise run count.symm, count, bits]
  simp only [scalarValue, List.foldl_cons, List.foldl_nil, second, third, total]

theorem front_of_four {value : Nat} (low : 0x10000 ≤ value) (bound : value < 0x110000)
    (rest : List UInt8) :
    front (UInt8.ofNat (value / 262144 + 0xF0) :: UInt8.ofNat (value / 4096 % 64 + 0x80) ::
      UInt8.ofNat (value / 64 % 64 + 0x80) :: UInt8.ofNat (value % 64 + 0x80) :: rest) =
      .scalar (Char.ofNat value) 4 := by
  have first : (UInt8.ofNat (value / 262144 + 0xF0)).toNat = value / 262144 + 0xF0 :=
    toNat_ofNat_byte (by omega)
  have second : (UInt8.ofNat (value / 4096 % 64 + 0x80)).toNat = value / 4096 % 64 + 0x80 :=
    toNat_ofNat_byte (by omega)
  have third : (UInt8.ofNat (value / 64 % 64 + 0x80)).toNat = value / 64 % 64 + 0x80 :=
    toNat_ofNat_byte (by omega)
  have fourth : (UInt8.ofNat (value % 64 + 0x80)).toNat = value % 64 + 0x80 :=
    toNat_ofNat_byte (by omega)
  obtain ⟨lead, promise, count, bits, lowest, highest⟩ := Lead.exists_of_four first (by omega)
  have run : continuation lead.count lead.low lead.high
      (UInt8.ofNat (value / 4096 % 64 + 0x80) :: UInt8.ofNat (value / 64 % 64 + 0x80) ::
        UInt8.ofNat (value % 64 + 0x80) :: rest) =
      [UInt8.ofNat (value / 4096 % 64 + 0x80), UInt8.ofNat (value / 64 % 64 + 0x80),
        UInt8.ofNat (value % 64 + 0x80)] := by
    rw [count, continuation_cons 2 _ (by rw [second]; split at lowest <;> omega)
        (by rw [second]; split at highest <;> omega),
      continuation_cons 1 _ (by rw [third]; simp) (by rw [third]; simp; omega),
      continuation_cons 0 _ (by rw [fourth]; simp) (by rw [fourth]; simp; omega),
      continuation_zero]
  have total : ((value / 262144 * 64 + (value / 4096 % 64 + 0x80 - 0x80)) * 64 +
      (value / 64 % 64 + 0x80 - 0x80)) * 64 + (value % 64 + 0x80 - 0x80) = value := by omega
  rw [front_of_full promise run count.symm, count, bits]
  simp only [scalarValue, List.foldl_cons, List.foldl_nil, second, third, fourth, total]

theorem front_utf8EncodeChar_append (c : Char) (rest : List UInt8) :
    front (String.utf8EncodeChar c ++ rest) = .scalar c (String.utf8EncodeChar c).length := by
  have valid : c.toNat.isValidChar := c.valid
  have spelled : Char.ofNat c.toNat = c := Char.ofNat_toNat c
  generalize c.toNat = value at valid spelled
  subst spelled
  have scalar : value < 0xD800 ∨ 0xDFFF < value ∧ value < 0x110000 := valid
  by_cases one : value < 0x80
  · rw [utf8EncodeChar_one one]
    exact front_of_one one rest
  by_cases two : value < 0x800
  · rw [utf8EncodeChar_two (by omega) two]
    exact front_of_two (by omega) two rest
  by_cases three : value < 0x10000
  · rw [utf8EncodeChar_three valid (by omega) three]
    exact front_of_three valid (by omega) three rest
  · rw [utf8EncodeChar_four (by omega) (by omega)]
    exact front_of_four (by omega) (by omega) rest

theorem continuation_nil (count : Nat) (low high : UInt8) :
    continuation count low high [] = [] := by
  cases count <;> rfl

theorem beginsSurrogate_append {byte : UInt8} {rest : List UInt8} (following : rest ≠ [])
    (plain : beginsSurrogate byte rest = false) (more : List UInt8) :
    beginsSurrogate byte (rest ++ more) = false := by
  match rest, more with
  | [], _ => exact (following rfl).elim
  | [_], [] => simpa using plain
  | [_], _ :: _ => rfl
  | _ :: _ :: _, _ => rfl

/-- Malformed bytes at the front stay malformed, and they are the same bytes, whatever follows. -/
theorem front_malformed_append {bytes : List UInt8} {size : Nat}
    (found : front bytes = .malformed size) (more : List UInt8) :
    front (bytes ++ more) = .malformed size ∧ size ≤ bytes.length := by
  cases bytes with
  | nil => simp [front] at found
  | cons byte rest =>
      simp only [front, List.cons_append] at found ⊢
      cases promise : Lead.ofByte? byte with
      | none =>
          simp only [promise, Front.malformed.injEq] at found
          simp [← found]
      | some lead =>
          simp only [promise] at found
          have lengths := length_continuation_le lead.count lead.low lead.high rest
          by_cases full : (continuation lead.count lead.low lead.high rest).length = lead.count
          · simp [full] at found
          by_cases open' : (continuation lead.count lead.low lead.high rest).length = rest.length ∨
              beginsSurrogate byte rest
          · simp [full, open'] at found
          obtain ⟨ended, plain⟩ := not_or.mp open'
          have same := continuation_append (Or.inr ended) more
          have stillPlain : beginsSurrogate byte (rest ++ more) = false := by
            apply beginsSurrogate_append
            · intro same
              subst same
              exact ended (by rw [continuation_nil])
            · simpa using plain
          have stillEnded : (continuation lead.count lead.low lead.high rest).length ≠
              (rest ++ more).length := by
            simp only [List.length_append]
            omega
          simp only [full, open', if_false, Front.malformed.injEq] at found
          simp only [same, full, stillEnded, stillPlain, Bool.false_eq_true, or_self, if_false]
          refine ⟨by rw [found], ?_⟩
          simp only [List.length_cons]
          omega

theorem continuation_append_small {byte : UInt8} (small : byte.toNat < 0x80) {count : Nat}
    {low : UInt8} (least : 0x80 ≤ low.toNat) (high : UInt8) (bytes more : List UInt8) :
    continuation count low high (bytes ++ byte :: more) = continuation count low high bytes := by
  induction bytes generalizing count low high with
  | nil =>
      cases count with
      | zero => simp [continuation]
      | succ count =>
          have below : ¬ low ≤ byte := by
            rw [UInt8.le_iff_toNat_le]
            omega
          simp [continuation, below]
  | cons next rest ih =>
      cases count with
      | zero => simp [continuation]
      | succ count =>
          have later : continuation count 0x80 0xBF (rest ++ byte :: more) =
              continuation count 0x80 0xBF rest := ih (by decide) _
          simp only [List.cons_append, continuation, later]

theorem beginsSurrogate_append_small {byte : UInt8} (small : byte.toNat < 0x80) (lead : UInt8)
    (bytes more : List UInt8) : beginsSurrogate lead (bytes ++ byte :: more) = false := by
  match bytes, more with
  | [], [] =>
      have below : ¬ (0xA0 : UInt8) ≤ byte := by
        rw [UInt8.le_iff_toNat_le, show (0xA0 : UInt8).toNat = 160 from rfl]
        omega
      simp [beginsSurrogate, below]
  | [], _ :: _ => rfl
  | [_], _ => rfl
  | _ :: _ :: _, _ => rfl

/-- The beginning of a character is malformed when a byte follows that continues none. -/
theorem front_incomplete_append {bytes : List UInt8} (found : front bytes = .incomplete) :
    ∃ size ≤ bytes.length, ∀ (byte : UInt8) (more : List UInt8), byte.toNat < 0x80 →
      front (bytes ++ byte :: more) = .malformed size := by
  cases bytes with
  | nil => simp [front] at found
  | cons first rest =>
      simp only [front] at found
      cases promise : Lead.ofByte? first with
      | none => simp [promise] at found
      | some lead =>
          simp only [promise] at found
          have within := length_continuation_le lead.count lead.low lead.high rest
          by_cases full : (continuation lead.count lead.low lead.high rest).length = lead.count
          · simp [full] at found
          refine ⟨(continuation lead.count lead.low lead.high rest).length + 1,
            Nat.succ_le_succ within, fun byte more small => ?_⟩
          have least : 0x80 ≤ lead.low.toNat := by
            rcases Lead.bounds promise with ⟨none, _⟩ | given | given | given
            · rw [none, continuation_zero] at full
              exact (full rfl).elim
            · omega
            · omega
            · omega
          have same : continuation lead.count lead.low lead.high (rest ++ byte :: more) =
              continuation lead.count lead.low lead.high rest :=
            continuation_append_small small least lead.high rest more
          have plain := beginsSurrogate_append_small small first rest more
          have shorter : (continuation lead.count lead.low lead.high rest).length ≠
              (rest ++ byte :: more).length := by
            simp only [List.length_append, List.length_cons]
            omega
          simp only [List.cons_append, front, promise, same, full, shorter, plain,
            Bool.false_eq_true, or_self, if_false]

theorem length_of_front_incomplete {bytes : List UInt8} (found : front bytes = .incomplete) :
    bytes.length ≤ 3 := by
  cases bytes with
  | nil => simp
  | cons byte rest =>
      simp only [front] at found
      cases promise : Lead.ofByte? byte with
      | none => simp [promise] at found
      | some lead =>
          simp only [promise] at found
          have count := Lead.count_le promise
          have within := length_continuation_le_count lead.count lead.low lead.high rest
          by_cases full : (continuation lead.count lead.low lead.high rest).length = lead.count
          · simp [full] at found
          by_cases open' : (continuation lead.count lead.low lead.high rest).length = rest.length ∨
              beginsSurrogate byte rest
          · rcases open' with short | surrogate
            · simp only [List.length_cons]
              omega
            · cases rest with
              | nil => simp [beginsSurrogate] at surrogate
              | cons second rest =>
                  cases rest with
                  | nil => simp
                  | cons third rest => simp [beginsSurrogate] at surrogate
          · simp [full, open'] at found

theorem front_eq_empty_iff {bytes : List UInt8} : front bytes = .empty ↔ bytes = [] := by
  cases bytes with
  | nil => simp [front]
  | cons byte rest =>
      simp only [front]
      cases Lead.ofByte? byte with
      | none => simp
      | some lead =>
          simp only [reduceCtorEq, iff_false]
          split
          · simp
          · split <;> simp

/-! ## Decoding -/

@[simp] theorem encode_nil : encode [] = [] := rfl

@[simp] theorem encode_cons (c : Char) (text : List Char) :
    encode (c :: text) = String.utf8EncodeChar c ++ encode text := rfl

@[simp] theorem encode_append (text more : List Char) :
    encode (text ++ more) = encode text ++ encode more := by
  simp [encode]

theorem length_utf8EncodeChar_pos (c : Char) : 0 < (String.utf8EncodeChar c).length := by
  rw [String.length_utf8EncodeChar]
  exact c.utf8Size_pos

/-- A byte below 0x80 only stands for the character with its number. -/
theorem eq_of_mem_utf8EncodeChar {c : Char} {byte : UInt8} (small : byte.toNat < 0x80)
    (member : byte ∈ String.utf8EncodeChar c) : c = Char.ofNat byte.toNat := by
  have valid : c.toNat.isValidChar := c.valid
  have spelled : Char.ofNat c.toNat = c := Char.ofNat_toNat c
  generalize c.toNat = value at valid spelled
  subst spelled
  have scalar : value < 0xD800 ∨ 0xDFFF < value ∧ value < 0x110000 := valid
  by_cases one : value < 0x80
  · rw [utf8EncodeChar_one one, List.mem_singleton] at member
    rw [member, toNat_ofNat_byte (by omega)]
  exfalso
  by_cases two : value < 0x800
  · rw [utf8EncodeChar_two (by omega) two] at member
    simp only [List.mem_cons, List.not_mem_nil, or_false] at member
    rcases member with rfl | rfl <;> rw [toNat_ofNat_byte (by omega)] at small <;> omega
  by_cases three : value < 0x10000
  · rw [utf8EncodeChar_three valid (by omega) three] at member
    simp only [List.mem_cons, List.not_mem_nil, or_false] at member
    rcases member with rfl | rfl | rfl <;> rw [toNat_ofNat_byte (by omega)] at small <;> omega
  · rw [utf8EncodeChar_four (by omega) (by omega)] at member
    simp only [List.mem_cons, List.not_mem_nil, or_false] at member
    rcases member with rfl | rfl | rfl | rfl <;> rw [toNat_ofNat_byte (by omega)] at small <;> omega

theorem encode_eq_nil_iff {text : List Char} : encode text = [] ↔ text = [] := by
  cases text with
  | nil => simp
  | cons c text =>
      have positive := length_utf8EncodeChar_pos c
      simp only [encode_cons, List.append_eq_nil_iff, reduceCtorEq, iff_false, not_and]
      intro empty
      simp [empty] at positive

theorem decode_of_front_empty {bytes : List UInt8} (found : front bytes = .empty) :
    decode bytes = ([], .empty) := by
  rw [decode]
  split <;> simp_all

theorem decode_of_front_incomplete {bytes : List UInt8} (found : front bytes = .incomplete) :
    decode bytes = ([], .incomplete bytes) := by
  rw [decode]
  split <;> simp_all

theorem decode_of_front_malformed {bytes : List UInt8} {size : Nat}
    (found : front bytes = .malformed size) :
    decode bytes = ([], .malformed (bytes.take size)) := by
  rw [decode]
  split <;> simp_all

theorem decode_of_front_scalar {bytes : List UInt8} {c : Char} {size : Nat}
    (found : front bytes = .scalar c size) :
    decode bytes = (c :: (decode (bytes.drop size)).1, (decode (bytes.drop size)).2) := by
  rw [decode]
  split <;> simp_all

@[simp] theorem decode_nil : decode [] = ([], .empty) :=
  decode_of_front_empty rfl

theorem decode_utf8EncodeChar_append (c : Char) (rest : List UInt8) :
    decode (String.utf8EncodeChar c ++ rest) = (c :: (decode rest).1, (decode rest).2) := by
  rw [decode_of_front_scalar (front_utf8EncodeChar_append c rest), List.drop_left]

/-- Decoding takes the encoding of a text off the front. -/
theorem decode_encode_append (text : List Char) (rest : List UInt8) :
    decode (encode text ++ rest) = (text ++ (decode rest).1, (decode rest).2) := by
  induction text with
  | nil => rfl
  | cons c text ih => simp [decode_utf8EncodeChar_append, ih]

theorem decode_encode (text : List Char) : decode (encode text) = (text, .empty) := by
  simpa using decode_encode_append text []

theorem encode_injective {first second : List Char} (equality : encode first = encode second) :
    first = second := by
  have decoded := congrArg decode equality
  simpa [decode_encode] using decoded

/-- The bytes behind the text that decoding finds. -/
theorem exists_of_decode (bytes : List UInt8) :
    ∃ rest, bytes = encode (decode bytes).1 ++ rest ∧ decode rest = ([], (decode bytes).2) := by
  induction length : bytes.length using Nat.strongRecOn generalizing bytes with
  | _ count ih =>
      cases found : front bytes with
      | empty =>
          rw [decode_of_front_empty found]
          exact ⟨bytes, rfl, decode_of_front_empty found⟩
      | incomplete =>
          rw [decode_of_front_incomplete found]
          exact ⟨bytes, rfl, decode_of_front_incomplete found⟩
      | malformed size =>
          rw [decode_of_front_malformed found]
          exact ⟨bytes, rfl, decode_of_front_malformed found⟩
      | scalar c size =>
          obtain ⟨behind, rfl, _⟩ := exists_of_front_scalar found
          have positive := length_utf8EncodeChar_pos c
          obtain ⟨rest, equality, remainder⟩ :=
            ih behind.length (by simp only [List.length_append] at length; omega) behind rfl
          rw [decode_utf8EncodeChar_append]
          refine ⟨rest, ?_, remainder⟩
          rw [encode_cons, List.append_assoc, ← equality]

/-- What decoding has found stays when more bytes arrive. -/
theorem decode_append_prefix (bytes more : List UInt8) :
    (decode bytes).1 <+: (decode (bytes ++ more)).1 := by
  obtain ⟨rest, equality, _⟩ := exists_of_decode bytes
  have split : bytes ++ more = encode (decode bytes).1 ++ (rest ++ more) := by
    rw [← List.append_assoc, ← equality]
  rw [split, decode_encode_append]
  exact List.prefix_append _ _

/-- Behind malformed bytes nothing is decoded, so more bytes change nothing. -/
theorem decode_append_of_malformed {bytes offending : List UInt8}
    (malformed : (decode bytes).2 = .malformed offending) (more : List UInt8) :
    decode (bytes ++ more) = decode bytes := by
  obtain ⟨rest, equality, remainder⟩ := exists_of_decode bytes
  have stays : decode (rest ++ more) = decode rest := by
    cases found : front rest with
    | empty => simp [decode_of_front_empty found, malformed] at remainder
    | incomplete => simp [decode_of_front_incomplete found, malformed] at remainder
    | scalar c size => simp [decode_of_front_scalar found] at remainder
    | malformed size =>
        obtain ⟨still, bound⟩ := front_malformed_append found more
        rw [decode_of_front_malformed found, decode_of_front_malformed still,
          List.take_append_of_le_length bound]
  have split : bytes ++ more = encode (decode bytes).1 ++ (rest ++ more) := by
    rw [← List.append_assoc, ← equality]
  rw [split, decode_encode_append, stays, remainder]
  simp

/-- Behind the beginning of a character, a byte that continues none makes it malformed. -/
theorem decode_append_of_incomplete {bytes waiting : List UInt8}
    (incomplete : decode bytes = ([], .incomplete waiting)) :
    ∃ offending, ∀ (byte : UInt8) (more : List UInt8), byte.toNat < 0x80 →
      decode (bytes ++ byte :: more) = ([], .malformed offending) := by
  cases found : front bytes with
  | empty => simp [decode_of_front_empty found] at incomplete
  | scalar c size => simp [decode_of_front_scalar found] at incomplete
  | malformed size => simp [decode_of_front_malformed found] at incomplete
  | incomplete =>
      obtain ⟨size, bound, follows⟩ := front_incomplete_append found
      refine ⟨bytes.take size, fun byte more small => ?_⟩
      rw [decode_of_front_malformed (follows byte more small), List.take_append_of_le_length bound]

/-- More than three bytes behind the text are malformed. -/
theorem exists_malformed_of_length {bytes : List UInt8}
    (long : 3 < bytes.length - (encode (decode bytes).1).length) :
    ∃ offending, (decode bytes).2 = .malformed offending := by
  obtain ⟨rest, equality, remainder⟩ := exists_of_decode bytes
  have length := congrArg List.length equality
  simp only [List.length_append] at length
  cases found : front rest with
  | empty =>
      have none := front_eq_empty_iff.mp found
      simp only [none, List.length_nil] at length
      omega
  | incomplete =>
      have short := length_of_front_incomplete found
      omega
  | scalar c size => simp [decode_of_front_scalar found] at remainder
  | malformed size =>
      rw [decode_of_front_malformed found] at remainder
      exact ⟨_, (Prod.mk.inj remainder).2.symm⟩

end Unformat.Text.Utf8
