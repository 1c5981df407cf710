import Unformat.Proofs.Text.Utf8

/-!
# The longest well-formed prefix

Bytes are unfinished when more bytes would make a character of them, and ill-formed when they are
not empty and no character begins with them. `longestPrefix` finds the longest text that the bytes
begin with, and refuses ill-formed bytes when it finds none; the offending bytes are then the
longest unfinished ones in front, or a single byte. The one exception are the first two bytes of a
surrogate with nothing behind them: they are ill-formed and not refused.
-/

namespace Unformat.Text.Utf8

/-! ## Well-formed, unfinished and ill-formed bytes -/

/-- A text is the longest one that the bytes begin with. -/
def Longest (bytes : List UInt8) (text : List Char) : Prop :=
  encode text <+: bytes ∧
    ∀ other, encode other <+: bytes → (encode other).length ≤ (encode text).length

/-- The bytes begin a character and are not all of it. -/
def Unfinished (bytes : List UInt8) : Prop :=
  bytes ≠ [] ∧ ∃ (c : Char) (more : List UInt8), more ≠ [] ∧ bytes ++ more = String.utf8EncodeChar c

def IllFormed (bytes : List UInt8) : Prop := bytes ≠ [] ∧ ¬ Unfinished bytes

/-- The longest unfinished bytes in front, or the first byte if there are none. -/
structure OffendingPart (bytes part : List UInt8) : Prop where
  isPrefix : part <+: bytes
  unfinished_or_single : Unfinished part ∨ part.length = 1
  longest : ∀ other, other <+: bytes → Unfinished other → other.length ≤ part.length

/-- The first two bytes of a surrogate, with nothing behind them. -/
def IsCutSurrogate (bytes : List UInt8) : Prop :=
  ∃ second : UInt8, bytes = [0xED, second] ∧ 0xA0 ≤ second.toNat ∧ second.toNat ≤ 0xBF

/-! ## Continuation bytes -/

theorem continuation_isPrefix (count : Nat) (low high : UInt8) (bytes : List UInt8) :
    continuation count low high bytes <+: bytes := by
  induction bytes generalizing count low high with
  | nil =>
      simp only [continuation_nil, List.nil_prefix]
  | cons byte rest ih =>
      cases count with
      | zero => exact List.nil_prefix
      | succ count =>
          simp only [continuation]
          split
          · exact (List.prefix_cons_inj byte).mpr (ih count 0x80 0xBF)
          · exact List.nil_prefix

theorem continuation_continuation (count : Nat) (low high : UInt8) (bytes : List UInt8) :
    continuation count low high (continuation count low high bytes) =
      continuation count low high bytes := by
  induction bytes generalizing count low high with
  | nil => rw [continuation_nil, continuation_nil]
  | cons byte rest ih =>
      cases count with
      | zero => rfl
      | succ count =>
          by_cases within : low ≤ byte ∧ byte ≤ high
          · simp [continuation, within, ih]
          · simp [continuation, within]

theorem continuation_isPrefix_append (count : Nat) (low high : UInt8)
    (bytes more : List UInt8) :
    continuation count low high bytes <+: continuation count low high (bytes ++ more) := by
  induction bytes generalizing count low high with
  | nil =>
      simp only [continuation_nil, List.nil_prefix]
  | cons byte rest ih =>
      cases count with
      | zero => exact List.nil_prefix
      | succ count =>
          simp only [List.cons_append, continuation]
          split
          · exact (List.prefix_cons_inj byte).mpr (ih count 0x80 0xBF)
          · exact List.nil_prefix

theorem continuation_of_append {count : Nat} {low high : UInt8} {bytes more : List UInt8}
    (run : continuation count low high (bytes ++ more) = bytes ++ more) :
    continuation count low high bytes = bytes := by
  induction bytes generalizing count low high with
  | nil => exact continuation_nil count low high
  | cons byte rest ih =>
      cases count with
      | zero => cases run
      | succ count =>
          by_cases within : low ≤ byte ∧ byte ≤ high
          · simp only [List.cons_append, continuation, within, and_self, if_true, List.cons.injEq,
              true_and] at run ⊢
            exact ih run
          · simp [continuation, within] at run

/-- Continuation bytes that are too few can be completed, as long as the next byte has any. -/
theorem exists_completion {count : Nat} {low high : UInt8} (range : low ≤ high)
    {bytes : List UInt8} (run : continuation count low high bytes = bytes) :
    ∃ more, (bytes ++ more).length = count ∧
      continuation count low high (bytes ++ more) = bytes ++ more := by
  induction count generalizing low high bytes with
  | zero =>
      rw [continuation_zero] at run
      subst run
      exact ⟨[], rfl, continuation_zero _ _ _⟩
  | succ count ih =>
      cases bytes with
      | nil =>
          obtain ⟨more, length, whole⟩ := ih (by decide : (0x80 : UInt8) ≤ 0xBF)
            (continuation_nil count 0x80 0xBF)
          refine ⟨low :: more, by simpa using length, ?_⟩
          have within : low ≤ low ∧ low ≤ high := ⟨UInt8.le_refl low, range⟩
          simpa [continuation, within] using whole
      | cons byte rest =>
          by_cases within : low ≤ byte ∧ byte ≤ high
          · simp only [continuation, within, and_self, if_true, List.cons.injEq, true_and] at run
            obtain ⟨more, length, whole⟩ := ih (by decide : (0x80 : UInt8) ≤ 0xBF) run
            refine ⟨more, by simpa using length, ?_⟩
            simpa [continuation, within] using whole
          · simp [continuation, within] at run

theorem Lead.low_le_high {byte : UInt8} {lead : Lead} (promise : Lead.ofByte? byte = some lead) :
    lead.low ≤ lead.high := by
  rcases Lead.ofByte?_eq_some_iff.mp promise with
    ⟨_, rfl⟩ | ⟨_, _, rfl⟩ | ⟨_, rfl⟩ | ⟨_, rfl⟩ | ⟨_, _, _, rfl⟩ | ⟨_, rfl⟩ | ⟨_, _, rfl⟩ |
      ⟨_, rfl⟩ <;>
    exact of_decide_eq_true rfl

/-! ## Unfinished bytes by their lead byte -/

theorem unfinished_of_run {byte : UInt8} {lead : Lead} {rest : List UInt8}
    (promise : Lead.ofByte? byte = some lead) (short : rest.length < lead.count)
    (run : continuation lead.count lead.low lead.high rest = rest) :
    Unfinished (byte :: rest) := by
  obtain ⟨more, length, whole⟩ := exists_completion (Lead.low_le_high promise) run
  have found := front_of_full promise whole length
  obtain ⟨behind, spelled, size⟩ := exists_of_front_scalar found
  have none : behind = [] := by
    have lengths := congrArg List.length spelled
    simp only [List.length_cons, List.length_append] at lengths length
    exact List.length_eq_zero_iff.mp (by omega)
  rw [none, List.append_nil] at spelled
  refine ⟨List.cons_ne_nil _ _, _, more, ?_, spelled⟩
  rintro rfl
  rw [List.append_nil] at length
  omega

theorem exists_run_of_unfinished {byte : UInt8} {rest : List UInt8}
    (unfinished : Unfinished (byte :: rest)) :
    ∃ lead, Lead.ofByte? byte = some lead ∧ rest.length < lead.count ∧
      continuation lead.count lead.low lead.high rest = rest := by
  obtain ⟨_, c, more, some, spelled⟩ := unfinished
  have found := front_utf8EncodeChar_append c []
  rw [List.append_nil, ← spelled, List.cons_append, front] at found
  cases promise : Lead.ofByte? byte with
  | none => simp [promise] at found
  | some lead =>
      simp only [promise] at found
      split at found
      · rename_i full
        have size := (Front.scalar.inj found).2
        have positive := List.length_pos_iff.mpr some
        simp only [List.length_cons, List.length_append] at size
        have inFront := continuation_isPrefix lead.count lead.low lead.high (rest ++ more)
        have whole : continuation lead.count lead.low lead.high (rest ++ more) = rest ++ more :=
          inFront.eq_of_length (by rw [full, List.length_append]; omega)
        exact ⟨lead, rfl, by omega, continuation_of_append whole⟩
      · split at found <;> cases found

/-! ## Malformed and incomplete bytes in front -/

theorem continuation_surrogate {second : UInt8} (least : 0xA0 ≤ second.toNat) :
    continuation 2 0x80 0x9F [second] = [] := by
  have outside : ¬ ((0x80 : UInt8) ≤ second ∧ second ≤ 0x9F) := by
    rintro ⟨_, below⟩
    have bound : second.toNat ≤ 0x9F := UInt8.le_iff_toNat_le.mp below
    omega
  simp [continuation, outside]

theorem IsCutSurrogate.front_eq {bytes : List UInt8} (cut : IsCutSurrogate bytes) :
    front bytes = .incomplete := by
  obtain ⟨second, rfl, least, most⟩ := cut
  have promise : Lead.ofByte? 0xED = some { count := 2, high := 0x9F, bits := 0xD } := rfl
  have surrogate : beginsSurrogate 0xED [second] = true := by
    have low : (0xA0 : UInt8) ≤ second := UInt8.le_iff_toNat_le.mpr least
    have high : second ≤ 0xBF := UInt8.le_iff_toNat_le.mpr most
    simp [beginsSurrogate, low, high]
  simp [front, promise, continuation_surrogate least, surrogate]

theorem IsCutSurrogate.not_unfinished {bytes : List UInt8} (cut : IsCutSurrogate bytes) :
    ¬ Unfinished bytes := by
  intro unfinished
  obtain ⟨second, rfl, least, _⟩ := cut
  obtain ⟨lead, promise, _, run⟩ := exists_run_of_unfinished unfinished
  obtain rfl : { count := 2, high := 0x9F, bits := 0xD } = lead := Option.some.inj promise
  rw [continuation_surrogate least] at run
  cases run

theorem isCutSurrogate_of_beginsSurrogate {byte : UInt8} {rest : List UInt8}
    (surrogate : beginsSurrogate byte rest = true) : IsCutSurrogate (byte :: rest) := by
  match rest with
  | [] => cases surrogate
  | [second] =>
      simp only [beginsSurrogate, Bool.and_eq_true, beq_iff_eq, decide_eq_true_eq] at surrogate
      obtain ⟨⟨rfl, least⟩, most⟩ := surrogate
      exact ⟨second, rfl, UInt8.le_iff_toNat_le.mp least, UInt8.le_iff_toNat_le.mp most⟩
  | _ :: _ :: _ => cases surrogate

theorem unfinished_or_cut_of_front_incomplete {bytes : List UInt8}
    (found : front bytes = .incomplete) : Unfinished bytes ∨ IsCutSurrogate bytes := by
  cases bytes with
  | nil => simp [front] at found
  | cons byte rest =>
      simp only [front] at found
      cases promise : Lead.ofByte? byte with
      | none => simp [promise] at found
      | some lead =>
          simp only [promise] at found
          have bound := length_continuation_le_count lead.count lead.low lead.high rest
          have inFront := continuation_isPrefix lead.count lead.low lead.high rest
          split at found
          · cases found
          · rename_i full
            split at found
            · rename_i more
              rcases more with all | surrogate
              · apply Or.inl
                exact unfinished_of_run promise (by omega) (inFront.eq_of_length all)
              · exact Or.inr (isCutSurrogate_of_beginsSurrogate surrogate)
            · cases found

/-- Bytes in front that are unfinished are the lead byte and some of its continuation bytes. -/
theorem length_le_of_unfinished {byte : UInt8} {lead : Lead} {rest other : List UInt8}
    (promise : Lead.ofByte? byte = some lead) (inFront : other <+: byte :: rest)
    (unfinished : Unfinished other) :
    other.length ≤ (continuation lead.count lead.low lead.high rest).length + 1 := by
  cases other with
  | nil => exact absurd rfl unfinished.1
  | cons first otherRest =>
      obtain ⟨more, split⟩ := inFront
      obtain ⟨rfl, rfl⟩ := List.cons.inj split
      obtain ⟨same, promised, _, run⟩ := exists_run_of_unfinished unfinished
      obtain rfl : lead = same := Option.some.inj (promise.symm.trans promised)
      have within := continuation_isPrefix_append lead.count lead.low lead.high otherRest more
      rw [run] at within
      exact Nat.succ_le_succ within.length_le

/-- No character has such a lead byte, so nothing in front is unfinished. -/
theorem not_unfinished_of_ofByte?_eq_none {byte : UInt8} {rest other : List UInt8}
    (promise : Lead.ofByte? byte = none) (inFront : other <+: byte :: rest) :
    ¬ Unfinished other := by
  intro unfinished
  cases other with
  | nil => exact unfinished.1 rfl
  | cons first otherRest =>
      obtain ⟨lead, promised, _⟩ := exists_run_of_unfinished unfinished
      obtain ⟨more, split⟩ := inFront
      obtain ⟨rfl, _⟩ := List.cons.inj split
      rw [promise] at promised
      cases promised

theorem offendingPart_of_ofByte?_eq_none {byte : UInt8} (rest : List UInt8)
    (promise : Lead.ofByte? byte = none) :
    IllFormed (byte :: rest) ∧ OffendingPart (byte :: rest) [byte] := by
  constructor
  · exact ⟨List.cons_ne_nil _ _, not_unfinished_of_ofByte?_eq_none promise List.prefix_rfl⟩
  · constructor
    · exact List.prefix_append [byte] rest
    · exact Or.inr rfl
    · intro other inFront unfinished
      exact absurd unfinished (not_unfinished_of_ofByte?_eq_none promise inFront)

/-- A lead byte and continuation bytes that are neither enough nor all that follows. -/
theorem offendingPart_of_continuation {byte : UInt8} {lead : Lead} {rest : List UInt8}
    (promise : Lead.ofByte? byte = some lead)
    (short : (continuation lead.count lead.low lead.high rest).length ≠ lead.count)
    (left : (continuation lead.count lead.low lead.high rest).length ≠ rest.length) :
    IllFormed (byte :: rest) ∧
      OffendingPart (byte :: rest) (byte :: continuation lead.count lead.low lead.high rest) := by
  have most := length_continuation_le_count lead.count lead.low lead.high rest
  have inFront := continuation_isPrefix lead.count lead.low lead.high rest
  constructor
  · refine ⟨List.cons_ne_nil _ _, fun unfinished => ?_⟩
    have all := length_le_of_unfinished promise List.prefix_rfl unfinished
    have fewer := inFront.length_le
    rw [List.length_cons] at all
    exact left (by omega)
  · constructor
    · exact (List.prefix_cons_inj byte).mpr inFront
    · have run := continuation_continuation lead.count lead.low lead.high rest
      exact Or.inl (unfinished_of_run promise (Nat.lt_of_le_of_ne most short) run)
    · intro other otherInFront unfinished
      exact length_le_of_unfinished promise otherInFront unfinished

theorem illFormed_and_offendingPart_of_malformed {bytes : List UInt8} {size : Nat}
    (found : front bytes = .malformed size) :
    IllFormed bytes ∧ OffendingPart bytes (bytes.take size) := by
  cases bytes with
  | nil => simp [front] at found
  | cons byte rest =>
      simp only [front] at found
      cases promise : Lead.ofByte? byte with
      | none =>
          simp only [promise, Front.malformed.injEq] at found
          subst found
          exact offendingPart_of_ofByte?_eq_none rest promise
      | some lead =>
          simp only [promise] at found
          split at found
          · cases found
          rename_i short
          split at found
          · cases found
          rename_i left
          obtain rfl := Front.malformed.inj found
          have inFront := continuation_isPrefix lead.count lead.low lead.high rest
          rw [List.take_succ_cons, ← List.prefix_iff_eq_take.mp inFront]
          exact offendingPart_of_continuation promise short fun all => left (Or.inl all)

theorem length_le_of_offendingPart {bytes part : List UInt8}
    (offending : OffendingPart bytes part) : 1 ≤ part.length ∧ part.length ≤ 3 := by
  rcases offending.unfinished_or_single with unfinished | single
  · cases part with
    | nil => exact absurd rfl unfinished.1
    | cons byte rest =>
        obtain ⟨lead, promise, short, _⟩ := exists_run_of_unfinished unfinished
        have most := Lead.count_le promise
        rw [List.length_cons]
        omega
  · omega

/-! ## The longest text in front -/

theorem longest_decode (bytes : List UInt8) : Longest bytes (decode bytes).1 := by
  obtain ⟨rest, split, _⟩ := exists_of_decode bytes
  refine ⟨⟨rest, split.symm⟩, fun other inFront => ?_⟩
  obtain ⟨behind, rfl⟩ := inFront
  rw [decode_encode_append, encode_append, List.length_append]
  exact Nat.le_add_right _ _

theorem longest_iff (bytes : List UInt8) (text : List Char) :
    Longest bytes text ↔ text = (decode bytes).1 := by
  constructor
  · intro longest
    have decoded := longest_decode bytes
    have sameLength := Nat.le_antisymm (decoded.2 _ longest.1) (longest.2 _ decoded.1)
    have inFront := List.prefix_of_prefix_length_le longest.1 decoded.1 (Nat.le_of_eq sameLength)
    exact encode_injective (inFront.eq_of_length sameLength)
  · rintro rfl
    exact longest_decode bytes

theorem decode_of_longestPrefix_eq_error {bytes part : List UInt8}
    (refused : longestPrefix bytes = .error part) : decode bytes = ([], .malformed part) := by
  simp only [longestPrefix] at refused
  split at refused
  · rename_i decoded
    cases refused
    exact decoded
  · cases refused

theorem decode_of_longestPrefix_eq_ok {bytes : List UInt8} {text : List Char}
    (shown : longestPrefix bytes = .ok text) : (decode bytes).1 = text := by
  simp only [longestPrefix] at shown
  split at shown
  · cases shown
  · rename_i decoded
    cases shown
    rw [decoded]

/-- Only malformed bytes in front are refused. -/
theorem exists_front_of_longestPrefix_eq_error {bytes part : List UInt8}
    (refused : longestPrefix bytes = .error part) :
    ∃ size, front bytes = .malformed size ∧ part = bytes.take size := by
  have decoded := decode_of_longestPrefix_eq_error refused
  cases found : front bytes with
  | empty => simp [decode_of_front_empty found] at decoded
  | incomplete => simp [decode_of_front_incomplete found] at decoded
  | scalar c size => simp [decode_of_front_scalar found] at decoded
  | malformed size =>
      rw [decode_of_front_malformed found] at decoded
      cases decoded
      exact ⟨size, rfl, rfl⟩

theorem longestPrefix_of_front_malformed {bytes : List UInt8} {size : Nat}
    (found : front bytes = .malformed size) :
    longestPrefix bytes = .error (bytes.take size) := by
  simp only [longestPrefix, decode_of_front_malformed found]

theorem illFormed_and_offendingPart_of_decode {bytes part : List UInt8}
    (decoded : decode bytes = ([], .malformed part)) :
    IllFormed bytes ∧ OffendingPart bytes part := by
  have refused : longestPrefix bytes = .error part := by simp only [longestPrefix, decoded]
  obtain ⟨size, found, rfl⟩ := exists_front_of_longestPrefix_eq_error refused
  exact illFormed_and_offendingPart_of_malformed found

theorem refused_iff_malformed {bytes : List UInt8} :
    (∃ part, longestPrefix bytes = .error part) ↔ ∃ size, front bytes = .malformed size := by
  constructor
  · rintro ⟨part, refused⟩
    obtain ⟨size, found, _⟩ := exists_front_of_longestPrefix_eq_error refused
    exact ⟨size, found⟩
  · rintro ⟨size, found⟩
    exact ⟨_, longestPrefix_of_front_malformed found⟩

/-- Ill-formed bytes that begin with no character are malformed, or they are a cut surrogate. -/
theorem no_text_and_illFormed_iff {bytes : List UInt8} :
    (decode bytes).1 = [] ∧ IllFormed bytes ↔
      (∃ size, front bytes = .malformed size) ∨ IsCutSurrogate bytes := by
  constructor
  · rintro ⟨none, ill⟩
    cases found : front bytes with
    | empty => exact absurd (front_eq_empty_iff.mp found) ill.1
    | scalar c size => simp [decode_of_front_scalar found] at none
    | malformed size => exact Or.inl ⟨size, rfl⟩
    | incomplete =>
        apply Or.inr
        exact (unfinished_or_cut_of_front_incomplete found).resolve_left ill.2
  · rintro (⟨size, found⟩ | cut)
    · rw [decode_of_front_malformed found]
      exact ⟨rfl, (illFormed_and_offendingPart_of_malformed found).1⟩
    · rw [decode_of_front_incomplete cut.front_eq]
      refine ⟨rfl, ?_, cut.not_unfinished⟩
      obtain ⟨second, rfl, _⟩ := cut
      exact List.cons_ne_nil _ _

/-! ## Reading a prefix -/

/-- The result is the text, except that ill-formed bytes in front are refused and shown. -/
structure ReadsExactly (bytes : List UInt8) (text : List Char)
    (result : Except (List UInt8) (List Char)) : Prop where
  refused_iff : (∃ part, result = .error part) ↔ text = [] ∧ IllFormed bytes
  shown : ∀ found, result = .ok found → found = text
  offending : ∀ part, result = .error part →
    OffendingPart bytes part ∧ 1 ≤ part.length ∧ part.length ≤ 3

/-- A refusal stays, and a text stays in front of the later one, unless it is empty and the
bytes behind it are refused. -/
def StaysWith (before after : Except (List UInt8) (List Char)) : Prop :=
  match before with
  | .error part => after = .error part
  | .ok text =>
      (∃ later, after = .ok later ∧ text <+: later) ∨ (text = [] ∧ ∃ part, after = .error part)

theorem longestPrefix_append_staysWith (bytes more : List UInt8) :
    StaysWith (longestPrefix bytes) (longestPrefix (bytes ++ more)) := by
  cases before : longestPrefix bytes with
  | error part =>
      have decoded := decode_of_longestPrefix_eq_error before
      have same := decode_append_of_malformed (congrArg Prod.snd decoded) more
      simp only [StaysWith, longestPrefix, same, decoded]
  | ok text =>
      have inFront := decode_append_prefix bytes more
      rw [decode_of_longestPrefix_eq_ok before] at inFront
      cases after : longestPrefix (bytes ++ more) with
      | ok later =>
          rw [decode_of_longestPrefix_eq_ok after] at inFront
          exact Or.inl ⟨later, rfl, inFront⟩
      | error part =>
          rw [decode_of_longestPrefix_eq_error after] at inFront
          exact Or.inr ⟨List.prefix_nil.mp inFront, part, rfl⟩

/-- There is one longest text that the bytes begin with. It is what reading them gives, and
ill-formed bytes with no text in front are refused, except for a cut surrogate: that gives the
empty text. More bytes change neither a text that was found nor a refusal. -/
theorem longestPrefix_exact_iff (bytes : List UInt8) :
    ∃ text, (∀ other, Longest bytes other ↔ other = text) ∧
      (ReadsExactly bytes text (longestPrefix bytes) ↔ ¬ IsCutSurrogate bytes) ∧
      (IsCutSurrogate bytes → text = [] ∧ IllFormed bytes ∧ longestPrefix bytes = .ok []) ∧
      ∀ more, StaysWith (longestPrefix bytes) (longestPrefix (bytes ++ more)) := by
  refine ⟨(decode bytes).1, longest_iff bytes, ⟨?_, ?_⟩, ?_, longestPrefix_append_staysWith bytes⟩
  · intro exactly cut
    obtain ⟨size, found⟩ := refused_iff_malformed.mp
      (exactly.refused_iff.mpr (no_text_and_illFormed_iff.mpr (Or.inr cut)))
    rw [cut.front_eq] at found
    cases found
  · intro whole
    constructor
    · rw [refused_iff_malformed, no_text_and_illFormed_iff]
      exact (or_iff_left whole).symm
    · intro found shown
      exact (decode_of_longestPrefix_eq_ok shown).symm
    · intro part refused
      obtain ⟨size, found, rfl⟩ := exists_front_of_longestPrefix_eq_error refused
      have offending := (illFormed_and_offendingPart_of_malformed found).2
      exact ⟨offending, length_le_of_offendingPart offending⟩
  · intro cut
    obtain ⟨none, ill⟩ := no_text_and_illFormed_iff.mpr (Or.inr cut)
    refine ⟨none, ill, ?_⟩
    simp only [longestPrefix, decode_of_front_incomplete cut.front_eq]

/-- The bytes ED A0 begin no character, and reading them gives the empty text. -/
theorem cutSurrogate_not_refused :
    Longest [0xED, 0xA0] [] ∧ IllFormed [0xED, 0xA0] ∧ longestPrefix [0xED, 0xA0] = .ok [] := by
  have cut : IsCutSurrogate [0xED, 0xA0] := ⟨0xA0, rfl, by decide, by decide⟩
  obtain ⟨none, ill⟩ := no_text_and_illFormed_iff.mpr (Or.inr cut)
  refine ⟨(longest_iff _ _).mpr none.symm, ill, ?_⟩
  simp only [longestPrefix, decode_of_front_incomplete cut.front_eq]

end Unformat.Text.Utf8
