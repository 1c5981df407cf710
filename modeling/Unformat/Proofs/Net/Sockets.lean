import Unformat.Conversion
import Unformat.Proofs.Net.RoundTrip
import Unformat.Proofs.Number.Numerals

/-!
# Addresses with ports

An address and a port are written with a colon between them, an IPv6 address in brackets.  The
bracket ends at the first `]:`, so the address is read back unless its scope has one.
-/

namespace Unformat

namespace Address

def scope : Address → Option String
  | .v4 _ => none
  | .v6 address => address.scope

/-- The text spells the address. -/
def SpelledBy (address : Address) (text : List Char) : Prop :=
  match address with
  | .v4 address => Ipv4.parse text = .ok address
  | .v6 address => Ipv6.parse text = .ok address

/-- The scope of the address has in it what ends the bracket around an address. -/
def EndsBracket (address : Address) : Prop :=
  ∃ name ∈ address.scope, [']', ':'] <:+: name.toList

/-- The address with a port. -/
def socketText (address : Address) (port : Nat) : List Char :=
  match address with
  | .v4 address => address.text.toList ++ ':' :: Nat.toDigits 10 port
  | .v6 address => '[' :: (address.text.toList ++ ']' :: ':' :: Nat.toDigits 10 port)

end Address

namespace Conversion

open Template (exists_of_bind_eq_ok)

/-! ## Ports -/

theorem decimal_natCast (number : Nat) : decimal number = Nat.toDigits 10 number :=
  decimal_of_nonneg (Int.natCast_nonneg number)

theorem parsePort_toDigits {port : Nat} (bound : port < 65536) :
    parsePort (Nat.toDigits 10 port) = .ok port := by
  have holds : IntegerKind.port.Holds (port : Int) := by
    simp only [IntegerKind.Holds, IntegerKind.port]
    exact ⟨by omega, by simp⟩
  have short : (decimalDigits (port : Int)).length ≤ Number.digitLimit := by
    have digits : (Nat.toDigits 10 port).length ≤ 5 :=
      (Nat.length_toDigits_le_iff (by decide) (by decide)).mpr (by omega)
    exact digits.trans (by decide)
  have contains := IntegerKind.contains_iff_holds.mpr holds
  rw [parsePort, ← decimal_natCast, IntegerKind.parse_decimal contains short]
  rfl

/-- A port is written with digits and perhaps a sign. -/
theorem mem_of_parsePort {text : List Char} {port : Nat} {c : Char}
    (parsed : parsePort text = .ok port) (member : c ∈ text) :
    c.isDigit = true ∨ c = '+' ∨ c = '-' := by
  cases read : IntegerKind.port.parse text with
  | error fault =>
      rw [parsePort, read] at parsed
      cases parsed
  | ok number => exact (IntegerKind.isNumeral_of_parse read).mem_cases member

/-! ## IPv4 -/

theorem parseSocketV4_append {host port : List Char} (bare : ':' ∉ port) :
    parseSocketV4 (host ++ ':' :: port) = (do
      let address ← parseIpv4 host
      return .socket (.v4 address) (← parsePort port)) := by
  have back : ((host ++ ':' :: port).reverse.takeWhile (· != ':')).reverse = port := by
    have passes : ∀ c ∈ port.reverse, (c != ':') = true := by
      intro c member
      simpa using ne_of_mem_of_not_mem (List.mem_reverse.mp member) bare
    rw [List.reverse_append, List.reverse_cons, List.append_assoc,
      List.takeWhile_append_of_pos passes]
    simp
  have front : (host ++ ':' :: port).take ((host ++ ':' :: port).length - port.length - 1) =
      host := by
    rw [List.take_append_of_le_length (by simp; omega)]
    apply List.take_of_length_le
    simp
    omega
  rw [parseSocketV4]
  simp only [back, front]
  rw [if_neg]
  simp
  omega

/-! ## IPv6 -/

theorem splitBracket_cons {c : Char} {rest : List Char} (other : ¬ [']', ':'] <+: c :: rest) :
    splitBracket (c :: rest) = (splitBracket rest).map fun (host, port) => (c :: host, port) := by
  rw [splitBracket]
  rintro more rfl rfl
  simp at other

/-- What stands before the first `]:` is taken off. -/
theorem splitBracket_append {host port : List Char} (none : ¬ [']', ':'] <:+: host) :
    splitBracket (host ++ ']' :: ':' :: port) = some (host, port) := by
  induction host with
  | nil => rfl
  | cons c rest ih =>
      rw [List.infix_cons_iff, not_or] at none
      have other : ¬ [']', ':'] <+: c :: (rest ++ ']' :: ':' :: port) := by
        intro here
        cases rest with
        | nil => simp at here
        | cons d rest => exact none.1 (by simpa using here)
      rw [List.cons_append, splitBracket_cons other, ih none.2]
      rfl

/-- A `]:` further on does not count. -/
theorem exists_splitBracket_append {host : List Char} (inside : [']', ':'] <:+: host)
    (more : List Char) :
    ∃ before after, splitBracket (host ++ more) = some (before, after ++ more) := by
  induction host with
  | nil => simp at inside
  | cons c rest ih =>
      by_cases here : [']', ':'] <+: c :: rest
      · obtain ⟨after, standing⟩ := here
        refine ⟨[], after, ?_⟩
        rw [← standing]
        rfl
      · have later : [']', ':'] <:+: rest := (List.infix_cons_iff.mp inside).resolve_left here
        obtain ⟨before, after, split⟩ := ih later
        refine ⟨c :: before, after, ?_⟩
        have other : ¬ [']', ':'] <+: c :: (rest ++ more) := by
          intro begins
          cases rest with
          | nil => simp at later
          | cons d rest => exact here (by simpa using begins)
        rw [List.cons_append, splitBracket_cons other, split]
        rfl

/-! ## What is read back -/

theorem colon_not_mem_toDigits (number : Nat) : ':' ∉ Nat.toDigits 10 number := by
  intro member
  cases Nat.isDigit_of_mem_toDigits (by decide) (by decide) member

theorem parseSocketV4_socketText (address : Ipv4) {port : Nat} (bound : port < 65536) :
    parseSocketV4 ((Address.v4 address).socketText port) = .ok (.socket (.v4 address) port) := by
  rw [Address.socketText, parseSocketV4_append (colon_not_mem_toDigits port), parseIpv4,
    Ipv4.parse_text, parsePort_toDigits bound]
  rfl

theorem infix_append_iff {front behind : List Char} (bare : ']' ∉ front) :
    [']', ':'] <:+: front ++ behind ↔ [']', ':'] <:+: behind := by
  induction front with
  | nil => rfl
  | cons c rest ih =>
      have other := List.ne_of_not_mem_cons bare
      rw [List.cons_append, List.infix_cons_iff, ih (List.not_mem_of_not_mem_cons bare),
        List.cons_prefix_cons]
      simp [other]

/-- The text of an IPv6 address has a `]:` only in the scope. -/
theorem infix_text_iff (address : Ipv6) :
    [']', ':'] <:+: address.text.toList ↔ (Address.v6 address).EndsBracket := by
  have front : ']' ∉ (Ipv6.groupsText address.groups).toList :=
    Ipv6.not_mem_groupsText (by decide) (by decide)
  have percent : ']' ∉ ['%'] := by decide
  rw [Ipv6.toList_text, infix_append_iff front, Address.EndsBracket, Address.scope]
  cases address.scope with
  | none => simp [Ipv6.scopeText]
  | some name => simpa [Ipv6.scopeText] using infix_append_iff percent

/-- The text of an IPv6 address with a port is read back unless its scope ends the bracket. -/
theorem parseSocketV6_socketText_iff {address : Ipv6} (fits : Ipv6.ScopeFits address.scope)
    {port : Nat} (bound : port < 65536) :
    parseSocketV6 ((Address.v6 address).socketText port) = .ok (.socket (.v6 address) port) ↔
      ¬ (Address.v6 address).EndsBracket := by
  rw [← infix_text_iff, Address.socketText]
  by_cases inside : [']', ':'] <:+: address.text.toList
  · refine iff_of_false ?_ (not_not.mpr inside)
    obtain ⟨before, after, split⟩ :=
      exists_splitBracket_append inside (']' :: ':' :: Nat.toDigits 10 port)
    intro parsed
    simp only [parseSocketV6, split] at parsed
    obtain ⟨_, _, parsed⟩ := exists_of_bind_eq_ok parsed
    obtain ⟨number, read, _⟩ := exists_of_bind_eq_ok parsed
    have bracket : ']' ∈ after ++ ']' :: ':' :: Nat.toDigits 10 port := by simp
    rcases mem_of_parsePort read bracket with isDigit | same | same
    · cases isDigit
    · cases same
    · cases same
  · refine iff_of_true ?_ inside
    simp only [parseSocketV6, splitBracket_append inside]
    rw [parseIpv6, Ipv6.parse_text fits, parsePort_toDigits bound]
    rfl

end Conversion

end Unformat
