import Unformat.Proofs.Net.Matching
import Unformat.Proofs.Net.Sockets
import Unformat.Proofs.Scan.Interrupted
import Unformat.Proofs.ScanType.Equality
import Unformat.ScanType.Registry

/-!
# Address types

The default patterns of the address types take every text that spells an address without a scope as
a whole, so a run over it gives the address and leaves nothing.  The socket types read an address
and a port back from their text unless the scope ends the bracket.
-/

namespace Unformat

open Pattern
open Scan (outcome execute matchPattern)
open Text (Utf8.encode)

/-! ## Whole tokens in one chunk -/

namespace Scan

variable {type : ScanType} {source : String} {pattern : Pattern} {text : List Char}

theorem outcome_matchPattern_whole (plain : pattern.plain) (all : MatchesAll pattern text)
    (solid : text ≠ []) (source : String) :
    ∃ after, outcome (matchPattern pattern.run source) (.ofChunks [Utf8.encode text]) =
      (.ok text, after) ∧ after.consumed = (Utf8.encode text).length := by
  have cuts : Cuts (Utf8.encode text) [Utf8.encode text] := by
    refine ⟨?_, by simp⟩
    simpa [Text.Utf8.encode_eq_nil_iff] using solid
  obtain ⟨taken, after, done, consumed, whole, _⟩ :=
    outcome_matchPattern_of_chunks plain all cuts source
  obtain rfl : taken = text := by
    apply whole
    intro count bound
    -- Before the only read nothing is shown, and nothing can be cut short.
    obtain rfl : count = 0 := by simpa using bound
    intro given
    obtain ⟨length, less, _⟩ := given
    simp [shownBy] at less
  exact ⟨after, done, consumed⟩

/-- A run over a token that is matched as a whole gives its value and leaves nothing. -/
theorem outcome_execute_whole (given : type.defaultPattern = some source)
    (reads : Pattern.compile source = .ok pattern) (plain : pattern.plain)
    (all : MatchesAll pattern text) (solid : text ≠ []) {value : Value}
    (converts : type.conversion.apply text = .ok value) :
    ∃ after, outcome (execute (Plan.single type).compile) (.ofChunks [Utf8.encode text]) =
      (.ok [value], after) ∧ after.consumed = (Utf8.encode text).length := by
  obtain ⟨after, taken, consumed⟩ := outcome_matchPattern_whole plain all solid source
  refine ⟨after, ?_, consumed⟩
  rw [outcome_execute_single given reads taken, valueOf, converts]

end Scan

namespace Address

variable {address : Address} {text : List Char}

/-! ## Addresses -/

/-- The type of the addresses of the same family. -/
def type : Address → ScanType
  | .v4 _ => .ipv4
  | .v6 _ => .ipv6

/-- The type is registered, its default pattern matches the whole text, and a run of a template of
one capture over the text in one chunk gives the address and leaves nothing. -/
structure ScannedWhole (address : Address) (type : ScanType) (text : List Char) : Prop where
  registered : Registry.builtin.find? (.name type.name) = some type
  matched : ∃ source pattern, type.defaultPattern = some source ∧
    Pattern.compile source = .ok pattern ∧ MatchesAll pattern text
  built : Plan.build "\x7b\x7d" { positional := [.default type] } = .ok (.single type)
  scanned : ∃ after,
    outcome (execute (Plan.single type).compile) (.ofChunks [Utf8.encode text]) =
      (.ok [.ofAddress address], after) ∧ after.consumed = (Utf8.encode text).length

theorem parse?_eq_of_spelledBy (spells : address.SpelledBy text) : parse? text = some address := by
  cases address with
  | v4 address =>
      simp only [SpelledBy] at spells
      simp [parse?, spells]
  | v6 address =>
      simp only [SpelledBy] at spells
      have colon := Ipv6.colon_mem_of_parse spells
      cases other : Ipv4.parse text with
      | ok dotted =>
          have noColon := DefaultPattern.colon_not_mem_dotted (Ipv4.describes_dotted other)
          exact absurd colon noColon
      | error fault => simp [parse?, other, spells]

theorem apply_eq_of_spelledBy (spells : address.SpelledBy text) {type : ScanType}
    (member : type ∈ [address.type, .address]) :
    type.conversion.apply text = .ok (.ofAddress address) := by
  have either := parse?_eq_of_spelledBy spells
  rw [List.mem_pair] at member
  rcases member with rfl | rfl
  · cases address with
    | v4 address =>
        simp only [SpelledBy] at spells
        simp [Address.type, ScanType.ipv4, Conversion.apply, Conversion.parseIpv4, spells, Except.map,
          Value.ofAddress]
    | v6 address =>
        simp only [SpelledBy] at spells
        simp [Address.type, ScanType.ipv6, Conversion.apply, Conversion.parseIpv6, spells, Except.map,
          Value.ofAddress]
  · simp [ScanType.address, Conversion.apply, either]

theorem ne_nil_of_spelledBy (spells : address.SpelledBy text) : text ≠ [] := by
  rintro rfl
  have nothing : parse? [] = none := rfl
  rw [parse?_eq_of_spelledBy spells] at nothing
  cases nothing

/-- The addresses that a text spells are those whose scope can be written. -/
theorem exists_spelledBy_iff : (∃ text, address.SpelledBy text) ↔ Ipv6.ScopeFits address.scope := by
  cases address with
  | v4 address => exact iff_of_true ⟨_, Ipv4.parse_text address⟩ (by simp [Ipv6.ScopeFits, scope])
  | v6 address =>
      constructor
      · rintro ⟨text, spells⟩
        obtain ⟨_, _, _, _, fits, _⟩ := Ipv6.exists_of_parse spells
        exact fits
      · exact fun fits => ⟨_, Ipv6.parse_text fits⟩

/-- The default patterns of the two types of an address match each text that spells it without a
scope. -/
theorem exists_matching (spells : address.SpelledBy text) (noScope : address.scope = none)
    {type : ScanType} (member : type ∈ [address.type, .address]) :
    ∃ source pattern, type.defaultPattern = some source ∧ Pattern.compile source = .ok pattern ∧
      pattern.plain ∧ MatchesAll pattern text := by
  rw [List.mem_pair] at member
  cases address with
  | v4 address =>
      have dotted := Ipv4.describes_dotted spells
      rcases member with rfl | rfl
      · exact ⟨_, _, rfl, DefaultPattern.compile_ipv4, rfl, DefaultPattern.matchesAll_dotted dotted⟩
      · refine ⟨_, _, rfl, DefaultPattern.compile_address, DefaultPattern.plain_addressForms true, ?_⟩
        refine DefaultPattern.matchesAll_addressForms_iff.mpr (.inl ?_)
        exact DefaultPattern.isDotted_iff.mpr (.inr (.inr ⟨rfl, dotted⟩))
  | v6 address =>
      have all (bare : Bool) := Ipv6.matchesAll_of_parse spells noScope bare
      rcases member with rfl | rfl
      · exact ⟨_, _, rfl, DefaultPattern.compile_ipv6, DefaultPattern.plain_addressForms _, all false⟩
      · exact ⟨_, _, rfl, DefaultPattern.compile_address, DefaultPattern.plain_addressForms _,
          all true⟩

theorem find?_type {type : ScanType} (member : type ∈ [address.type, .address]) :
    Registry.builtin.find? (.name type.name) = some type := by
  have all : ∀ type ∈ [ScanType.ipv4, .ipv6, .address],
      Registry.builtin.find? (.name type.name) = some type := by
    decide +kernel
  apply all
  rw [List.mem_pair] at member
  cases address <;> rcases member with rfl | rfl <;> simp [Address.type]

theorem scannedWhole_of_spelledBy (spells : address.SpelledBy text)
    (noScope : address.scope = none) {type : ScanType} (member : type ∈ [address.type, .address]) :
    address.ScannedWhole type text := by
  obtain ⟨source, pattern, given, reads, plain, all⟩ := exists_matching spells noScope member
  have hasDefault : type.hasDefault := by simp [ScanType.hasDefault, given]
  exact {
    registered := find?_type member
    matched := ⟨source, pattern, given, reads, all⟩
    built := build_single hasDefault
    scanned := Scan.outcome_execute_whole given reads plain all (ne_nil_of_spelledBy spells)
      (apply_eq_of_spelledBy spells member) }

/-! ## Addresses with ports -/

/-- The type of the addresses of the same family with a port. -/
def socketType : Address → ScanType
  | .v4 _ => .socketV4
  | .v6 _ => .socketV6

theorem find?_socketType {type : ScanType} (member : type ∈ [address.socketType, .socket]) :
    Registry.builtin.find? (.name type.name) = some type := by
  have all : ∀ type ∈ [ScanType.socketV4, .socketV6, .socket],
      Registry.builtin.find? (.name type.name) = some type := by
    decide +kernel
  apply all
  rw [List.mem_pair] at member
  cases address <;> rcases member with rfl | rfl <;> simp [socketType]

theorem head_socketText_v4 (address : Ipv4) (port : Nat) :
    ((Address.v4 address).socketText port).head? ≠ some '[' := by
  intro first
  have member := List.mem_of_head? first
  rw [socketText, List.mem_append, List.mem_cons] at member
  rcases member with inside | same | inside
  · rcases Ipv4.mem_text inside with same | isDigit
    · cases same
    · cases isDigit
  · cases same
  · cases Nat.isDigit_of_mem_toDigits (by decide) (by decide) inside

theorem apply_socketText_iff (spells : address.SpelledBy text) {port : Nat} (bound : port < 65536)
    {type : ScanType} (member : type ∈ [address.socketType, .socket]) :
    type.conversion.apply (address.socketText port) = .ok (.socket address port) ↔
      ¬ address.EndsBracket := by
  rw [List.mem_pair] at member
  cases address with
  | v4 address =>
      have parsed := Conversion.parseSocketV4_socketText address bound
      have noScope : ¬ (Address.v4 address).EndsBracket := by simp [EndsBracket, scope]
      refine iff_of_true ?_ noScope
      rcases member with rfl | rfl
      · exact parsed
      · have other := head_socketText_v4 address port
        simp [ScanType.socket, Conversion.apply, other, parsed]
  | v6 address =>
      have fits : Ipv6.ScopeFits address.scope := exists_spelledBy_iff.mp ⟨text, spells⟩
      rw [← Conversion.parseSocketV6_socketText_iff fits bound]
      rcases member with rfl | rfl <;> rfl

/-- A text that spells an address without a scope is taken as a whole, by the default pattern of the
type of its family and by that of either family; and an address with a port is read back from its
text unless a scope ends the bracket. -/
theorem taken_whole (spells : address.SpelledBy text) :
    (address.scope = none →
      ∀ type ∈ [address.type, .address], address.ScannedWhole type text) ∧
    ∀ port < 65536, ∀ type ∈ [address.socketType, .socket],
      Registry.builtin.find? (.name type.name) = some type ∧
        (type.conversion.apply (address.socketText port) = .ok (.socket address port) ↔
          ¬ address.EndsBracket) := by
  constructor
  · intro noScope type member
    exact scannedWhole_of_spelledBy spells noScope member
  · intro port bound type member
    exact ⟨find?_socketType member, apply_socketText_iff spells bound member⟩

/-- An address with a gap and a dotted tail. -/
theorem taken_whole_dotted_tail :
    let address : Address := .v6 ⟨[0, 0, 0, 0, 0, 0xffff, 0x0102, 0x0304], none, rfl⟩
    let text := "::FFFF:1.2.3.4".toList
    address.SpelledBy text ∧ address.scope = none ∧
      (∀ type ∈ [address.type, .address], address.ScannedWhole type text) ∧
      ∀ port < 65536, ∀ type ∈ [address.socketType, .socket],
        type.conversion.apply (address.socketText port) = .ok (.socket address port) := by
  intro address text
  have spells : address.SpelledBy text := by
    show Ipv6.parse text = .ok _
    decide +kernel
  have noScope : ¬ address.EndsBracket := by simp [address, EndsBracket, scope]
  obtain ⟨whole, readBack⟩ := taken_whole spells
  refine ⟨spells, rfl, whole rfl, ?_⟩
  intro port bound type member
  exact (readBack port bound type member).2.mpr noScope

/-- A scope that ends the bracket leaves what stands behind it to the port. -/
theorem scope_ends_bracket :
    let address : Address := .v6 ⟨[0, 0, 0, 0, 0, 0, 0, 1], some "a]:b", rfl⟩
    address.SpelledBy "::1%a]:b".toList ∧ address.text = "::1%a]:b" ∧
      address.socketText 80 = "[::1%a]:b]:80".toList ∧
      ∀ type ∈ [address.socketType, .socket],
        type.conversion.apply (address.socketText 80) = .error (.invalidDigit "b]:80") := by
  refine ⟨?_, ?_, ?_, ?_⟩
  · show Ipv6.parse _ = .ok _
    decide +kernel
  all_goals decide +kernel

end Address

end Unformat
