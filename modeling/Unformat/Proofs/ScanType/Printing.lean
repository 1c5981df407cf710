import Unformat.Proofs.Json.Numerals
import Unformat.Proofs.Net.RoundTrip
import Unformat.Proofs.Pattern.Refusing

/-!
# Separators in printed values

The bare text of a value that the default rule of a built-in type reads has no line feed.  A tab or
a carriage return is in it only if it is the value itself, a single character.
-/

namespace Unformat

open Pattern (Describes)

/-- The characters that divide lines and fields. -/
def separators : List Char := ['\t', '\n', '\r']

theorem mem_separators {c : Char} : c ∈ separators ↔ c = '\t' ∨ c = '\n' ∨ c = '\r' := by
  simp [separators]

namespace Value

/-! ## Nothing new -/

theorem not_mem_separators_of_isNumeric {c : Char} (numeric : Json.isNumeric c = true) :
    c ∉ separators := by
  intro member
  rcases mem_separators.mp member with rfl | rfl | rfl <;> exact absurd numeric (by decide)

theorem not_mem_ipv4Text {c : Char} (separates : c ∈ separators) (address : Ipv4) :
    c ∉ address.text.toList := by
  intro inside
  refine not_mem_separators_of_isNumeric ?_ separates
  rcases Ipv4.mem_text inside with rfl | digit
  · rfl
  · exact Json.isNumeric_of_isDigit digit

theorem mem_of_mem_ipv6Text {c : Char} (separates : c ∈ separators) {taken : List Char}
    {address : Ipv6} (parsed : Ipv6.parse taken = .ok address)
    (inside : c ∈ address.text.toList) : c ∈ taken := by
  have foreign : c ≠ ':' ∧ Text.Hex.isDigit c = false := by
    rcases mem_separators.mp separates with rfl | rfl | rfl <;> decide
  obtain ⟨front, rfl, _⟩ := Ipv6.exists_of_parse parsed
  rw [Ipv6.toList_text] at inside
  rcases List.mem_append.mp inside with groups | scope
  · exact (Ipv6.not_mem_groupsText foreign.1 foreign.2 groups).elim
  · exact List.mem_append_right _ scope

theorem not_mem_realText {c : Char} (separates : c ∈ separators) {double : Binary64}
    (inRange : double.InRange) : c ∉ double.text.toList := by
  cases double with
  | nan => rcases mem_separators.mp separates with rfl | rfl | rfl <;> decide
  | infinite negative =>
      rcases mem_separators.mp separates with rfl | rfl | rfl <;> cases negative <;> decide
  | finite =>
      intro inside
      exact not_mem_separators_of_isNumeric ((Binary64.numeral_text inRange).isNumeric c inside)
        separates

theorem not_mem_decimal {c : Char} (separates : c ∈ separators) (number : Int) :
    c ∉ (toString number).toList := by
  intro inside
  exact not_mem_separators_of_isNumeric ((numeral_decimal number).isNumeric c inside) separates

theorem parse_of_parseIpv6 {taken : List Char} {address : Ipv6}
    (parsed : Conversion.parseIpv6 taken = .ok address) : Ipv6.parse taken = .ok address := by
  unfold Conversion.parseIpv6 at parsed
  split at parsed
  · next found => rwa [Except.ok.inj parsed] at found
  · cases parsed

theorem cases_of_parse? {taken : List Char} {address : Address}
    (found : Address.parse? taken = some address) :
    (∃ v4, address = .v4 v4) ∨ ∃ v6, Ipv6.parse taken = .ok v6 ∧ address = .v6 v6 := by
  unfold Address.parse? at found
  split at found
  · exact .inl ⟨_, (Option.some.inj found).symm⟩
  split at found
  · next parsed => exact .inr ⟨_, parsed, (Option.some.inj found).symm⟩
  · cases found

/-- A separator in the text of a value comes from the text that was taken. -/
theorem mem_of_mem_plain {type : ScanType} (known : type ∈ ScanType.withDefault)
    {taken : List Char} {value : Value} (converts : type.conversion.apply taken = .ok value)
    {c : Char} (separates : c ∈ separators) (inside : c ∈ value.plain.toList) : c ∈ taken := by
  simp only [ScanType.withDefault, List.mem_cons] at known
  rcases known with rfl | rfl | rfl | rfl | rfl | rfl | rfl | integer
  · change Conversion.apply .character taken = _ at converts
    simp only [Conversion.apply] at converts
    split at converts
    · cases converts
      rwa [plain, String.toList_ofList] at inside
    · cases converts
  · change Conversion.apply .boolean taken = _ at converts
    simp only [Conversion.apply] at converts
    have bare (truth : Bool) : c ∉ (plain (.bool truth)).toList := by
      rcases mem_separators.mp separates with rfl | rfl | rfl <;> cases truth <;> decide
    split at converts
    · cases converts
      exact (bare _ inside).elim
    split at converts
    · cases converts
      exact (bare _ inside).elim
    · cases converts
  · cases converts
    rwa [plain, String.toList_ofList] at inside
  · obtain ⟨address, _, rfl⟩ := Conversion.exists_of_map_eq_ok converts
    exact (not_mem_ipv4Text separates address inside).elim
  · obtain ⟨double, _, rfl⟩ := Conversion.exists_of_parseReal converts
    exact (not_mem_realText separates (Conversion.inRange_of_apply (by trivial) converts) inside).elim
  · obtain ⟨address, parsed, rfl⟩ := Conversion.exists_of_map_eq_ok converts
    exact mem_of_mem_ipv6Text separates (parse_of_parseIpv6 parsed) inside
  · change Conversion.apply .address taken = _ at converts
    simp only [Conversion.apply] at converts
    split at converts
    · next found parsed =>
        cases converts
        rcases cases_of_parse? parsed with ⟨v4, rfl⟩ | ⟨v6, sixParsed, rfl⟩
        · exact (not_mem_ipv4Text separates v4 inside).elim
        · exact mem_of_mem_ipv6Text separates sixParsed inside
    · cases converts
  · obtain ⟨name, signed, bits, nonzero, rfl⟩ := ScanType.exists_of_mem_integers integer
    obtain ⟨number, _, rfl⟩ := Conversion.exists_of_map_eq_ok converts
    exact (not_mem_decimal separates number inside).elim

/-! ## Default rules -/

/-- What a default rule reads has no line feed in its text, and a tab or a carriage return only if
it is that character. -/
theorem mem_plain_iff_of_default {type : ScanType} (known : type ∈ ScanType.withDefault)
    {source : String} {pattern : Pattern} (given : type.defaultPattern = some source)
    (reads : Pattern.compile source = .ok pattern) {taken : List Char}
    (described : Describes pattern taken) {value : Value}
    (converts : type.conversion.apply taken = .ok value) :
    '\n' ∉ value.plain.toList ∧
      ∀ c ∈ ['\t', '\r'], c ∈ value.plain.toList ↔ value = .text (String.ofList [c]) := by
  obtain ⟨other, found, same, compiled, plain, _, noFeed, single⟩ :=
    ScanType.exists_refusing_of_mem_withDefault known
  obtain rfl := Option.some.inj (same.symm.trans given)
  obtain rfl := Except.ok.inj (compiled.symm.trans reads)
  have back {c : Char} : value = .text (String.ofList [c]) → c ∈ value.plain.toList := by
    rintro rfl
    rw [Value.plain, String.toList_ofList]
    exact List.mem_singleton_self c
  refine ⟨fun inside => ?_, fun c member => ⟨fun inside => ?_, back⟩⟩
  · exact Pattern.not_mem_of_describes noFeed described
      (mem_of_mem_plain known converts (by decide) inside)
  · have separates : c ∈ separators := by
      simp only [List.mem_cons, List.not_mem_nil, or_false] at member
      exact mem_separators.mpr (member.imp_right .inr)
    have taken := mem_of_mem_plain known converts separates inside
    rcases single with ⟨rfl, rfl⟩ | ⟨_, noReturn, noTab⟩
    · obtain ⟨d, _, rfl⟩ := described
      obtain rfl := List.mem_singleton.mp taken
      exact (Except.ok.inj converts).symm
    · rcases List.mem_cons.mp member with rfl | last
      · exact (Pattern.not_mem_of_describes noTab described taken).elim
      · obtain rfl := List.mem_singleton.mp last
        exact (Pattern.not_mem_of_describes noReturn described taken).elim

end Value

end Unformat
