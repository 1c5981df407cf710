import Unformat.Proofs.Net.Parts
import Unformat.Proofs.Text.Joined

/-!
# Addresses are read back

The text of an address spells the address.  For IPv6 the longest run of zero groups is left out, and
reading fills the gap up to eight groups again.
-/

namespace Unformat

namespace Ipv4

theorem octet_toDigits (value : UInt8) : octet (Nat.toDigits 10 value.toNat) = .ok value := by
  have all : ∀ n : Fin 256, octet (Nat.toDigits 10 n.val) = .ok (UInt8.ofNat n.val) := by
    decide +kernel
  have read := all ⟨value.toNat, value.toNat_lt⟩
  rwa [UInt8.ofNat_toNat] at read

/-- The digits of the octets. -/
def octetDigits (address : Ipv4) : List (List Char) :=
  [address.first, address.second, address.third, address.fourth].map fun octet =>
    Nat.toDigits 10 octet.toNat

theorem toList_text (address : Ipv4) : address.text.toList = ['.'].intercalate address.octetDigits := by
  simp [text, octetDigits, List.intercalate]
  rfl

theorem isDigit_of_mem_octetDigits {address : Ipv4} {digits : List Char}
    (member : digits ∈ address.octetDigits) {c : Char} (inside : c ∈ digits) :
    c.isDigit = true := by
  obtain ⟨octet, _, rfl⟩ := List.mem_map.mp member
  exact Nat.isDigit_of_mem_toDigits (by decide) (by decide) inside

theorem mem_text {address : Ipv4} {c : Char} (member : c ∈ address.text.toList) :
    c = '.' ∨ c.isDigit = true := by
  rw [toList_text] at member
  rcases mem_intercalate member with same | ⟨digits, digitsMember, inside⟩
  · exact .inl (List.mem_singleton.mp same)
  · exact .inr (isDigit_of_mem_octetDigits digitsMember inside)

/-- The text of an address is read back. -/
theorem parse_text (address : Ipv4) : parse address.text.toList = .ok address := by
  have bare : ∀ digits ∈ address.octetDigits, '.' ∉ digits := by
    intro digits member dot
    cases isDigit_of_mem_octetDigits member dot
  have noSlash : '/' ∉ address.text.toList := by
    intro member
    rcases mem_text member with same | isDigit
    · cases same
    · cases isDigit
  have parts : address.text.toList.splitOn '.' = address.octetDigits := by
    rw [toList_text, List.splitOn_intercalate '.' bare (by simp [octetDigits])]
  have solid : address.text.toList ≠ [] := by
    intro empty
    have lengths := congrArg List.length parts
    simp [empty, octetDigits] at lengths
  rw [parse, if_neg (by simpa using noSlash), parseOctets, if_neg solid, parts]
  simp [octetDigits, octet_toDigits]
  rfl

end Ipv4

/-! ## IPv6 -/

namespace Ipv6

open Text (Hex.isDigit Hex.digitValue? Hex.value)

theorem hexValue_append (digits : List Char) (c : Char) :
    Hex.value (digits ++ [c]) = Hex.value digits * 16 + (Hex.digitValue? c).getD 0 := by
  simp [Text.Hex.value]

theorem digitValue?_digitChar {value : Nat} (small : value < 16) :
    Hex.digitValue? (Nat.digitChar value) = some value := by
  have all : ∀ n : Fin 16, Hex.digitValue? (Nat.digitChar n.val) = some n.val := by decide
  exact all ⟨value, small⟩

/-- Hexadecimal digits are read back. -/
theorem hexValue_groupDigits (value : Nat) :
    (∀ c ∈ groupDigits value, Hex.isDigit c = true) ∧ Hex.value (groupDigits value) = value := by
  induction value using Nat.strongRecOn with
  | ind value ih =>
      have isDigit {digit : Nat} (small : digit < 16) :
          Hex.isDigit (Nat.digitChar digit) = true := by
        rw [Hex.isDigit, digitValue?_digitChar small]
        rfl
      rw [groupDigits, Nat.toDigits_eq_if (by decide)]
      split
      · next small =>
          refine ⟨by simpa using isDigit small, ?_⟩
          rw [← List.nil_append [Nat.digitChar value], hexValue_append, digitValue?_digitChar small]
          simp [Text.Hex.value]
      · next large =>
          obtain ⟨passes, read⟩ := ih (value / 16) (by omega)
          rw [groupDigits] at passes read
          have small : value % 16 < 16 := Nat.mod_lt _ (by decide)
          constructor
          · intro c member
            rcases List.mem_append.mp member with member | member
            · exact passes c member
            · rw [List.mem_singleton.mp member]
              exact isDigit small
          · rw [hexValue_append, digitValue?_digitChar small, read, Option.getD_some]
            omega

theorem group_groupDigits (value : UInt16) : group (groupDigits value.toNat) = .ok value := by
  obtain ⟨passes, read⟩ := hexValue_groupDigits value.toNat
  have short : (groupDigits value.toNat).length ≤ 4 :=
    (Nat.length_toDigits_le_iff (by decide) (by decide)).mpr value.toNat_lt
  have isDigits : (groupDigits value.toNat).all Hex.isDigit = true := List.all_eq_true.mpr passes
  rw [group, if_neg (by simp [isDigits]), if_neg (by omega), read, UInt16.ofNat_toNat]

/-- The digits of the groups. -/
def groupParts (groups : List UInt16) : List (List Char) :=
  groups.map fun group => groupDigits group.toNat

theorem mapM_groupParts (groups : List UInt16) : (groupParts groups).mapM group = .ok groups := by
  induction groups with
  | nil => rfl
  | cons value rest ih =>
      rw [groupParts, List.map_cons, List.mapM_cons, group_groupDigits]
      rw [groupParts] at ih
      rw [ih]
      rfl

theorem isDigit_of_mem_groupParts {groups : List UInt16} {part : List Char}
    (member : part ∈ groupParts groups) {c : Char} (inside : c ∈ part) : Hex.isDigit c = true := by
  obtain ⟨value, _, rfl⟩ := List.mem_map.mp member
  exact (hexValue_groupDigits value.toNat).1 c inside

theorem solid_groupParts {groups : List UInt16} : ∀ part ∈ groupParts groups, part ≠ [] := by
  intro part member
  obtain ⟨value, _, rfl⟩ := List.mem_map.mp member
  exact Nat.toDigits_ne_nil

theorem toList_joinGroups (groups : List UInt16) :
    (joinGroups groups).toList = joinParts (groupParts groups) := by
  rw [joinGroups, String.toList_intercalate, joinParts, groupParts, List.map_map]
  simp [Function.comp_def]

/-! ## The longest run of zero groups -/

theorem foldl_best_cases (runs : List ZeroRun) (best : ZeroRun) :
    let result := runs.foldl (fun best run => if best.length < run.length then run else best) best
    result = best ∨ result ∈ runs := by
  induction runs generalizing best with
  | nil => exact .inl rfl
  | cons run rest ih =>
      rw [List.foldl_cons]
      rcases ih (if best.length < run.length then run else best) with same | member
      · rw [same]
        split
        · exact .inr List.mem_cons_self
        · exact .inl rfl
      · exact .inr (List.mem_cons_of_mem _ member)

/-- The groups stand around the longest run of zero groups, if there is one. -/
theorem groups_around_zeros {groups : List UInt16} (long : 0 < (longestZeroRun groups).length) :
    let run := longestZeroRun groups
    groups = groups.take run.start ++ List.replicate run.length 0 ++
      groups.drop (run.start + run.length) := by
  intro run
  have listed : run ∈ zeroRuns groups := by
    refine (foldl_best_cases (zeroRuns groups) ⟨0, 0⟩).resolve_left ?_
    intro same
    have none : (longestZeroRun groups).length = 0 := congrArg ZeroRun.length same
    omega
  obtain ⟨start, _, standing⟩ := List.mem_map.mp listed
  rw [← standing]
  simp only
  generalize zeros : (groups.drop start).takeWhile (· == 0) = front
  have allZero : front = List.replicate front.length 0 := by
    refine List.eq_replicate_iff.mpr ⟨rfl, ?_⟩
    have passes : front.all (· == 0) = true := zeros ▸ List.all_takeWhile
    simpa using passes
  have divided : groups.drop start = front ++ (groups.drop start).dropWhile (· == 0) := by
    rw [← zeros, List.takeWhile_append_dropWhile]
  have behind : groups.drop (start + front.length) = (groups.drop start).dropWhile (· == 0) := by
    rw [← List.drop_drop, divided, List.drop_left, ← divided]
  rw [behind, ← allZero, List.append_assoc, ← divided, List.take_append_drop]

/-! ## The groups are read back -/

theorem expandTail_of_bare {parts : List (List Char)} (bare : ∀ part ∈ parts, '.' ∉ part) :
    expandTail parts = .ok parts := by
  unfold expandTail
  split
  · rfl
  · next last found =>
      rw [if_neg]
      simpa using bare last (List.mem_of_getLast? found)

/-- The parts of a text are the digits of groups, or empty. -/
theorem isDigit_of_halves {parts : List (List Char)} {highGroups lowGroups : List UInt16}
    (halves : Halves parts (groupParts highGroups) (groupParts lowGroups)) :
    ∀ part ∈ parts, ∀ c ∈ part, Hex.isDigit c = true := by
  intro part member c inside
  rcases halves.mem_cases member with rfl | member | member
  · cases inside
  · exact isDigit_of_mem_groupParts member inside
  · exact isDigit_of_mem_groupParts member inside

theorem parseGroups_joinParts {parts : List (List Char)} {highGroups lowGroups : List UInt16}
    (halves : Halves parts (groupParts highGroups) (groupParts lowGroups))
    (fits : highGroups.length + lowGroups.length ≤ 8) (scope : Option String) :
    parseGroups (joinParts parts) scope = .ok (ofHalves highGroups lowGroups scope fits) := by
  have isDigits := isDigit_of_halves halves
  have noColon : ∀ part ∈ parts, ':' ∉ part :=
    fun part member inside => absurd (isDigits part member ':' inside) (by decide)
  have noDot : ∀ part ∈ parts, '.' ∉ part :=
    fun part member inside => absurd (isDigits part member '.' inside) (by decide)
  obtain ⟨several, few⟩ := halves.length_bounds
  have divided := splitOn_joinParts (List.ne_nil_of_length_pos (by omega)) noColon
  refine parseGroups_eq_ok_iff.mpr ⟨groupParts highGroups, groupParts lowGroups, highGroups,
    lowGroups, fits, ⟨?_, ?_, mapM_groupParts _, mapM_groupParts _⟩, rfl⟩
  · rwa [divided]
  · rw [divided]
    exact ⟨parts, expandTail_of_bare noDot, few, halves⟩

theorem toList_groupsText (groups : List UInt16) :
    let run := longestZeroRun groups
    (groupsText groups).toList =
      if run.length < 2 then joinParts (groupParts groups)
      else joinParts (padded (groupParts (groups.take run.start)) ++
        [] :: padded (groupParts (groups.drop (run.start + run.length)))) := by
  simp only [groupsText]
  split
  · exact toList_joinGroups groups
  · rw [joinParts_divided, String.toList_append, String.toList_append, toList_joinGroups,
      toList_joinGroups, List.append_assoc]
    rfl

/-- The text of the groups has parts that give the groups again. -/
theorem exists_halves_groupsText (address : Ipv6) :
    ∃ parts high low fits, (groupsText address.groups).toList = joinParts parts ∧
      Halves parts (groupParts high) (groupParts low) ∧
        ofHalves high low address.scope fits = address := by
  obtain ⟨groups, scope, eight⟩ := address
  simp only
  rw [toList_groupsText]
  split
  · have length : (groupParts groups).length = 8 := by rw [groupParts, List.length_map, eight]
    refine ⟨groupParts groups, groups, [], by simp [eight], rfl, .whole length solid_groupParts, ?_⟩
    simp [ofHalves, eight]
  · next long =>
      have around := groups_around_zeros (Nat.zero_lt_of_lt (Nat.not_lt.mp long))
      simp only at around
      generalize longestZeroRun groups = run at long around ⊢
      have lengths := congrArg List.length around
      simp only [List.length_append, List.length_replicate] at lengths
      have room : (groupParts (groups.take run.start)).length +
          (groupParts (groups.drop (run.start + run.length))).length ≤ 7 := by
        rw [groupParts, groupParts, List.length_map, List.length_map]
        omega
      refine ⟨_, groups.take run.start, groups.drop (run.start + run.length), by omega, rfl,
        .divided solid_groupParts solid_groupParts room, ?_⟩
      have zeros : 8 - ((groups.take run.start).length +
          (groups.drop (run.start + run.length)).length) = run.length := by
        omega
      simp only [ofHalves, zeros, ← around]

theorem mem_groupsText {address : Ipv6} {c : Char}
    (member : c ∈ (groupsText address.groups).toList) : c = ':' ∨ Hex.isDigit c = true := by
  obtain ⟨parts, high, low, _, standing, halves, _⟩ := exists_halves_groupsText address
  rw [standing, joinParts] at member
  rcases mem_intercalate member with same | ⟨part, partMember, inside⟩
  · exact .inl (List.mem_singleton.mp same)
  · exact .inr (isDigit_of_halves halves part partMember c inside)

theorem not_mem_groupsText {address : Ipv6} {c : Char} (other : c ≠ ':')
    (noDigit : Hex.isDigit c = false) : c ∉ (groupsText address.groups).toList := by
  intro member
  rcases mem_groupsText member with same | isDigit
  · exact other same
  · rw [noDigit] at isDigit
    cases isDigit

theorem toList_text (address : Ipv6) :
    address.text.toList = (groupsText address.groups).toList ++ scopeText address.scope := by
  rw [text, String.toList_append]
  cases address.scope <;> simp [scopeText]

/-- The text of an address is read back, if its scope can be written. -/
theorem parse_text {address : Ipv6} (fits : ScopeFits address.scope) :
    parse address.text.toList = .ok address := by
  refine parse_eq_ok_iff.mpr ⟨_, toList_text address, not_mem_groupsText (by decide) (by decide),
    not_mem_groupsText (by decide) (by decide), fits, ?_⟩
  obtain ⟨parts, high, low, room, standing, halves, same⟩ := exists_halves_groupsText address
  rw [standing, parseGroups_joinParts halves room, same]

end Ipv6

end Unformat
