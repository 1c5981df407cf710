import Unformat.Proofs.Net.Parts
import Unformat.Proofs.Pattern.Address

/-!
# Texts of addresses are matched as a whole

Every text that spells an address without a scope has one of the forms that the default patterns
describe.  None of them is cut short: eight groups do not stand before a gap, since an address has
room for seven groups beside its gap.
-/

namespace Unformat

open Pattern
open Template (exists_of_bind_eq_ok)

/-! ## IPv4 -/

namespace Ipv4

theorem describes_octet {digits : List Char} {value : UInt8} (read : octet digits = .ok value) :
    Describes DefaultPattern.octet digits := by
  unfold octet at read
  split at read
  · cases read
  split at read
  · cases read
  split at read
  · cases read
  next solid isDigits short =>
    refine DefaultPattern.describes_octet_iff.mpr ⟨?_, solid, Nat.not_lt.mp short⟩
    intro c member
    rw [DefaultPattern.holds_digit]
    simp only [Bool.not_eq_true', Bool.not_eq_false, List.all_eq_true] at isDigits
    exact isDigits c member

/-- A text that spells an IPv4 address is a dotted one. -/
theorem describes_dotted {text : List Char} {address : Ipv4} (parsed : parse text = .ok address) :
    Describes DefaultPattern.dotted text := by
  unfold parse at parsed
  split at parsed
  · cases parsed
  unfold parseOctets at parsed
  split at parsed
  · cases parsed
  split at parsed
  · next first second third fourth parts =>
      obtain ⟨_, firstRead, parsed⟩ := exists_of_bind_eq_ok parsed
      obtain ⟨_, secondRead, parsed⟩ := exists_of_bind_eq_ok parsed
      obtain ⟨_, thirdRead, parsed⟩ := exists_of_bind_eq_ok parsed
      obtain ⟨_, fourthRead, _⟩ := exists_of_bind_eq_ok parsed
      have standing : text = first ++ '.' :: (second ++ '.' :: (third ++ ['.'])) ++ fourth := by
        have whole : ['.'].intercalate (text.splitOn '.') = text := List.intercalate_splitOn '.'
        rw [← whole, parts]
        simp [List.intercalate]
      rw [standing]
      refine DefaultPattern.describes_dotted_iff.mpr ⟨_, fourth, rfl, ?_, describes_octet fourthRead⟩
      exact DefaultPattern.describes_octets_iff.mpr ⟨first, second, third, describes_octet firstRead,
        describes_octet secondRead, describes_octet thirdRead, rfl⟩
  · cases parsed

end Ipv4

/-! ## IPv6 -/

namespace Ipv6

open DefaultPattern (Groups Joined links IsDotted Gapless eightGroups gapGroups)

theorem holds_hexDigit (c : Char) : DefaultPattern.hexDigit.holds c = Text.Hex.isDigit c := by
  simp only [DefaultPattern.hexDigit, CharTest.holds, Text.Hex.isDigit, Text.Hex.digitValue?]
  split
  · next range => simp [range]
  split
  · next range => simp [range]
  split
  · next range => simp [range]
  · simp_all

theorem describes_group {part : List Char} {value : UInt16} (solid : part ≠ [])
    (read : group part = .ok value) : Describes DefaultPattern.group part := by
  unfold group at read
  split at read
  · cases read
  split at read
  · cases read
  next isDigits short =>
    refine DefaultPattern.describes_group_iff.mpr ⟨?_, solid, Nat.not_lt.mp short⟩
    intro c member
    rw [holds_hexDigit]
    simp only [Bool.not_eq_true', Bool.not_eq_false, List.all_eq_true] at isDigits
    exact isDigits c member

theorem groups_of_mapM {parts : List (List Char)} {values : List UInt16}
    (solid : ∀ part ∈ parts, part ≠ []) (read : parts.mapM group = .ok values) :
    Groups parts := by
  induction parts generalizing values with
  | nil => simp [Groups]
  | cons part rest ih =>
      rw [List.mapM_cons] at read
      obtain ⟨_, partRead, read⟩ := exists_of_bind_eq_ok read
      obtain ⟨_, restRead, _⟩ := exists_of_bind_eq_ok read
      refine DefaultPattern.groups_cons (describes_group (solid part List.mem_cons_self) partRead) ?_
      exact ih (fun other member => solid other (List.mem_cons_of_mem _ member)) restRead

theorem joinParts_concat (words : List (List Char)) (last : List Char) :
    joinParts (words ++ [last]) = links words ++ last := by
  induction words with
  | nil => simp [joinParts]
  | cons word words ih =>
      rw [List.cons_append, joinParts, List.intercalate_cons_of_ne_nil (by simp),
        DefaultPattern.links_cons, List.append_assoc, List.singleton_append, List.append_assoc,
        List.cons_append, ← ih]
      rfl

theorem joined_joinParts {words : List (List Char)} (areGroups : Groups words) :
    Joined (joinParts words) := by
  rcases List.eq_nil_or_concat' words with rfl | ⟨front, last, rfl⟩
  · exact .inl rfl
  · right
    refine ⟨front, last, areGroups.of_prefix (List.prefix_append _ _), areGroups last (by simp), ?_⟩
    exact joinParts_concat front last

theorem count_colon_front {words : List (List Char)} (areGroups : Groups words) :
    (joinParts words ++ [':']).count ':' ≤ max 1 words.length := by
  rcases List.eq_nil_or_concat' words with rfl | ⟨front, last, rfl⟩
  · simp [joinParts]
  · rw [joinParts_concat, ← DefaultPattern.links_concat, DefaultPattern.count_colon_links areGroups]
    exact Nat.le_max_right _ _

/-- Eight groups do not stand before the gap of an address with seven groups at most. -/
theorem not_begins_eightGroups {high : List (List Char)} {behind : List Char}
    (areGroups : Groups high) (room : high.length ≤ 7) :
    ¬ Begins eightGroups (joinParts high ++ ':' :: ':' :: behind) := by
  rintro ⟨_, described, here⟩
  obtain ⟨words, word, wordsGroups, seven, isGroup, rfl⟩ :=
    DefaultPattern.describes_eightGroups_iff.mp described
  have bare := DefaultPattern.colon_not_mem_group isGroup
  have gapless : Gapless (links words ++ word) :=
    DefaultPattern.gapless_links_append wordsGroups bare
  have colons : (links words ++ word).count ':' = 7 := by
    rw [List.count_append, DefaultPattern.count_colon_links wordsGroups,
      List.count_eq_zero.mpr bare, seven]
  have lastOther : (links words ++ word).getLast? ≠ some ':' := by
    intro last
    obtain ⟨c, rest, rfl, _⟩ := DefaultPattern.exists_of_group isGroup
    rw [List.getLast?_append, List.getLast?_eq_some_getLast (List.cons_ne_nil c rest)] at last
    refine bare ?_
    rw [← Option.some.inj last]
    exact List.getLast_mem _
  have opening : joinParts high ++ ':' :: ':' :: behind =
      (joinParts high ++ [':']) ++ ':' :: behind := by
    simp
  rw [opening] at here
  rcases prefix_append_cases here with inside | ⟨more, moreHere, same⟩
  · have lastColon : (joinParts high ++ [':']).getLast? = some ':' := List.getLast?_concat
    have other : links words ++ word ≠ joinParts high ++ [':'] :=
      fun same => lastOther (same ▸ lastColon)
    have fewer := DefaultPattern.count_lt_of_prefix inside lastColon other
    have bound := count_colon_front areGroups
    omega
  · rcases List.prefix_cons_iff.mp moreHere with rfl | ⟨rest, rfl, _⟩
    · rw [same, List.append_nil, List.getLast?_concat] at lastOther
      exact lastOther rfl
    · refine gapless ⟨joinParts high, rest, ?_⟩
      rw [same]
      simp

/-! ## The forms of accepted texts -/

/-- The last part is dotted and gives two groups, or all parts stay. -/
theorem expandTail_cases {parts expanded : List (List Char)}
    (made : expandTail parts = .ok expanded) :
    expanded = parts ∨ ∃ front tail address first second, parts = front ++ [tail] ∧
      Ipv4.parse tail = .ok address ∧ expanded = front ++ [first, second] ∧ first ≠ [] ∧
        second ≠ [] := by
  unfold expandTail at made
  split at made
  · exact .inl (Except.ok.inj made).symm
  next tail last =>
    split at made
    · split at made
      · cases made
      next address parsed =>
        obtain ⟨front, rfl⟩ := List.getLast?_eq_some_iff.mp last
        rw [List.dropLast_concat] at made
        exact .inr ⟨front, tail, address, _, _, rfl, parsed, (Except.ok.inj made).symm,
          Nat.toDigits_ne_nil, Nat.toDigits_ne_nil⟩
    · exact .inl (Except.ok.inj made).symm

variable {text : List Char} {high low : List (List Char)} {highGroups lowGroups : List UInt16}

/-- Parts of groups only are eight groups, or groups with a gap. -/
theorem describes_of_plain {parts : List (List Char)} (halves : Halves parts high low)
    (highAre : Groups high) (lowAre : Groups low) :
    Describes eightGroups (joinParts parts) ∨
      Describes gapGroups (joinParts parts) ∧ ¬ Begins eightGroups (joinParts parts) := by
  cases halves with
  | whole eight solid =>
      left
      obtain ⟨front, last, rfl⟩ := (List.eq_nil_or_concat' high).resolve_left (by
        rintro rfl
        cases eight)
      rw [joinParts_concat]
      exact DefaultPattern.describes_eightGroups_iff.mpr ⟨front, last,
        highAre.of_prefix (List.prefix_append _ _), by simpa using eight, highAre last (by simp), rfl⟩
  | divided highSolid lowSolid room =>
      right
      rw [joinParts_divided]
      refine ⟨?_, not_begins_eightGroups highAre (by omega)⟩
      exact DefaultPattern.describes_gapGroups_iff.mpr
        ⟨_, _, joined_joinParts highAre, joined_joinParts lowAre, rfl⟩

theorem links_padded (side : List (List Char)) : links (padded side) = joinParts side ++ [':'] := by
  rcases List.eq_nil_or_concat' side with rfl | ⟨front, last, rfl⟩
  · rfl
  · rw [padded_of_ne_nil (by simp), DefaultPattern.links_concat, joinParts_concat]

/-- Parts with two groups in place of a dotted tail are six groups, or groups with a gap, before
that tail. -/
theorem isDotted_of_tail {front : List (List Char)} {tail first second : List Char}
    (halves : Halves (front ++ [first, second]) high low) (firstSolid : first ≠ [])
    (secondSolid : second ≠ []) (highAre : Groups high) (lowAre : Groups low)
    (dotted : Describes DefaultPattern.dotted tail) (bare : Bool) :
    IsDotted bare (joinParts (front ++ [tail])) := by
  obtain ⟨stem, last, rfl, isStem, isLast⟩ := DefaultPattern.describes_dotted_iff.mp dotted
  rw [joinParts_concat]
  generalize parted : front ++ [first, second] = parts at halves
  cases halves with
  | whole eight solid =>
      subst parted
      refine .mk (.six (highAre.of_prefix (List.prefix_append _ _)) ?_) isStem isLast
      simpa using eight
  | divided highSolid lowSolid room =>
      rcases List.append_eq_append_iff.mp parted with ⟨more, _, same⟩ | ⟨more, rfl, same⟩
      · have empty : [] ∈ [first, second] := same ▸ by simp
        simp [Ne.symm firstSolid, Ne.symm secondSolid] at empty
      rcases List.cons_eq_append_iff.mp same with ⟨rfl, groups⟩ | ⟨rest, rfl, behind⟩
      · exact absurd (List.cons.inj groups).1 firstSolid
      have lowStands : low = rest ++ [first, second] := by
        rw [← behind, padded_of_ne_nil]
        rintro rfl
        have lengths := congrArg List.length behind
        simp [padded] at lengths
      have restAre : Groups rest := lowAre.of_prefix (lowStands ▸ List.prefix_append _ _)
      have standing : links (padded high ++ [] :: rest) =
          joinParts high ++ ':' :: ':' :: links rest := by
        rw [links, List.flatMap_append, ← links, links_padded, ← links, DefaultPattern.links_cons]
        simp
      rw [standing]
      exact .mk (.gap (joined_joinParts highAre) restAre) isStem isLast

theorem colon_mem_of_parse {address : Ipv6} (parsed : parse text = .ok address) : ':' ∈ text := by
  obtain ⟨front, rfl, _, _, _, groups⟩ := parse_eq_ok_iff.mp parsed
  obtain ⟨_, _, _, _, _, gives, _⟩ := parseGroups_eq_ok_iff.mp groups
  have several := gives.several
  apply List.mem_append_left
  by_contra bare
  rw [List.splitOn_eq_singleton bare] at several
  simp at several

/-- A text that spells an IPv6 address without a scope has one of the forms that the default
patterns match as a whole. -/
theorem matchesAll_of_parse {address : Ipv6} (parsed : parse text = .ok address)
    (noScope : address.scope = none) (bare : Bool) :
    MatchesAll (DefaultPattern.addressForms bare) text := by
  have groups := parseGroups_of_parse parsed noScope
  obtain ⟨high, low, highGroups, lowGroups, _, gives, _⟩ := parseGroups_eq_ok_iff.mp groups
  obtain ⟨parts, expanded, _, halves⟩ := gives.parted
  obtain ⟨highSolid, lowSolid⟩ := halves.solid
  have highAre := groups_of_mapM highSolid gives.high
  have lowAre := groups_of_mapM lowSolid gives.low
  rw [DefaultPattern.matchesAll_addressForms_iff, ← joinParts_splitOn text]
  rcases expandTail_cases expanded with rfl | ⟨front, tail, tailAddress, first, second, stands,
    tailParsed, rfl, firstSolid, secondSolid⟩
  · exact .inr (describes_of_plain halves highAre lowAre)
  · left
    rw [stands]
    exact isDotted_of_tail halves firstSolid secondSolid highAre lowAre
      (Ipv4.describes_dotted tailParsed) bare

end Ipv6

end Unformat
