import Unformat.Proofs.Text.Quoted

/-!
# Malformed literals

The inside of a quoted literal stands for a text unless it comes to an escape that is malformed, or
to a character that cannot stand unescaped.
-/

namespace Unformat.Text.Quoted

variable [CharacterTable]

/-- The inside of a literal comes, behind escapes and characters that are well formed, to an escape
that is malformed or to a character that cannot stand unescaped. -/
inductive Malformed : List Char → Prop where
  | escape {text : List Char} (bad : escaped? text = none) : Malformed ('\\' :: text)
  | character {c : Char} {rest : List Char} (breaks : breaksLiteral c = true) :
      Malformed (c :: rest)
  | behindEscape {text characters rest : List Char}
      (escapes : escaped? text = some (characters, rest)) (later : Malformed rest) :
      Malformed ('\\' :: text)
  | behindCharacter {c : Char} {rest : List Char} (ordinary : c ≠ '\\') (later : Malformed rest) :
      Malformed (c :: rest)

theorem malformed_escape_iff {text characters rest : List Char}
    (escapes : escaped? text = some (characters, rest)) :
    Malformed ('\\' :: text) ↔ Malformed rest := by
  refine ⟨fun malformed => ?_, .behindEscape escapes⟩
  cases malformed with
  | escape bad => rw [escapes] at bad; cases bad
  | character breaks => exact absurd breaks (by decide)
  | behindEscape again later =>
      rw [escapes] at again
      cases again
      exact later
  | behindCharacter ordinary later => exact absurd rfl ordinary

theorem malformed_character_iff {c : Char} (ordinary : c ≠ '\\') (rest : List Char) :
    Malformed (c :: rest) ↔ breaksLiteral c = true ∨ Malformed rest := by
  constructor
  · intro malformed
    cases malformed with
    | escape bad => exact absurd rfl ordinary
    | character breaks => exact .inl breaks
    | behindEscape escapes later => exact absurd rfl ordinary
    | behindCharacter _ later => exact .inr later
  · rintro (breaks | later)
    · exact .character breaks
    · exact .behindCharacter ordinary later

/-! ## Steps that are enough -/

theorem length_numericCharacter?_le {width : Nat} {text rest : List Char} {c : Char}
    (read : numericCharacter? width text = some (c, rest)) : rest.length ≤ text.length := by
  unfold numericCharacter? at read
  dsimp only at read
  split at read
  · cases read
    rw [List.length_drop]
    exact Nat.sub_le _ _
  · cases read

theorem length_namedCharacter?_le {text rest : List Char} {c : Char}
    (read : namedCharacter? text = some (c, rest)) : rest.length ≤ text.length := by
  unfold namedCharacter? at read
  split at read
  · dsimp only at read
    split at read
    · next text _ left behind =>
        obtain ⟨_, _, same⟩ := Option.map_eq_some_iff.mp read
        cases same
        have shorter := congrArg List.length behind
        rw [List.length_drop, List.length_cons] at shorter
        rw [List.length_cons]
        omega
    · cases read
  · cases read

/-- An escape leaves no more than there was. -/
theorem length_escaped?_le {text characters rest : List Char}
    (read : escaped? text = some (characters, rest)) : rest.length ≤ text.length := by
  unfold escaped? at read
  split at read
  case h_1 => cases read
  case h_15 | h_16 | h_17 =>
    obtain ⟨⟨c, left⟩, found, same⟩ := Option.map_eq_some_iff.mp read
    cases same
    exact Nat.le_succ_of_le (length_numericCharacter?_le found)
  case h_18 =>
    obtain ⟨⟨c, left⟩, found, same⟩ := Option.map_eq_some_iff.mp read
    cases same
    exact Nat.le_succ_of_le (length_namedCharacter?_le found)
  case h_19 =>
    split at read
    · cases read
      rw [List.length_drop]
      exact Nat.sub_le _ _
    · split at read
      · cases read
      · cases read
        exact Nat.le_succ _
  -- The others take the characters in front, one or two.
  all_goals
    cases read
    simp only [List.length_cons]
    omega

/-- So many steps are enough to come to what is malformed. -/
theorem unescapeWithin_eq_none_iff {steps : Nat} {inside : List Char}
    (enough : inside.length ≤ steps) : unescapeWithin steps inside = none ↔ Malformed inside := by
  induction steps generalizing inside with
  | zero =>
      obtain rfl := List.length_eq_zero_iff.mp (Nat.le_zero.mp enough)
      exact ⟨nofun, nofun⟩
  | succ steps ih =>
      cases inside with
      | nil => exact ⟨nofun, nofun⟩
      | cons c rest =>
          have within : rest.length ≤ steps := Nat.le_of_succ_le_succ enough
          by_cases escapes : c = '\\'
          · subst escapes
            rw [unescapeWithin]
            cases read : escaped? rest with
            | none => exact ⟨fun _ => .escape read, fun _ => rfl⟩
            | some found =>
                obtain ⟨characters, left⟩ := found
                rw [malformed_escape_iff read,
                  ← ih (Nat.le_trans (length_escaped?_le read) within)]
                cases result : unescapeWithin steps left <;> simp [result]
          · have ordinary : unescapeWithin (steps + 1) (c :: rest) =
                if breaksLiteral c then none else (unescapeWithin steps rest).map (c :: ·) :=
              unescapeWithin.eq_4 steps c rest escapes
            rw [malformed_character_iff escapes, ordinary, ← ih within]
            cases breaksLiteral c <;> simp

theorem unescape?_eq_none_iff (inside : List Char) :
    unescape? inside = none ↔ Malformed inside :=
  unescapeWithin_eq_none_iff (Nat.le_refl _)

end Unformat.Text.Quoted
