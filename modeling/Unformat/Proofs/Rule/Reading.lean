import Unformat.Proofs.Rule.Grammar

/-!
# Rule lists are read by their grammar

Each taker is tied to its part of the grammar twice.  It takes only what the part derives, and it
takes what the part derives when the entry has ended behind it.  So a text derives from items
exactly when it is read without anything left over, and it is read as the entries of its items.
-/

namespace Unformat

open Template (IsIdentifier Stops stops_cons stops_dropWhile isIdentStart isIdentChar
  isIdentChar_of_isIdentStart takeWhile_run dropWhile_run)
open Text (isBlank)
open Text.Quoted (IsMark)

namespace ListText

/-! ## Words and paths -/

theorem ident?_append {word behind : List Char} (isIdentifier : IsIdentifier word)
    (stops : Stops isIdentChar behind) : ident? (word ++ behind) = some (word, behind) := by
  have starts : (word ++ behind).head?.any isIdentStart = true := by
    cases word with
    | nil => exact isIdentifier.elim
    | cons first others => simpa using isIdentifier.1
  rw [ident?, if_pos starts, takeWhile_run isIdentifier.isIdentChar stops,
    dropWhile_run isIdentifier.isIdentChar stops]

theorem exists_word_of_ident? {text word rest : List Char}
    (taken : ident? text = some (word, rest)) :
    IsIdentifier word ∧ text = word ++ rest ∧ Stops isIdentChar rest := by
  unfold ident? at taken
  split at taken
  · next starts =>
      cases taken
      refine ⟨?_, List.takeWhile_append_dropWhile.symm, stops_dropWhile isIdentChar text⟩
      cases text with
      | nil => cases starts
      | cons c text =>
          have start : isIdentStart c = true := by simpa using starts
          rw [List.takeWhile_cons_of_pos (isIdentChar_of_isIdentStart start)]
          exact ⟨start, fun d member => List.mem_takeWhile_imp member⟩
  · cases taken

theorem pathEnd_append (words : List Word) {behind : List Char} (ends : Ends behind)
    (last : Word) :
    pathEnd last.1 (Path.segments words ++ behind) = ((words.getLastD last).1, behind) := by
  induction words generalizing last with
  | nil =>
      rw [Path.segments, List.flatMap_nil, List.nil_append, pathEnd]
      · rfl
      · exact fun after => ends.head_ne (by decide) (by decide) (':' :: after)
  | cons word words ih =>
      have step : Path.segments (word :: words) ++ behind =
          ':' :: ':' :: (word.1 ++ (Path.segments words ++ behind)) := by
        simp [Path.segments]
      rw [step, pathEnd, ident?_append word.2 (ends.stops_segments _)]
      simp only [ih word]
      rw [List.getLastD_cons]

theorem exists_words_of_pathEnd {last : List Char} (isIdentifier : IsIdentifier last)
    (text : List Char) :
    ∃ words : List Word, text = Path.segments words ++ (pathEnd last text).2 ∧
      (pathEnd last text).1 = (words.getLastD ⟨last, isIdentifier⟩).1 := by
  fun_induction pathEnd last text with
  | case1 last after word rest found ih =>
      obtain ⟨isWord, split, _⟩ := exists_word_of_ident? found
      obtain ⟨words, behind, ends⟩ := ih isWord
      refine ⟨⟨word, isWord⟩ :: words, ?_, ?_⟩
      · rw [split]
        simpa [Path.segments] using behind
      · rw [ends, List.getLastD_cons]
  | case2 last after found => exact ⟨[], rfl, rfl⟩
  | case3 last text noPath => exact ⟨[], rfl, rfl⟩

theorem type?_append (path : Path) {behind : List Char} (ends : Ends behind) :
    type? (path.text ++ behind) = some (path.name, behind) := by
  rw [type?, Path.text, List.append_assoc, ident?_append path.first.2 (ends.stops_segments _),
    Option.map_some]
  simp only [pathEnd_append path.others ends]
  rfl

theorem exists_path_of_type? {text rest : List Char} {name : String}
    (taken : type? text = some (name, rest)) :
    ∃ path : Path, text = path.text ++ rest ∧ name = path.name := by
  obtain ⟨⟨word, behind⟩, found, same⟩ := Option.map_eq_some_iff.mp taken
  cases same
  obtain ⟨isWord, split, _⟩ := exists_word_of_ident? found
  obtain ⟨words, others, last⟩ := exists_words_of_pathEnd isWord behind
  refine ⟨⟨⟨word, isWord⟩, words⟩, ?_, ?_⟩
  · rw [Path.text, List.append_assoc, ← others, split]
  · rw [Path.name, last]
    rfl

/-! ## Literals -/

theorem quotedInside?_backslash (mark : Char) {c : Char} (sameLine : c ≠ '\n') (rest : List Char) :
    quotedInside? mark ('\\' :: c :: rest) =
      (quotedInside? mark rest).map fun (inside, left) => ('\\' :: c :: inside, left) :=
  quotedInside?.eq_3 mark c rest sameLine

theorem quotedInside?_cons {mark c : Char} (notMark : c ≠ mark) (notBackslash : c ≠ '\\')
    (rest : List Char) :
    quotedInside? mark (c :: rest) =
      (quotedInside? mark rest).map fun (inside, left) => (c :: inside, left) := by
  rw [quotedInside?, if_neg notMark]
  all_goals simp [notBackslash]

theorem quotedInside?_mark {mark : Char} (isMark : IsMark mark) (rest : List Char) :
    quotedInside? mark (mark :: rest) = some ([], rest) := by
  rcases isMark with rfl | rfl <;> simp [quotedInside?]

/-- A quoted literal ends at its mark and not before. -/
theorem quotedInside?_append {mark : Char} (isMark : IsMark mark) {inside : List Char}
    (within : Inside mark inside) (behind : List Char) :
    quotedInside? mark (inside ++ mark :: behind) = some (inside, behind) := by
  induction within with
  | nil => exact quotedInside?_mark isMark behind
  | plain notMark notBackslash _ ih =>
      rw [List.cons_append, quotedInside?_cons notMark notBackslash, ih]
      rfl
  | escape sameLine _ ih =>
      rw [List.cons_append, List.cons_append, quotedInside?_backslash mark sameLine, ih]
      rfl

theorem inside_of_quotedInside? {mark : Char} {text inside rest : List Char}
    (taken : quotedInside? mark text = some (inside, rest)) :
    Inside mark inside ∧ text = inside ++ mark :: rest := by
  fun_induction quotedInside? mark text generalizing inside rest with
  | case1 => cases taken
  | case2 => cases taken
  | case3 c text sameLine ih =>
      obtain ⟨⟨later, left⟩, found, same⟩ := Option.map_eq_some_iff.mp taken
      cases same
      obtain ⟨within, split⟩ := ih found
      exact ⟨.escape sameLine within, by rw [split]; rfl⟩
  | case4 text =>
      cases taken
      exact ⟨.nil, rfl⟩
  | case5 c text _ notEscape notMark ih =>
      obtain ⟨⟨later, left⟩, found, same⟩ := Option.map_eq_some_iff.mp taken
      cases same
      obtain ⟨within, split⟩ := ih found
      refine ⟨.plain notMark ?_ within, by rw [split]; rfl⟩
      rintro rfl
      have solid : text ≠ [] := by simp [split]
      obtain ⟨next, more, whole⟩ := List.exists_cons_of_ne_nil solid
      exact notEscape next more rfl whole

theorem rawInside?_append {mark : Char} {text : List Char} (within : mark ∉ text)
    (behind : List Char) : rawInside? mark (text ++ mark :: behind) = some (text, behind) := by
  have inside : ∀ c ∈ text, (c != mark) = true := by
    intro c member
    exact bne_iff_ne.mpr fun same => within (same ▸ member)
  have stops : Stops (· != mark) (mark :: behind) := stops_cons.mpr (by simp)
  rw [rawInside?, dropWhile_run inside stops, takeWhile_run inside stops]

theorem within_of_rawInside? {mark : Char} {text inside rest : List Char}
    (taken : rawInside? mark text = some (inside, rest)) :
    mark ∉ inside ∧ text = inside ++ mark :: rest := by
  unfold rawInside? at taken
  split at taken
  · next c behind left =>
      cases taken
      have stopped : (c != mark) = false :=
        stops_dropWhile (· != mark) text c (by rw [left]; rfl)
      have same : c = mark := by simpa using stopped
      have onward : text.dropWhile (· != mark) = mark :: rest := by rw [left, same]
      refine ⟨?_, ?_⟩
      · intro member
        simpa using List.mem_takeWhile_imp member
      · rw [← onward, List.takeWhile_append_dropWhile]
  · cases taken

theorem literal?_quoted {mark : Char} (isMark : IsMark mark) {text : List Char}
    (solid : text ≠ []) :
    literal? (mark :: text) =
      (quotedInside? mark text).map fun (inside, left) => (.quoted inside, left) := by
  obtain ⟨second, inside, rfl⟩ := List.exists_cons_of_ne_nil solid
  rcases isMark with rfl | rfl <;> simp [literal?]

theorem literal?_append (literal : Marked) (behind : List Char) :
    literal? (literal.text ++ behind) = some (literal.literal, behind) := by
  cases literal with
  | raw letter mark text isLetter isMark within =>
      have begins : (letter = 'r' ∨ letter = 'R') ∧ (mark = '"' ∨ mark = '\'') :=
        ⟨isLetter, isMark.symm⟩
      have whole : (Marked.raw letter mark text isLetter isMark within).text ++ behind =
          letter :: mark :: (text ++ mark :: behind) := by
        simp [Marked.text]
      rw [whole, literal?, if_pos begins, rawInside?_append within]
      rfl
  | quoted mark inside isMark within =>
      have whole : (Marked.quoted mark inside isMark within).text ++ behind =
          mark :: (inside ++ mark :: behind) := by
        simp [Marked.text]
      rw [whole, literal?_quoted isMark (by simp), quotedInside?_append isMark within]
      rfl

theorem exists_marked_of_literal? {text rest : List Char} {literal : Literal}
    (taken : literal? text = some (literal, rest)) :
    ∃ marked : Marked, text = marked.text ++ rest ∧ literal = marked.literal := by
  unfold literal? at taken
  split at taken
  · next letter mark inside =>
      split at taken
      · next begins =>
          obtain ⟨⟨raw, left⟩, found, same⟩ := Option.map_eq_some_iff.mp taken
          cases same
          obtain ⟨within, split⟩ := within_of_rawInside? found
          refine ⟨.raw letter mark raw begins.1 begins.2.symm within, ?_, rfl⟩
          simp [Marked.text, split]
      · split at taken
        · next isMark =>
            obtain ⟨⟨quoted, left⟩, found, same⟩ := Option.map_eq_some_iff.mp taken
            cases same
            obtain ⟨within, split⟩ := inside_of_quotedInside? found
            refine ⟨.quoted letter quoted isMark.symm within, ?_, rfl⟩
            simp [Marked.text, split]
        · cases taken
  · cases taken

/-! ## Bodies -/

theorem asType?_append (path : Path) {before between behind : List Char} (blank : Blank before)
    (gap : Blank between) (apart : between ≠ []) (ends : Ends behind) :
    asType? (before ++ 'a' :: 's' :: (between ++ (path.text ++ behind))) =
      some (path.name, behind) := by
  obtain ⟨c, more, rfl⟩ := List.exists_cons_of_ne_nil apart
  have first : isBlank c = true := gap c List.mem_cons_self
  have others : Blank more := fun d member => gap d (List.mem_cons_of_mem c member)
  have word : skipBlanks (path.text ++ behind) = path.text ++ behind :=
    skipBlanks_of_stops (stops_isBlank_path path behind)
  have clause : skipBlanks ('a' :: 's' :: (c :: more ++ (path.text ++ behind))) =
      'a' :: 's' :: c :: (more ++ (path.text ++ behind)) := skipBlanks_cons (by decide) _
  rw [asType?, skipBlanks_append blank, clause]
  simp only [first, if_true, skipBlanks_append others, word, type?_append path ends]

theorem asType?_of_ends {behind : List Char} (ends : Ends behind) : asType? behind = none := by
  rcases ends with nothing | ⟨more, comma⟩
  · simp [asType?, nothing]
  · simp [asType?, comma]

theorem exists_path_of_asType? {text rest : List Char} {name : String}
    (taken : asType? text = some (name, rest)) :
    ∃ (path : Path) (before between : List Char), Blank before ∧ Blank between ∧ between ≠ [] ∧
      text = before ++ 'a' :: 's' :: (between ++ (path.text ++ rest)) ∧ name = path.name := by
  obtain ⟨before, blank, split⟩ := exists_blank_append text
  unfold asType? at taken
  split at taken
  · next c behind clause =>
      split at taken
      · next first =>
          obtain ⟨more, gap, splitBehind⟩ := exists_blank_append behind
          obtain ⟨path, standing, named⟩ := exists_path_of_type? taken
          refine ⟨path, before, c :: more, blank, List.forall_mem_cons.mpr ⟨first, gap⟩, by simp,
            ?_, named⟩
          rw [split, clause, splitBehind, standing]
          simp
      · cases taken
  · cases taken

/-- A word is no literal, even when it begins with the letter of a raw one. -/
theorem literal?_eq_none {word : Word} {behind : List Char}
    (notMark : ∀ c ∈ behind.head?, ¬ IsMark c) : literal? (word.1 ++ behind) = none := by
  obtain ⟨_ | ⟨first, others⟩, isIdentifier⟩ := word
  · exact isIdentifier.elim
  · have firstPlain := not_isMark_of_isIdentChar (isIdentifier.isIdentChar first List.mem_cons_self)
    have notQuoted : ¬ (first = '"' ∨ first = '\'') := fun quoted => firstPlain quoted.symm
    cases standing : others ++ behind with
    | nil => simp [literal?, standing]
    | cons second inside =>
        have secondPlain : ¬ IsMark second := by
          cases others with
          | nil =>
              rw [List.nil_append] at standing
              exact notMark second (by rw [standing]; rfl)
          | cons other more =>
              cases standing
              exact not_isMark_of_isIdentChar (isIdentifier.2 second List.mem_cons_self)
        have notRaw : ¬ ((first = 'r' ∨ first = 'R') ∧ (second = '"' ∨ second = '\'')) :=
          fun raw => secondPlain raw.2.symm
        rw [List.cons_append, standing, literal?, if_neg notRaw, if_neg notQuoted]

theorem body?_append {body : ItemBody} {text behind : List Char} (spells : body.Spells text)
    (ends : Ends behind) : body? (text ++ behind) = some (body.states, behind) := by
  cases spells with
  | type path =>
      have plain : literal? (path.text ++ behind) = none := by
        rw [Path.text, List.append_assoc]
        exact literal?_eq_none (ends.not_isMark_segments path.others)
      rw [body?, plain]
      simp only [type?_append path ends, Option.map_some]
      rfl
  | pattern literal =>
      rw [body?, literal?_append]
      simp only [asType?_of_ends ends]
      rfl
  | typed literal path blank gap apart =>
      rw [List.append_assoc, body?, literal?_append]
      simp only [List.append_assoc, List.cons_append, asType?_append path blank gap apart ends]
      rfl

theorem exists_body_of_body? {text rest : List Char} {body : Body}
    (taken : body? text = some (body, rest)) :
    ∃ (item : ItemBody) (spelled : List Char), item.Spells spelled ∧ text = spelled ++ rest ∧
      body = item.states := by
  unfold body? at taken
  split at taken
  · next literal behind found =>
      obtain ⟨marked, standing, rfl⟩ := exists_marked_of_literal? found
      split at taken
      · next name left clause =>
          cases taken
          obtain ⟨path, before, between, blank, gap, apart, split, rfl⟩ :=
            exists_path_of_asType? clause
          refine ⟨_, _, .typed marked path blank gap apart, ?_, rfl⟩
          rw [standing, split]
          simp
      · cases taken
        exact ⟨_, _, .pattern marked, standing, rfl⟩
  · obtain ⟨⟨name, left⟩, found, same⟩ := Option.map_eq_some_iff.mp taken
    cases same
    obtain ⟨path, standing, rfl⟩ := exists_path_of_type? found
    exact ⟨_, _, .type path, standing, rfl⟩

/-! ## Entries -/

theorem name?_append (word : Word) {before behind text : List Char} (blank : Blank before)
    (gap : Blank behind) (solid : Stops isBlank text) :
    name? (word.1 ++ (before ++ '=' :: (behind ++ text))) = some (String.ofList word.1, text) := by
  have sign : skipBlanks ('=' :: (behind ++ text)) = '=' :: (behind ++ text) :=
    skipBlanks_cons (by decide) _
  have wordEnds : Stops isIdentChar (before ++ '=' :: (behind ++ text)) := by
    cases before with
    | nil => exact stops_cons.mpr (by decide)
    | cons c before =>
        refine stops_cons.mpr ?_
        by_contra inside
        have solidBlank := isBlank_of_isIdentChar (by simpa using inside)
        rw [blank c List.mem_cons_self] at solidBlank
        cases solidBlank
  rw [name?, ident?_append word.2 wordEnds]
  simp only [Option.bind_eq_bind, Option.bind_some, skipBlanks_append blank, sign,
    skipBlanks_append gap, skipBlanks_of_stops solid]

theorem name?_path_eq_none (path : Path) {behind : List Char} (ends : Ends behind) :
    name? (path.text ++ behind) = none := by
  rw [name?, Path.text, List.append_assoc, ident?_append path.first.2 (ends.stops_segments _)]
  simp only [Option.bind_eq_bind, Option.bind_some]
  cases path.others with
  | nil =>
      rcases ends with nothing | ⟨more, comma⟩
      · simp [Path.segments, nothing]
      · simp [Path.segments, comma]
  | cons word words =>
      have colons : skipBlanks (Path.segments (word :: words) ++ behind) =
          Path.segments (word :: words) ++ behind :=
        skipBlanks_cons (by decide) _
      rw [colons]
      rfl

theorem name?_literal_eq_none (literal : Marked) (behind : List Char) :
    name? (literal.text ++ behind) = none := by
  cases literal with
  | raw letter mark text isLetter isMark within =>
      rcases isLetter with rfl | rfl <;> rcases isMark with rfl | rfl <;> rfl
  | quoted mark inside isMark within =>
      rcases isMark with rfl | rfl <;> rfl

/-- No equals sign follows the first word of a body, so that it is not taken for a name. -/
theorem name?_eq_none {body : ItemBody} {text behind : List Char} (spells : body.Spells text)
    (ends : Ends behind) : name? (text ++ behind) = none := by
  cases spells with
  | type path => exact name?_path_eq_none path ends
  | pattern literal => exact name?_literal_eq_none literal behind
  | typed literal path _ _ _ =>
      rw [List.append_assoc]
      exact name?_literal_eq_none literal _

theorem exists_name_of_name? {text rest : List Char} {name : String}
    (taken : name? text = some (name, rest)) :
    ∃ (word : Word) (before behind : List Char), Blank before ∧ Blank behind ∧
      text = word.1 ++ (before ++ '=' :: (behind ++ rest)) ∧ name = String.ofList word.1 := by
  obtain ⟨⟨word, left⟩, found, more⟩ := Option.bind_eq_some_iff.mp taken
  obtain ⟨isWord, split, _⟩ := exists_word_of_ident? found
  obtain ⟨before, blank, splitLeft⟩ := exists_blank_append left
  simp only at more
  split at more
  · next text sign =>
      cases more
      obtain ⟨behind, gap, splitText⟩ := exists_blank_append text
      refine ⟨⟨word, isWord⟩, before, behind, blank, gap, ?_, rfl⟩
      rw [split, splitLeft, sign, ← splitText]
  · cases more

theorem entry?_append {item : Item} {text behind : List Char} (spells : item.Spells text)
    (ends : Ends behind) : entry? (text ++ behind) = some (item.entry, behind) := by
  cases spells with
  | positional spells =>
      unfold entry?
      rw [name?_eq_none spells ends]
      simp only [body?_append spells ends, Option.map_some]
      rfl
  | named word blank gap spells =>
      simp only [List.append_assoc, List.cons_append]
      unfold entry?
      rw [name?_append word blank gap (spells.stops_isBlank behind)]
      simp only [body?_append spells ends, Option.map_some]
      rfl

theorem exists_item_of_entry? {text rest : List Char} {entry : Entry}
    (taken : entry? text = some (entry, rest)) :
    ∃ (item : Item) (spelled : List Char), item.Spells spelled ∧ text = spelled ++ rest ∧
      entry = item.entry := by
  unfold entry? at taken
  split at taken
  · next name left found =>
      obtain ⟨⟨body, behind⟩, bodyFound, same⟩ := Option.map_eq_some_iff.mp taken
      cases same
      obtain ⟨word, before, between, blank, gap, split, rfl⟩ := exists_name_of_name? found
      obtain ⟨item, spelled, spells, splitLeft, rfl⟩ := exists_body_of_body? bodyFound
      refine ⟨_, _, .named word blank gap spells, ?_, rfl⟩
      rw [split, splitLeft]
      simp
  · obtain ⟨⟨body, behind⟩, bodyFound, same⟩ := Option.map_eq_some_iff.mp taken
    cases same
    obtain ⟨item, spelled, spells, split, rfl⟩ := exists_body_of_body? bodyFound
    exact ⟨_, _, .positional spells, split, rfl⟩

/-! ## Lists of entries -/

theorem nextEntry?_append {item : Item} {before behind text rest : List Char}
    (blank : Blank before) (gap : Blank behind) (spells : item.Spells text) (ends : Ends rest) :
    nextEntry? (before ++ ',' :: (behind ++ (text ++ rest))) = some (item.entry, rest) := by
  unfold nextEntry?
  rw [skipBlanks_comma blank]
  simp only [skipBlanks_append gap, skipBlanks_of_stops (spells.stops_isBlank rest),
    entry?_append spells ends]

/-- Behind the last entry comes a comma perhaps, and nothing else. -/
theorem nextEntry?_closing {comma : Bool} {closing behind : List Char}
    (closes : SpellsComma comma closing) (gap : Blank behind) :
    nextEntry? (closing ++ behind) = none := by
  cases closes with
  | absent => simp [skipBlanks_of_blank gap, nextEntry?]
  | present blank =>
      rw [List.append_assoc, List.singleton_append, nextEntry?, skipBlanks_comma blank]
      simp only [skipBlanks_of_blank gap]
      rfl

theorem ends_closing {comma : Bool} {closing behind : List Char}
    (closes : SpellsComma comma closing) (gap : Blank behind) : Ends (closing ++ behind) := by
  cases closes with
  | absent => exact .inl (skipBlanks_of_blank gap)
  | present blank =>
      rw [List.append_assoc, Ends, skipBlanks_append blank]
      exact ends_cons behind

theorem SpellsMore.ends {items : List Item} {more rest : List Char}
    (spells : SpellsMore items more) (ends : Ends rest) : Ends (more ++ rest) := by
  cases spells with
  | nil => exact ends
  | cons blank _ _ _ =>
      rw [List.append_assoc, Ends, skipBlanks_append blank]
      exact ends_cons _

theorem moreEntries_append {items : List Item} {more rest : List Char}
    (spells : SpellsMore items more) (ends : Ends rest) (last : nextEntry? rest = none) :
    moreEntries (more ++ rest) = (items.map Item.entry, rest) := by
  induction spells with
  | nil =>
      rw [List.nil_append, moreEntries, last]
      rfl
  | @cons item items before behind text more blank gap spells later ih =>
      have whole : before ++ ',' :: (behind ++ (text ++ more)) ++ rest =
          before ++ ',' :: (behind ++ (text ++ (more ++ rest))) := by
        simp
      have shorter : (more ++ rest).length <
          (before ++ ',' :: (behind ++ (text ++ (more ++ rest)))).length := by
        simp only [List.length_append, List.length_cons]
        omega
      rw [whole, moreEntries, nextEntry?_append blank gap spells (later.ends ends)]
      simp only [if_pos shorter, ih, List.map_cons]

theorem skipBlanks_skipComma_closing {comma : Bool} {closing behind : List Char}
    (closes : SpellsComma comma closing) (gap : Blank behind) :
    skipBlanks (skipComma (closing ++ behind)) = [] := by
  cases closes with
  | absent => simp [skipComma, skipBlanks_of_blank gap]
  | present blank =>
      rw [List.append_assoc, List.singleton_append, skipComma, skipBlanks_comma blank]
      exact skipBlanks_of_blank gap

/-- A text that derives from items is read as their entries, and nothing is left over. -/
theorem entries_of_derives {items : List Item} {comma : Bool} {text : List Char}
    (derives : Derives items comma text) : entries text = (items.map Item.entry, []) := by
  cases derives with
  | empty blank gap =>
      rw [entries, skipBlanks_append blank, skipBlanks_of_blank gap]
      rfl
  | items blank spells later closes gap =>
      have ends := ends_closing closes gap
      have last := nextEntry?_closing closes gap
      rw [entries, skipBlanks_append blank, skipBlanks_of_stops (spells.stops_isBlank _),
        entry?_append spells (later.ends ends)]
      simp only [moreEntries_append later ends last,
        skipBlanks_skipComma_closing closes gap, List.map_cons]

theorem exists_item_of_nextEntry? {text rest : List Char} {entry : Entry}
    (taken : nextEntry? text = some (entry, rest)) :
    ∃ (item : Item) (before behind spelled : List Char), Blank before ∧ Blank behind ∧
      item.Spells spelled ∧ text = before ++ ',' :: (behind ++ (spelled ++ rest)) ∧
        entry = item.entry := by
  obtain ⟨before, blank, split⟩ := exists_blank_append text
  unfold nextEntry? at taken
  split at taken
  · next left comma =>
      obtain ⟨behind, gap, splitLeft⟩ := exists_blank_append left
      obtain ⟨item, spelled, spells, standing, rfl⟩ := exists_item_of_entry? taken
      refine ⟨item, before, behind, spelled, blank, gap, spells, ?_, rfl⟩
      rw [split, comma, ← standing, ← splitLeft]
  · cases taken

theorem exists_items_of_moreEntries (text : List Char) :
    ∃ (items : List Item) (spelled : List Char), SpellsMore items spelled ∧
      text = spelled ++ (moreEntries text).2 ∧ (moreEntries text).1 = items.map Item.entry := by
  fun_induction moreEntries text with
  | case1 text none => exact ⟨[], [], .nil, rfl, rfl⟩
  | case2 text entry rest found shorter entries left more ih =>
      obtain ⟨item, before, behind, spelled, blank, gap, spells, split, rfl⟩ :=
        exists_item_of_nextEntry? found
      obtain ⟨items, others, later, splitRest, same⟩ := ih
      rw [more] at splitRest same
      refine ⟨item :: items, _, .cons blank gap spells later, ?_, ?_⟩
      · rw [split, splitRest]
        simp
      · exact congrArg (item.entry :: ·) same
  | case3 text entry rest found longer =>
      obtain ⟨item, before, behind, spelled, blank, gap, spells, split, rfl⟩ :=
        exists_item_of_nextEntry? found
      refine ⟨[item], _, .cons blank gap spells .nil, ?_, rfl⟩
      rw [split]
      simp

theorem exists_closing (text : List Char) :
    ∃ (comma : Bool) (closing : List Char), SpellsComma comma closing ∧
      text = closing ++ skipComma text := by
  obtain ⟨before, blank, split⟩ := exists_blank_append text
  rw [skipComma]
  split
  · next rest comma =>
      refine ⟨true, _, .present blank, ?_⟩
      rw [split, comma]
      simp
  · exact ⟨false, [], .absent, rfl⟩

/-- A text of which nothing is left over derives from items that are its entries. -/
theorem exists_derives_of_entries {text : List Char} (whole : (entries text).2 = []) :
    ∃ (items : List Item) (comma : Bool), Derives items comma text := by
  obtain ⟨front, blank, split⟩ := exists_blank_append text
  unfold entries at whole
  dsimp only at whole
  split at whole
  · have derives : Derives [] false (front ++ skipBlanks text) := by
      rw [show skipBlanks text = [] from whole]
      exact .empty blank (List.forall_mem_nil _)
    rw [← split] at derives
    exact ⟨[], false, derives⟩
  · next entry rest found =>
      obtain ⟨item, spelled, spells, splitFront, rfl⟩ := exists_item_of_entry? found
      obtain ⟨items, more, later, splitRest, same⟩ := exists_items_of_moreEntries rest
      obtain ⟨comma, closing, closes, splitMore⟩ := exists_closing (moreEntries rest).2
      have gap : Blank (skipComma (moreEntries rest).2) := blank_of_skipBlanks whole
      refine ⟨item :: items, comma, ?_⟩
      rw [split, splitFront, splitRest, splitMore]
      exact .items blank spells later closes gap

end ListText

end Unformat
