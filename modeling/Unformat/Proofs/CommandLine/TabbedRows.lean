import Unformat.Proofs.CommandLine.Rows
import Unformat.Proofs.Scan.LineEndings
import Unformat.Proofs.ScanType.Printing

/-!
# Rows with tabs

With tabs between the values of a row, a plan of default rules of built-in types writes one line for
each tuple.  The fields of the line are the texts of the values, one for each slot, unless a single
character that was read is a tab itself: it is written as it is, so it makes one field two empty
ones.
-/

namespace Unformat

/-! ## Fields -/

/-- The fields that the value comes to. -/
def Value.fields (value : Value) : List (List Char) := value.plain.toList.splitOn '\t'

/-- The character as a value. -/
def Value.single (c : Char) : Value := .text (String.ofList [c])

/-- The text of the value has no line feed, and no tab or carriage return unless it is that
character. -/
structure Value.Tidy (value : Value) : Prop where
  noFeed : '\n' ∉ value.plain.toList
  tab_iff : '\t' ∈ value.plain.toList ↔ value = .single '\t'
  return_iff : '\r' ∈ value.plain.toList ↔ value = .single '\r'

theorem Value.Tidy.fields_eq {value : Value} (tidy : value.Tidy) :
    value.fields = if value = .single '\t' then [[], []] else [value.plain.toList] := by
  split
  · next same =>
      subst same
      rfl
  · next other => exact List.splitOn_eq_singleton (mt tidy.tab_iff.mp other)

/-- A value comes to one field, and a tab to two. -/
theorem length_flatMap_fields {values : List Value} (tidy : ∀ value ∈ values, value.Tidy) :
    (values.flatMap Value.fields).length = values.length + values.count (.single '\t') := by
  induction values with
  | nil => rfl
  | cons value values ih =>
      obtain ⟨here, others⟩ := List.forall_mem_cons.mp tidy
      rw [List.flatMap_cons, List.length_append, ih others, here.fields_eq, List.length_cons,
        List.count_cons]
      by_cases tab : value = .single '\t'
      · simp [tab]
        omega
      · simp [tab]
        omega

namespace CommandLine

open Text (CharacterTable)

variable {settings : Settings} {plan : Plan} {input : InputFile}

theorem toList_row_tsv (values : List Value) : (Format.tsv.row values).toList =
    ['\t'].intercalate (values.map fun value => value.plain.toList) := by
  rw [Format.row, String.toList_intercalate, List.map_map]
  rfl

/-- What a plan of default rules brings is tidy. -/
theorem tidy_of_mem_tuples [CharacterTable] {rules : RuleList} (binds : settings.Binds rules plan)
    (builtin : ∀ rule ∈ plan.rules, ∃ entry ∈ Registry.builtinTypes, rule = .default entry.1)
    {values : List Value} (member : values ∈ settings.tuples plan input) :
    ∀ value ∈ values, value.Tidy := by
  intro value inside
  obtain ⟨_, compiled, compiles, scanned⟩ := scanned_of_mem_tuples binds member
  obtain ⟨_, segments, _, bound⟩ := binds
  obtain ⟨_, index, rule, type, taken, _, found, typed, takenBy, converts⟩ := scanned value inside
  rw [(Plan.compileRules_of_compile compiles).2] at found
  obtain ⟨other, known, rfl⟩ :=
    Plan.ofDefaults_of_bind bound builtin rule (List.mem_of_getElem? found)
  obtain rfl : other = type := Option.some.inj typed
  obtain ⟨source, pattern, given, reads, plain, _⟩ :=
    ScanType.exists_refusing_of_mem_withDefault known
  have readsAs : Plan.ReadsAs (.default other) pattern := by
    rw [Plan.ReadsAs, Rule.pattern?, given]
    exact reads
  rw [Plan.matcher_of_compile compiles found readsAs] at takenBy
  obtain ⟨noFeed, others⟩ := Value.mem_plain_iff_of_default known given reads
    (takenBy.describes plain) converts
  exact ⟨noFeed, others '\t' (by decide), others '\r' (by decide)⟩

/-- The text is a row of the values of a tuple: it has a field for each slot, which is the text of
its value, and one more for each tab among the values; carriage returns are in it only as values. -/
structure Tabulated (plan : Plan) (values : List Value) (text : List Char) : Prop where
  length_fields : (text.splitOn '\t').length = plan.arity + values.count (.single '\t')
  fields_eq_iff : text.splitOn '\t' = values.map (fun value => value.plain.toList) ↔
    .single '\t' ∉ values
  return_iff : '\r' ∈ text ↔ .single '\r' ∈ values

theorem tabulated_of_tidy {values : List Value} (length : values.length = plan.arity)
    (slots : 0 < plan.arity) (tidy : ∀ value ∈ values, value.Tidy) :
    Tabulated plan values (Format.tsv.row values).toList := by
  have solid : values ≠ [] := by
    rintro rfl
    exact slots.ne length
  have fields : (Format.tsv.row values).toList.splitOn '\t' = values.flatMap Value.fields := by
    rw [toList_row_tsv, splitOn_intercalate_eq_flatMap (by simpa using solid), List.flatMap_map]
    rfl
  have count := length_flatMap_fields tidy
  rw [length] at count
  refine ⟨by rw [fields, count], ⟨fun same member => ?_, fun noTab => ?_⟩, ?_⟩
  · rw [fields] at same
    rw [same, List.length_map, length] at count
    have some : 0 < values.count (.single '\t') := List.count_pos_iff.mpr member
    omega
  · rw [toList_row_tsv]
    refine List.splitOn_intercalate '\t' (List.forall_mem_map.mpr fun value inside tab => ?_)
      (by simpa using solid)
    exact noTab ((tidy value inside).tab_iff.mp tab ▸ inside)
  · rw [toList_row_tsv]
    constructor
    · intro inside
      rcases mem_intercalate inside with between | ⟨word, member, within⟩
      · cases List.mem_singleton.mp between
      · obtain ⟨value, valueMember, rfl⟩ := List.mem_map.mp member
        exact (tidy value valueMember).return_iff.mp within ▸ valueMember
    · intro member
      exact mem_intercalate_of_mem (List.mem_map_of_mem member)
        ((tidy _ member).return_iff.mpr rfl)

/-- With tabs between the values, the lines that a run writes to the standard output are the rows of
the tuples that the scan brings, each with a field for each slot unless a tab was read.  The plan
takes some character in every run, so that no run goes on for ever
(`RepeatedIteration.ends_unless_run_leaves_reader`). -/
theorem tabbed_rows [CharacterTable] {rules : RuleList} (binds : settings.Binds rules plan)
    (builtin : ∀ rule ∈ plan.rules, ∃ entry ∈ Registry.builtinTypes, rule = .default entry.1)
    (slots : 0 < plan.arity) (runs : settings.explain = false) (tabs : settings.format = .tsv)
    (input : InputFile) (duration : String) :
    (run settings input duration).outputText.toList.splitOn '\n' =
        (settings.tuples plan input).map (fun values => (settings.format.row values).toList) ++
          [[]] ∧
      ∀ values ∈ settings.tuples plan input,
        Tabulated plan values (settings.format.row values).toList := by
  have row (values : List Value) :
      (settings.format.row values).toList = (Format.tsv.row values).toList := by rw [tabs]
  rw [outputText_run binds runs]
  constructor
  · refine splitOn_rowsText fun values member feed => ?_
    have tidy := tidy_of_mem_tuples binds builtin member
    rw [row, toList_row_tsv] at feed
    rcases mem_intercalate feed with between | ⟨word, wordMember, within⟩
    · cases List.mem_singleton.mp between
    · obtain ⟨value, inside, rfl⟩ := List.mem_map.mp wordMember
      exact (tidy value inside).noFeed within
  · intro values member
    rw [row]
    exact tabulated_of_tidy (scanned_of_mem_tuples binds member).1 slots
      (tidy_of_mem_tuples binds builtin member)

/-- A word and a character, the second of which is a tab on one of two lines. -/
theorem tabbed_rows_of_two :
    let settings : Settings := { template := "\x7b\x7d=\x7b\x7d", rules := "u8, char" }
    let byte : ScanType := .ofIntegers "u8" false (some 8) false
    let plan : Plan :=
      ⟨[.capture (some 0) 0, .literal "=", .capture (some 1) 1],
        [.default byte, .default .character], 2, "\x7b\x7d=\x7b\x7d"⟩
    let input : InputFile :=
      .found (.bytes [0x37, 0x3D, 0x78, 0x0A, 0x37, 0x3D, 0x09, 0x0A])
    settings.Binds { positional := plan.rules } plan ∧
      (∀ rule ∈ plan.rules, ∃ entry ∈ Registry.builtinTypes, rule = .default entry.1) ∧
      0 < plan.arity ∧ settings.explain = false ∧ settings.format = .tsv ∧
      settings.tuples plan input = [[.int 7, .text "x"], [.int 7, .single '\t']] ∧
      (run settings input).outputText.toList.splitOn '\n' =
        ["7\tx".toList, "7\t\t".toList, []] ∧
      ∀ values ∈ settings.tuples plan input,
        Tabulated plan values (settings.format.row values).toList := by
  intro settings byte plan input
  have binds : settings.Binds { positional := plan.rules } plan :=
    ⟨by decide +kernel, [.capture ⟨.next, .next⟩ 0, .literal "=", .capture ⟨.next, .next⟩ 3],
      by cbv, by cbv⟩
  have builtin : ∀ rule ∈ plan.rules, ∃ entry ∈ Registry.builtinTypes, rule = .default entry.1 := by
    decide +kernel
  have brought : settings.tuples plan input =
      [[.int 7, .text "x"], [.int 7, .single '\t']] := by cbv
  obtain ⟨lines, rows⟩ := tabbed_rows binds builtin (by decide) rfl rfl input "0.000"
  rw [brought] at lines
  exact ⟨binds, builtin, by decide, rfl, rfl, brought, lines, rows⟩

/-- A tab, with the default rule for single characters: the line has two fields for one slot. -/
theorem tab_makes_two_fields :
    let settings : Settings := { template := "\x7b\x7d", rules := "char" }
    let plan : Plan := ⟨[.capture (some 0) 0], [.default .character], 1, "\x7b\x7d"⟩
    let input : InputFile := .found (.bytes [0x09, 0x0A])
    settings.Binds { positional := plan.rules } plan ∧
      settings.tuples plan input = [[.single '\t']] ∧
      (run settings input).outputText = "\t\n" ∧ ['\t'].splitOn '\t' = [[], []] := by
  intro settings plan input
  exact ⟨⟨by decide +kernel, [.capture ⟨.next, .next⟩ 0], by cbv, by cbv⟩,
    by cbv, by decide +kernel, rfl⟩

end CommandLine

end Unformat
