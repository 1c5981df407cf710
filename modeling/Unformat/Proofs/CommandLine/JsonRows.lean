import Unformat.Proofs.CommandLine.Rows
import Unformat.Proofs.Json.Rendering
import Unformat.Proofs.Number.Rounding
import Unformat.Proofs.Rule.Types

/-!
# Rows as JSON

With rows in JSON, every line that a run writes to the standard output is an array with an element
for each slot of the plan, and strings, truth values and integers are read back from their elements.
The array is standard JSON unless one of the values is an infinity or not-a-number, which a default
rule for doubles reads: such a value is written by a name that standard JSON does not have.
-/

namespace Unformat

open Json (Document)
open Text (CharacterTable)

/-! ## Values in a row -/

/-- The document is a string of the characters. -/
def Json.Document.IsString (document : Document) (text : String) : Prop :=
  ∃ units, document = .text units ∧ Json.charactersOf? units = some text.toList

namespace Value

/-- The value is no special double. -/
def IsFinite : Value → Prop
  | .real double => double.IsFinite
  | _ => True

/-- What the element of a row stands for gives back the value: addresses and paths are strings of
their texts, a socket address is an array, and a double is the decimal that it is written as. -/
def ReadBackFrom (element : Document) : Value → Prop
  | .bool value => element = .bool value
  | .int value => element = .number value 0
  | .text value => element.IsString value
  | .ipv4 address => element.IsString address.text
  | .ipv6 address => element.IsString address.text
  | .path name => element.IsString name.text
  | .socket host port =>
      ∃ first, element = .array [first, .number port 0] ∧ first.IsString host.text
  | .real double =>
      element = .number (Json.numeralValue double.text.toList).1
        (Json.numeralValue double.text.toList).2

theorem isString_meaning (text : String) : (Json.text text).meaning.IsString text :=
  ⟨_, rfl, Json.charactersOf?_units text.toList⟩

theorem readBackFrom_meaning {value : Value} (finite : value.IsFinite) :
    value.ReadBackFrom value.toJson.meaning := by
  cases value with
  | bool | int => rfl
  | text | ipv4 | ipv6 | path => exact isString_meaning _
  | socket host port => exact ⟨_, rfl, isString_meaning _⟩
  | real double =>
      cases double with
      | nan | infinite => exact finite.elim
      | finite => rfl

/-- The doubles in an element are the value, if that is one. -/
theorem eachReal_toJson {holds : Binary64 → Prop} {value : Value}
    (here : ∀ double, value = .real double → holds double) : value.toJson.EachReal holds := by
  cases value with
  | bool value => exact .bool value
  | int value => exact .int value
  | text | ipv4 | ipv6 | path => exact .text _
  | real double => exact .real (here double rfl)
  | socket host port =>
      refine .array fun item member => ?_
      rcases List.mem_cons.mp member with rfl | last
      · exact .text host.text
      · obtain rfl := List.mem_singleton.mp last
        exact .int port

theorem isFinite_iff {value : Value} :
    value.IsFinite ↔ value.toJson.EachReal Binary64.IsFinite := by
  constructor
  · intro finite
    refine eachReal_toJson ?_
    rintro double rfl
    exact finite
  · intro each
    cases value with
    | real double =>
        cases each with
        | real here => exact here
    | _ => trivial

/-- The values of a row are written as one array. -/
def rowJson (values : List Value) : Json := .array (values.map toJson)

theorem rowJson_isFinite_iff {values : List Value} :
    (rowJson values).EachReal Binary64.IsFinite ↔ ∀ value ∈ values, value.IsFinite := by
  constructor
  · rintro ⟨⟩
    next each =>
      exact fun value member => isFinite_iff.mpr (each _ (List.mem_map_of_mem member))
  · intro each
    exact .array (List.forall_mem_map.mpr fun value member => isFinite_iff.mp (each value member))

end Value

namespace CommandLine

section Rows

variable [CharacterTable] [PatternEngine]

variable {settings : Settings} {plan : Plan} {input : InputFile}

theorem inRange_rowJson {rules : RuleList} (binds : settings.Binds rules plan)
    {values : List Value} (member : values ∈ settings.tuples plan input) :
    (Value.rowJson values).EachReal Binary64.InRange := by
  obtain ⟨_, compiled, compiles, scanned⟩ := scanned_of_mem_tuples binds member
  refine .array (List.forall_mem_map.mpr fun value inside => Value.eachReal_toJson ?_)
  rintro double rfl
  obtain ⟨_, _, rule, type, taken, _, found, typed, _, converts⟩ := scanned _ inside
  have declared : rule ∈ rules.flattened := by
    rw [← binds.rules_eq, ← (Plan.compileRules_of_compile compiles).2]
    exact List.mem_of_getElem? found
  -- A text names registered types only, so no conversion is one of a calling program.
  have builtin : type.conversion.IsBuiltin :=
    RuleList.eachType_of_parse Registry.eachType_builtin binds.read rule declared type typed
  exact Conversion.inRange_of_apply builtin converts

/-- The text is a row of the values of a tuple: it is standard JSON if and only if none of them is
an infinity or not-a-number, and then it is an array with an element for each slot, from which the
value is read back. -/
structure WrittenAsJson (plan : Plan) (values : List Value) (text : List Char) : Prop where
  length_eq : values.length = plan.arity
  valid_iff : Json.Valid text ↔ ∀ value ∈ values, value.IsFinite
  elements : ∀ document, Json.Denotes text document →
    ∃ elements, document = .array elements ∧ elements.length = plan.arity ∧
      List.Forall₂ (fun value element => value.ReadBackFrom element) values elements

/-- With rows in JSON, the lines that a run writes to the standard output are the rows of the tuples
that the scan brings, each of which is standard JSON unless a value is a special double.  A run that
never ends repeats one of these lines (`RepeatedIteration.ends_unless_run_leaves_reader`). -/
theorem json_rows {rules : RuleList} (binds : settings.Binds rules plan)
    (runs : settings.explain = false) (json : settings.format = .json) (input : InputFile)
    (duration : String) :
    (run settings input duration).outputText.toList.splitOn '\n' =
        (settings.tuples plan input).map (fun values => (settings.format.row values).toList) ++
          [[]] ∧
      ∀ values ∈ settings.tuples plan input,
        WrittenAsJson plan values (settings.format.row values).toList := by
  have row (values : List Value) :
      (settings.format.row values).toList = (Value.rowJson values).render.toList := by
    rw [json]
    rfl
  have oneLine : ∀ values ∈ settings.tuples plan input,
      '\n' ∉ (settings.format.row values).toList := by
    intro values member feed
    rw [row] at feed
    cases Json.isVisible_of_mem_render (inRange_rowJson binds member) '\n' feed
  rw [outputText_run binds runs]
  refine ⟨splitOn_rowsText oneLine, fun values member => ?_⟩
  have inRange := inRange_rowJson binds member
  have length := (scanned_of_mem_tuples binds member).1
  have valid := (Json.valid_render_iff inRange).trans Value.rowJson_isFinite_iff
  rw [row]
  refine ⟨length, valid, fun document denotes => ?_⟩
  have finite := valid.mp ⟨document, denotes⟩
  have meant := Json.denotes_render inRange (Value.rowJson_isFinite_iff.mpr finite)
  refine ⟨values.map fun value => value.toJson.meaning, ?_, by rw [List.length_map, length], ?_⟩
  · rw [denotes.unique meant, Value.rowJson, Json.meaning, Json.meanings_eq, List.map_map]
    rfl
  · rw [List.forall₂_map_right_iff, List.forall₂_same]
    exact fun value inside => Value.readBackFrom_meaning (finite value inside)

end Rows

/-- A number and not-a-number, with the default rule for doubles. -/
theorem json_rows_of_two :
    let settings : Settings := { template := "\x7b\x7d", rules := "f64", format := .json }
    let plan : Plan := ⟨[.capture (some 0) 0], [.default .real], 1, "\x7b\x7d"⟩
    let input : InputFile := .found (.bytes [0x30, 0x2E, 0x35, 0x0A, 0x6E, 0x61, 0x6E, 0x0A])
    settings.Binds { positional := plan.rules } plan ∧ settings.explain = false ∧
      settings.format = .json ∧
      settings.tuples plan input = [[.real (.finite false 0x10000000000000 (-53))], [.real .nan]] ∧
      (run settings input).outputText.toList.splitOn '\n' =
        ["[0.5]".toList, "[NaN]".toList, []] ∧
      ∀ values ∈ settings.tuples plan input,
        WrittenAsJson plan values (settings.format.row values).toList := by
  intro settings plan input
  have binds : settings.Binds { positional := plan.rules } plan :=
    ⟨by decide +kernel, [.capture ⟨.next, .next⟩ 0], by cbv, by decide +kernel⟩
  have brought : settings.tuples plan input =
      [[.real (.finite false 0x10000000000000 (-53))], [.real .nan]] := by decide +kernel
  obtain ⟨lines, rows⟩ := json_rows binds rfl rfl input "0.000"
  rw [brought] at lines
  exact ⟨binds, rfl, rfl, brought, lines, rows⟩

/-- Not-a-number, with the default rule for doubles: the line is no JSON. -/
theorem notANumber_written_bare :
    let settings : Settings := { template := "\x7b\x7d", rules := "f64", format := .json }
    let input : InputFile := .found (.bytes [0x6E, 0x61, 0x6E, 0x0A])
    (run settings input).outputText = "[NaN]\n" ∧ ¬ Json.Valid "[NaN]".toList := by
  intro settings input
  have inRange : (Value.rowJson [.real .nan]).EachReal Binary64.InRange :=
    .array (by simpa [Value.toJson] using Json.EachReal.real trivial)
  refine ⟨by decide +kernel, fun valid => ?_⟩
  exact Value.rowJson_isFinite_iff.mp ((Json.valid_render_iff inRange).mp valid) _
    List.mem_cons_self

end CommandLine

end Unformat
