import Unformat.Proofs.Rule.Types
import Unformat.Session.Readers

/-!
# What a step of a session comes to

A step takes a session to a result and the session after it. The registry and the readers of a
session are the part of it that has nothing to do with plans: steps on that part alone see nothing
of the rest and leave it as it is.
-/

namespace Unformat.Session

variable {α β : Type}

/-- What a step comes to in a session. -/
def perform (step : Action α) (session : Session) : Except Failure α × Session :=
  step.run.run session

@[simp] theorem perform_pure (value : α) (session : Session) :
    perform (pure value) session = (.ok value, session) := rfl

@[simp] theorem perform_yielding (result : Except Failure α) (session : Session) :
    perform (yielding result) session = (result, session) := rfl

@[simp] theorem perform_modify (change : Session → Session) (session : Session) :
    perform (modify change) session = (.ok (), change session) := rfl

theorem perform_bind_get (rest : Session → Action β) (session : Session) :
    perform (get >>= rest) session = perform (rest session) session := rfl

theorem perform_bind (step : Action α) (rest : α → Action β) (session : Session) :
    perform (step >>= rest) session =
      match perform step session with
      | (.ok value, after) => perform (rest value) after
      | (.error failure, after) => (.error failure, after) := by
  simp only [perform, ExceptT.run_bind, StateT.run_bind]
  generalize StateT.run (ExceptT.run step) session = result
  rcases result with ⟨_ | _, _⟩ <;> rfl

theorem perform_bind_of_ok {step : Action α} {session after : Session} {value : α}
    (done : perform step session = (.ok value, after)) (rest : α → Action β) :
    perform (step >>= rest) session = perform (rest value) after := by
  rw [perform_bind, done]

theorem perform_bind_of_error {step : Action α} {session after : Session} {failure : Failure}
    (failed : perform step session = (.error failure, after)) (rest : α → Action β) :
    perform (step >>= rest) session = (.error failure, after) := by
  rw [perform_bind, failed]

theorem perform_discard (step : Action α) (session : Session) :
    perform (discard step) session =
      ((perform step session).1.map fun _ => ⟨⟩, (perform step session).2) := by
  have mapped : discard step = step >>= fun _ => pure ⟨⟩ := by
    simp only [discard, Functor.discard, bind_pure_comp, Functor.mapConst]
    rfl
  rw [mapped, perform_bind]
  obtain ⟨_ | _, _⟩ := perform step session <;> rfl

/-! ## The registry and the readers -/

/-- The part of a session that has nothing to do with plans. -/
structure Inputs where
  registry : Registry
  bases : List ByteReader
  lineReaders : List Bool
  readers : List (String × ReaderEntry)

def inputs (session : Session) : Inputs where
  registry := session.registry
  bases := session.bases
  lineReaders := session.lineReaders
  readers := session.readers

def withInputs (session : Session) (inputs : Inputs) : Session :=
  { session with
    registry := inputs.registry
    bases := inputs.bases
    lineReaders := inputs.lineReaders
    readers := inputs.readers }

theorem registry_eq_of_inputs {one other : Session} (same : one.inputs = other.inputs) :
    one.registry = other.registry := congrArg Inputs.registry same

theorem readers_eq_of_inputs {one other : Session} (same : one.inputs = other.inputs) :
    one.readers = other.readers := congrArg Inputs.readers same

/-- A step that sees and changes the registry and the readers only, and registers no types but such
with the property. -/
structure OnInputs (holds : ScanType → Prop) (step : Action α) : Prop where
  alike : ∀ one other : Session, one.inputs = other.inputs →
    (perform step one).1 = (perform step other).1 ∧
      (perform step one).2 = one.withInputs (perform step other).2.inputs
  types : ∀ session, session.registry.EachType holds →
    (perform step session).2.registry.EachType holds

namespace OnInputs

variable {holds : ScanType → Prop}

theorem of_effect {step : Action α} (effect : Inputs → Except Failure α × Inputs)
    (known : ∀ session, perform step session =
      ((effect session.inputs).1, session.withInputs (effect session.inputs).2))
    (keeps : ∀ inputs, (effect inputs).2.registry = inputs.registry) : OnInputs holds step where
  alike one other same := by
    rw [known, known, same]
    exact ⟨rfl, rfl⟩
  types session each := by
    rw [known]
    have registry := keeps session.inputs
    unfold withInputs
    rw [registry]
    exact each

theorem yielding (result : Except Failure α) : OnInputs holds (yielding result) :=
  of_effect (fun inputs => (result, inputs)) (fun _ => rfl) fun _ => rfl

theorem bind {step : Action α} {rest : α → Action β} (first : OnInputs holds step)
    (second : ∀ value, OnInputs holds (rest value)) : OnInputs holds (step >>= rest) where
  alike one other same := by
    obtain ⟨result, after⟩ := first.alike one other same
    rw [perform_bind, perform_bind]
    rcases one_eq : perform step one with ⟨_ | value, oneAfter⟩ <;>
      rcases other_eq : perform step other with ⟨_ | otherValue, otherAfter⟩ <;>
        rw [one_eq, other_eq] at result <;> cases result <;>
          obtain rfl : oneAfter = one.withInputs otherAfter.inputs := by
            rw [one_eq, other_eq] at after
            exact after
    · exact ⟨rfl, rfl⟩
    · exact (second value).alike _ _ rfl
  types session each := by
    have between := first.types session each
    rw [perform_bind]
    rcases done : perform step session with ⟨_ | value, after⟩ <;> rw [done] at between
    · exact between
    · exact (second value).types after between

theorem discard {step : Action α} (onInputs : OnInputs holds step) :
    OnInputs holds (discard step) where
  alike one other same := by
    obtain ⟨result, after⟩ := onInputs.alike one other same
    rw [perform_discard, perform_discard, result, after]
    exact ⟨rfl, rfl⟩
  types session each := by
    rw [perform_discard]
    exact onInputs.types session each

/-- A step that looks at the session first, but at its inputs only. -/
theorem bind_get {rest : Session → Action β}
    (blind : ∀ one other : Session, one.inputs = other.inputs → rest one = rest other)
    (each : ∀ session, OnInputs holds (rest session)) : OnInputs holds (get >>= rest) where
  alike one other same := by
    rw [perform_bind_get, perform_bind_get, blind one other same]
    exact (each other).alike one other same
  types session known := by
    rw [perform_bind_get]
    exact (each session).types session known

theorem register {type : ScanType} (has : holds type) (aliases : List Designator)
    (replace : Bool) : OnInputs holds (register type aliases replace) where
  alike one other same := by
    have registries := registry_eq_of_inputs same
    unfold Session.register
    rw [perform_bind_get, perform_bind_get, registries]
    cases other.registry.register type aliases replace with
    | ok registry =>
      refine ⟨rfl, ?_⟩
      have shared : ({ other with registry } : Session).inputs = { one.inputs with registry } := by
        rw [same]
        rfl
      rw [perform_modify, perform_modify, shared]
      rfl
    | error fault =>
      have refused : OnInputs holds (Session.yielding (.error (.value (.taken fault)))) :=
        yielding (α := Unit) _
      exact refused.alike one other same
  types session each := by
    unfold Session.register
    rw [perform_bind_get]
    cases registered : session.registry.register type aliases replace with
    | ok registry => exact each.register has registered
    | error fault => exact each

theorem reader (name : String) : OnInputs holds (reader name) :=
  bind_get (fun _ _ same => by rw [readers_eq_of_inputs same]) fun _ => yielding _

theorem addReader (reader : Reader) : OnInputs holds (addReader reader) :=
  of_effect (fun inputs => (.ok {
      base := inputs.bases.length
      lines := (List.range reader.lines.length).map (inputs.lineReaders.length + ·) },
    { inputs with
      bases := inputs.bases ++ [reader.base]
      lineReaders := inputs.lineReaders ++ reader.lines })) (fun _ => rfl) fun _ => rfl

theorem addLineReader (inner : ReaderEntry) : OnInputs holds (addLineReader inner) :=
  of_effect (fun inputs => (.ok { inner with lines := inputs.lineReaders.length :: inner.lines },
    { inputs with lineReaders := inputs.lineReaders ++ [false] })) (fun _ => rfl) fun _ => rfl

theorem openInput (size : Int) (input : Input) : OnInputs holds (openInput size input) := by
  cases input with
  | reader name => exact reader name
  | source source => exact bind (yielding _) addReader

theorem withReader (entry : ReaderEntry) (operation : Reader → α × Reader) :
    OnInputs holds (withReader entry operation) :=
  -- Any session with these inputs will do, since a reader lies in the inputs alone.
  of_effect (fun inputs =>
    let session := ({} : Session).withInputs inputs
    let result := operation (session.loadReader entry)
    (.ok result.1, (session.storeReader entry result.2).inputs)) (fun _ => rfl) fun _ => rfl

theorem keepReader (name : String) (entry : ReaderEntry) : OnInputs holds
    (modify fun session => { session with readers := keep session.readers name entry }) :=
  of_effect (fun inputs => (.ok (), { inputs with readers := keep inputs.readers name entry }))
    (fun _ => rfl) fun _ => rfl

theorem makeReader (name : String) (input : Input) (size : Int) (byLine : Bool) :
    OnInputs holds (makeReader name input size byLine) := by
  unfold Session.makeReader
  cases byLine with
  | true =>
    exact bind (openInput size input) fun inner => bind (addLineReader inner) (keepReader name)
  | false =>
    cases input with
    | source source => exact bind (openInput size (.source source)) (keepReader name)
    | reader inner =>
      refine bind (reader inner) fun entry => ?_
      by_cases small : size < 1
      · simp only [small, if_true]
        exact bind (yielding (.error (.value (.bufferSize size)))) (keepReader name)
      · simp only [small, if_false]
        exact bind (yielding (.error (.unreadable (readerKind entry)))) (keepReader name)

end OnInputs

end Unformat.Session
