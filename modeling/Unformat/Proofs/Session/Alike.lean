import Mathlib.Data.List.Forall2
import Unformat.Proofs.Session.Plans
import Unformat.Session.Runs

/-!
# Sessions that differ in their cache only

Two sessions are alike if they have the same readers and registry, and scanners and iterations of
the same names whose plans are the same, under whatever numbers. What a cache keeps, which plans
are shared and which of them have been compiled does not matter. A step that begins in sessions
alike gives the same result in both and leaves them alike, also when the two differ in the room
that they give the cache.
-/

namespace Unformat

/-- The parameters of a scanner that leaves the cache alone. -/
def Config.uncached (config : Config) : Config := { config with cacheCapacity := 0 }

theorem Config.uncached_eq_iff {one other : Config} : one.uncached = other.uncached ↔
    one.bufferSize = other.bufferSize ∧ one.eagerCompile = other.eagerCompile ∧
      one.lineErrors = other.lineErrors := by
  simp [uncached]

namespace Session

/-- The same names in the same order, and under each of them something related. -/
def Named {α β : Type} (related : α → β → Prop) (one : List (String × α))
    (other : List (String × β)) : Prop :=
  List.Forall₂ (fun kept otherKept => kept.1 = otherKept.1 ∧ related kept.2 otherKept.2) one other

namespace Named

variable {α β : Type} {related : α → β → Prop} {one : List (String × α)}
  {other : List (String × β)}

theorem imp {weaker : α → β → Prop} (named : Named related one other)
    (follows : ∀ kept otherKept, related kept otherKept → weaker kept otherKept) :
    Named weaker one other :=
  List.Forall₂.imp (fun _ _ both => ⟨both.1, follows _ _ both.2⟩) named

theorem lookup (named : Named related one other) (name : String) :
    Option.Rel related (one.lookup name) (other.lookup name) := by
  induction named with
  | nil => exact .none
  | @cons kept otherKept _ _ both _ ih =>
    obtain ⟨key, value⟩ := kept
    obtain ⟨otherKey, otherValue⟩ := otherKept
    obtain ⟨rfl, holds⟩ := both
    simp only [List.lookup_cons]
    cases name == key with
    | true => exact .some holds
    | false => exact ih

theorem keep (named : Named related one other) (name : String) {value : α} {otherValue : β}
    (holds : related value otherValue) :
    Named related (keep one name value) (keep other name otherValue) := by
  refine .cons ⟨rfl, holds⟩ (List.rel_filter ?_ named)
  intro kept otherKept both
  simp [both.1]

end Named

/-! ## Alike sessions -/

/-- The same plan, under a number in one session and a number in the other. -/
def SamePlan (one other : Session) (number otherNumber : Nat) : Prop :=
  ∃ plan, one.HasPlan number plan ∧ other.HasPlan otherNumber plan

/-- Scanners with the same plan and the same parameters, room in the cache apart. -/
def SameScanner (one other : Session) (scanner otherScanner : ScannerEntry) : Prop :=
  SamePlan one other scanner.plan otherScanner.plan ∧
    scanner.config.uncached = otherScanner.config.uncached

/-- Iterations that run the same plan and have come as far on the same reader. -/
def SameIteration (one other : Session) (iteration otherIteration : IterationEntry) : Prop :=
  SamePlan one other iteration.plan otherIteration.plan ∧
    iteration.reader = otherIteration.reader ∧ iteration.progress = otherIteration.progress

variable [PatternEngine]

/-- Sessions that differ only in what their caches made of the same requests. The plans of the
pairs of numbers in hand are the same as well. -/
structure Alike (meaning : Meaning) (inHand : List (Nat × Nat)) (one other : Session) : Prop where
  sound : one.Sound meaning
  otherSound : other.Sound meaning
  inputs : one.inputs = other.inputs
  scanners : Named (SameScanner one other) one.scanners other.scanners
  iterations : Named (SameIteration one other) one.iterations other.iterations
  plans : ∀ pair ∈ inHand, SamePlan one other pair.1 pair.2

variable {meaning : Meaning}

theorem alike_empty : Alike meaning [] {} {} where
  sound := sound_empty
  otherSound := sound_empty
  inputs := rfl
  scanners := .nil
  iterations := .nil
  plans := by simp

section Alike

variable {inHand : List (Nat × Nat)} {one other : Session}

theorem SamePlan.grow {after otherAfter : Session} {number otherNumber : Nat}
    (grows : Grows meaning one after) (otherGrows : Grows meaning other otherAfter)
    (same : SamePlan one other number otherNumber) :
    SamePlan after otherAfter number otherNumber := by
  obtain ⟨plan, has, otherHas⟩ := same
  exact ⟨plan, grows.keeps has, otherGrows.keeps otherHas⟩

namespace Alike

/-- Plans and caches may change apart from each other. -/
theorem grow (alike : Alike meaning inHand one other) {after otherAfter : Session}
    (grows : Grows meaning one after) (otherGrows : Grows meaning other otherAfter) :
    Alike meaning inHand after otherAfter where
  sound := grows.sound
  otherSound := otherGrows.sound
  inputs := by rw [grows.inputs, otherGrows.inputs, alike.inputs]
  scanners := by
    rw [grows.scanners, otherGrows.scanners]
    exact alike.scanners.imp fun _ _ same => ⟨same.1.grow grows otherGrows, same.2⟩
  iterations := by
    rw [grows.iterations, otherGrows.iterations]
    exact alike.iterations.imp fun _ _ same => ⟨same.1.grow grows otherGrows, same.2⟩
  plans pair member := (alike.plans pair member).grow grows otherGrows

theorem withInputs (alike : Alike meaning inHand one other) {inputs : Inputs}
    (types : inputs.registry.EachType (ScanType.Follows meaning)) :
    Alike meaning inHand (one.withInputs inputs) (other.withInputs inputs) where
  sound := ⟨alike.sound.compiled, alike.sound.cached, types⟩
  otherSound := ⟨alike.otherSound.compiled, alike.otherSound.cached, types⟩
  inputs := rfl
  scanners := alike.scanners
  iterations := alike.iterations
  plans := alike.plans

theorem cons (alike : Alike meaning inHand one other) {number otherNumber : Nat}
    (same : SamePlan one other number otherNumber) :
    Alike meaning ((number, otherNumber) :: inHand) one other :=
  { alike with plans := by simpa using ⟨same, fun _ _ member => alike.plans _ member⟩ }

theorem of_cons {pair : Nat × Nat} (alike : Alike meaning (pair :: inHand) one other) :
    Alike meaning inHand one other :=
  { alike with plans := fun _ member => alike.plans _ (List.mem_cons_of_mem _ member) }

theorem withScanner (alike : Alike meaning inHand one other) (name : String)
    {scanner otherScanner : ScannerEntry} (same : SameScanner one other scanner otherScanner) :
    Alike meaning inHand (one.withScanner name scanner) (other.withScanner name otherScanner) where
  sound := ⟨alike.sound.compiled, alike.sound.cached, alike.sound.types⟩
  otherSound := ⟨alike.otherSound.compiled, alike.otherSound.cached, alike.otherSound.types⟩
  inputs := alike.inputs
  scanners := alike.scanners.keep name same
  iterations := alike.iterations
  plans := alike.plans

theorem withIteration (alike : Alike meaning inHand one other) (name : String)
    {iteration otherIteration : IterationEntry}
    (same : SameIteration one other iteration otherIteration) :
    Alike meaning inHand { one with iterations := keep one.iterations name iteration }
      { other with iterations := keep other.iterations name otherIteration } where
  sound := ⟨alike.sound.compiled, alike.sound.cached, alike.sound.types⟩
  otherSound := ⟨alike.otherSound.compiled, alike.otherSound.cached, alike.otherSound.types⟩
  inputs := alike.inputs
  scanners := alike.scanners
  iterations := alike.iterations.keep name same
  plans := alike.plans

end Alike

/-! ## Steps that agree -/

/-- Two steps that give the same result in alike sessions and leave them alike. -/
def Agree {α : Type} (meaning : Meaning) (inHand : List (Nat × Nat))
    (step otherStep : Action α) : Prop :=
  ∀ one other : Session, Alike meaning inHand one other →
    (perform step one).1 = (perform otherStep other).1 ∧
      Alike meaning inHand (perform step one).2 (perform otherStep other).2

namespace Agree

variable {α β : Type} {step otherStep : Action α} {rest otherRest : α → Action β}

theorem bind (first : Agree meaning inHand step otherStep)
    (second : ∀ value, Agree meaning inHand (rest value) (otherRest value)) :
    Agree meaning inHand (step >>= rest) (otherStep >>= otherRest) := by
  intro one other alike
  obtain ⟨result, after⟩ := first one other alike
  rw [perform_bind, perform_bind]
  -- With equal results the first steps fail together, or go on with the same value.
  rcases one_eq : perform step one with ⟨_ | value, oneAfter⟩ <;>
    rcases other_eq : perform otherStep other with ⟨_ | otherValue, otherAfter⟩ <;>
      rw [one_eq, other_eq] at result after <;> cases result
  · exact ⟨rfl, after⟩
  · exact second value _ _ after

theorem of_onInputs (onInputs : OnInputs (ScanType.Follows meaning) step) :
    Agree meaning inHand step step := by
  intro one other alike
  obtain ⟨result, after⟩ := onInputs.alike one other alike.inputs
  obtain ⟨-, otherAfter⟩ := onInputs.alike other other rfl
  have types := onInputs.types other alike.otherSound.types
  refine ⟨result, ?_⟩
  rw [after, otherAfter]
  exact alike.withInputs types

theorem yielding (result : Except Failure α) :
    Agree meaning inHand (yielding result) (Session.yielding result) :=
  of_onInputs (.yielding result)

theorem pure (value : α) : Agree meaning inHand (pure value) (Pure.pure value) :=
  yielding (.ok value)

theorem markCompiled (number otherNumber : Nat) :
    Agree meaning inHand (markCompiled number) (Session.markCompiled otherNumber) :=
  fun _ _ alike =>
  ⟨rfl, alike.grow (alike.sound.marked number) (alike.otherSound.marked otherNumber)⟩

theorem clearCache : Agree meaning inHand clearCache Session.clearCache := fun _ _ alike =>
  ⟨rfl, alike.grow alike.sound.clear alike.otherSound.clear⟩

theorem keepIteration (name : String) {number otherNumber : Nat}
    (held : (number, otherNumber) ∈ inHand) (reader : ReaderEntry) (progress : Progress) :
    Agree meaning inHand (keepIteration name { plan := number, reader, progress })
      (Session.keepIteration name { plan := otherNumber, reader, progress }) :=
  fun _ _ alike => ⟨rfl, alike.withIteration name ⟨alike.plans _ held, rfl, rfl⟩⟩

/-- The plan of a number in hand is the same on either side. -/
theorem bind_planAt {number otherNumber : Nat} (held : (number, otherNumber) ∈ inHand)
    {rest otherRest : SharedPlan → Action β}
    (each : ∀ shared otherShared, shared.plan = otherShared.plan →
      shared.compiled = otherShared.compiled →
        Agree meaning inHand (rest shared) (otherRest otherShared)) :
    Agree meaning inHand (planAt number >>= rest) (planAt otherNumber >>= otherRest) := by
  intro one other alike
  obtain ⟨plan, has, otherHas⟩ := alike.plans _ held
  obtain ⟨shared, looked, rfl, compiled⟩ := perform_planAt alike.sound has
  obtain ⟨otherShared, otherLooked, same, otherCompiled⟩ :=
    perform_planAt alike.otherSound otherHas
  rw [perform_bind_of_ok looked, perform_bind_of_ok otherLooked]
  exact each shared otherShared same.symm (compiled.trans otherCompiled.symm) one other alike

/-- A name stands for nothing on either side, or for entries that are related. -/
theorem bind_find {γ : Type} (name : String) (entries : Session → List (String × γ))
    {related : Session → Session → γ → γ → Prop}
    (named : ∀ {one other}, Alike meaning inHand one other →
      Named (related one other) (entries one) (entries other))
    {rest otherRest : γ → Action β}
    (each : ∀ {one other entry otherEntry}, Alike meaning inHand one other →
      related one other entry otherEntry →
        (perform (rest entry) one).1 = (perform (otherRest otherEntry) other).1 ∧
          Alike meaning inHand (perform (rest entry) one).2
            (perform (otherRest otherEntry) other).2) :
    Agree meaning inHand ((do find (entries (← get)) name) >>= rest)
      ((do find (entries (← get)) name) >>= otherRest) := by
  intro one other alike
  have finding (session : Session) :
      perform (do find (entries (← get)) name) session =
        perform (find (entries session) name) session := rfl
  have found := (named alike).lookup name
  rw [perform_bind _ rest, perform_bind _ otherRest, finding, finding, find, find]
  generalize (entries one).lookup name = entry at found
  generalize (entries other).lookup name = otherEntry at found
  cases found with
  | none => exact ⟨rfl, alike⟩
  | some holds => exact each alike holds

/-- A name stands for scanners of the same plan, which is in hand from there on. -/
theorem bind_scanner (name : String) {rest otherRest : ScannerEntry → Action β}
    (each : ∀ scanner otherScanner, scanner.config.uncached = otherScanner.config.uncached →
      Agree meaning ((scanner.plan, otherScanner.plan) :: inHand) (rest scanner)
        (otherRest otherScanner)) :
    Agree meaning inHand (scanner name >>= rest) (scanner name >>= otherRest) :=
  bind_find name Session.scanners Alike.scanners fun alike same => by
    obtain ⟨result, after⟩ := each _ _ same.2 _ _ (alike.cons same.1)
    exact ⟨result, after.of_cons⟩

/-- A name stands for iterations of the same plan, which is in hand from there on. -/
theorem bind_iteration (name : String) {rest otherRest : IterationEntry → Action β}
    (each : ∀ number otherNumber reader progress, Agree meaning ((number, otherNumber) :: inHand)
      (rest ⟨number, reader, progress⟩) (otherRest ⟨otherNumber, reader, progress⟩)) :
    Agree meaning inHand (iteration name >>= rest) (iteration name >>= otherRest) :=
  bind_find name Session.iterations Alike.iterations fun {_ _ entry otherEntry} alike same => by
    obtain ⟨number, reader, progress⟩ := entry
    obtain ⟨otherNumber, otherReader, otherProgress⟩ := otherEntry
    obtain ⟨samePlan, rfl, rfl⟩ := same
    obtain ⟨result, after⟩ := each number otherNumber reader progress _ _ (alike.cons samePlan)
    exact ⟨result, after.of_cons⟩

/-! ## The steps of a session agree -/

theorem compilePlan {number otherNumber : Nat} (held : (number, otherNumber) ∈ inHand) :
    Agree meaning inHand (compilePlan number) (Session.compilePlan otherNumber) := by
  refine bind (markCompiled number otherNumber) fun _ => bind_planAt held ?_
  intro shared otherShared _ compiled
  rw [compiled]
  exact yielding _

theorem compile (name : String) : Agree meaning inHand (compile name) (Session.compile name) :=
  bind_scanner name fun _ _ _ => bind (compilePlan (by simp)) fun _ => pure _

theorem scan (name : String) (input : Input) :
    Agree meaning inHand (scan name input) (Session.scan name input) := by
  refine bind_scanner name fun scanner otherScanner same => ?_
  rw [(Config.uncached_eq_iff.mp same).1]
  refine bind (of_onInputs (.openInput _ input)) fun entry => ?_
  refine bind (markCompiled _ _) fun _ => bind_planAt (by simp) ?_
  intro shared otherShared _ compiled
  rw [compiled]
  exact bind (of_onInputs (.withReader entry _)) fun _ => yielding _

theorem startLines (name scannerName : String) (input : Input) (onError : Option String) :
    Agree meaning inHand (startLines name scannerName input onError)
      (Session.startLines name scannerName input onError) := by
  refine bind_scanner scannerName fun scanner otherScanner same => ?_
  obtain ⟨size, -, errors⟩ := Config.uncached_eq_iff.mp same
  have treatment : Scanner.lineErrors scanner.config onError =
      Scanner.lineErrors otherScanner.config onError := by
    simp only [Scanner.lineErrors, errors]
  -- A named reader is looked up before the treatment of lines is read; the rest is common.
  have start : Agree meaning ((scanner.plan, otherScanner.plan) :: inHand)
      (do
        let errors ← Session.yielding (Scanner.lineErrors scanner.config onError)
        let entry ← addLineReader (← openInput scanner.config.bufferSize input)
        Session.keepIteration name
          { plan := scanner.plan, reader := entry, progress := .lines { errors } })
      (do
        let errors ← Session.yielding (Scanner.lineErrors otherScanner.config onError)
        let entry ← addLineReader (← openInput otherScanner.config.bufferSize input)
        Session.keepIteration name
          { plan := otherScanner.plan, reader := entry, progress := .lines { errors } }) := by
    rw [treatment, size]
    exact bind (yielding _) fun errors => bind (of_onInputs (.openInput _ input)) fun inner =>
      bind (of_onInputs (.addLineReader inner)) fun entry => keepIteration name (by simp) entry _
  cases input with
  | source source => exact start
  | reader inner => exact bind (of_onInputs (.discard (.reader inner))) fun _ => start

theorem startRepeated (name scannerName : String) (input : Input) (separator : Option String) :
    Agree meaning inHand (startRepeated name scannerName input separator)
      (Session.startRepeated name scannerName input separator) := by
  refine bind_scanner scannerName fun scanner otherScanner same => ?_
  rw [(Config.uncached_eq_iff.mp same).1]
  exact bind (of_onInputs (.openInput _ input)) fun entry =>
    keepIteration name (by simp) entry _

theorem next (name : String) : Agree meaning inHand (next name) (Session.next name) := by
  refine bind_iteration name fun number otherNumber reader progress => ?_
  refine bind_planAt (by simp) fun shared otherShared _ compiled => ?_
  rw [compiled]
  refine bind (of_onInputs (.withReader reader _)) fun result => ?_
  obtain ⟨step, progress⟩ := result
  have finish : Agree meaning ((number, otherNumber) :: inHand)
      (do
        Session.keepIteration name { plan := number, reader, progress }
        return (step, progress))
      (do
        Session.keepIteration name { plan := otherNumber, reader, progress }
        return (step, progress)) :=
    bind (keepIteration name (by simp) reader progress) fun _ => pure _
  cases ran : hasRun progress with
  | true =>
    simp only [ran, if_true]
    exact bind (markCompiled _ _) fun _ => finish
  | false =>
    simp only [ran, Bool.false_eq_true, if_false]
    exact finish

end Agree

end Alike

end Session

end Unformat
