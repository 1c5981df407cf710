import Unformat.Proofs.Session.Alike

/-!
# The cache of plans cannot be seen

Scanners are made, from rules in either form and with any parameters, and run, in any order. What
comes of each request is what would come of it if no scanner were given room in the cache: plans
that are shared, dropped, built again or compiled before show in no result. A scanner that could
not be made leaves nothing behind, although its plan may stay in the cache.

The callables of a calling program have to allow for that: the rules are looked up in the cache, so
they have to be such that can be hashed, and callables that compare equal have to convert alike.
-/

namespace Unformat.Session

open Text (CharacterTable)

/-- How the rules of a scanner are given. -/
inductive RuleSource where
  | text (content : String)
  | values (specs : List Spec) (named : List (String × Spec))

theorem eq_ok_of_mapError {ε ω α : Type} {result : Except ε α} {change : ε → ω} {value : α}
    (done : result.mapError change = .ok value) : result = .ok value := by
  cases result with
  | error => cases done
  | ok other => exact congrArg Except.ok (Except.ok.inj done)

namespace RuleSource

/-- The types among the values have the property. -/
def EachType (holds : ScanType → Prop) : RuleSource → Prop
  | .text _ => True
  | .values specs named =>
      (∀ spec ∈ specs, spec.EachType holds) ∧ ∀ entry ∈ named, entry.2.EachType holds

variable [CharacterTable]

/-- The rules, as the types of a registry have them. -/
def rules (registry : Registry) : RuleSource → Except Failure RuleList
  | .text content => RuleList.read registry content
  | .values specs named => RuleList.collect registry specs named

def read : RuleSource → Action RuleList
  | .text content => readRules content
  | .values specs named => collectRules specs named

theorem perform_read (source : RuleSource) (session : Session) :
    perform source.read session = (source.rules session.registry, session) := by
  cases source <;> rfl

theorem EachType.of_rules {holds : ScanType → Prop} {source : RuleSource}
    (each : source.EachType holds) {registry : Registry} (known : registry.EachType holds)
    {rules : RuleList} (made : source.rules registry = .ok rules) : rules.EachType holds := by
  cases source with
  | text content => exact RuleList.eachType_of_parse known (eq_ok_of_mapError made)
  | values specs named =>
      exact RuleList.eachType_of_ofSpecs known each.1 each.2 (eq_ok_of_mapError made)

end RuleSource

section Requests

variable [CharacterTable] [PatternEngine]

/-- Make a scanner and look at its plan. -/
def construct (name template : String) (source : RuleSource) (config : Config) : Action Plan := do
  discard (makeScanner name template (← source.read) config)
  return (← planOf name).plan

/-- The plan of a scanner that is made on its own, outside of any session. -/
def planAlone (registry : Registry) (template : String) (source : RuleSource) (config : Config) :
    Except Failure Plan := do
  return (← Scanner.make template (← source.rules registry) config).plan

/-- What is asked of a session. -/
inductive Request where
  | construct (name template : String) (source : RuleSource) (config : Config)
  | compile (name : String)
  | scan (name : String) (input : Input)
  | startLines (name scanner : String) (input : Input) (onError : Option String)
  | startRepeated (name scanner : String) (input : Input) (separator : Option String)
  | next (name : String)
  | makeReader (name : String) (input : Input) (size : Int) (byLine : Bool)
  | register (type : ScanType) (aliases : List Designator) (replace : Bool)
  | clearCache

/-- What comes of a request that does not fail. -/
inductive Answer where
  | plan (plan : Plan)
  | patterns (count : Nat)
  | values (values : List Value)
  | step (step : ScanStep) (progress : Progress)
  | done

def handle : Request → Action Answer
  | .construct name template source config => do
      return .plan (← construct name template source config)
  | .compile name => do return .patterns (← compile name)
  | .scan name input => do return .values (← scan name input)
  | .startLines name scanner input onError => do
      startLines name scanner input onError
      return .done
  | .startRepeated name scanner input separator => do
      startRepeated name scanner input separator
      return .done
  | .next name => do
      let (step, progress) ← next name
      return .step step progress
  | .makeReader name input size byLine => do
      makeReader name input size byLine
      return .done
  | .register type aliases replace => do
      register type aliases replace
      return .done
  | .clearCache => do
      clearCache
      return .done

/-- The request, if scanners are given no room in the cache. -/
def Request.uncached : Request → Request
  | .construct name template source config => .construct name template source config.uncached
  | other => other

/-- The callables that a request brings can be hashed, and convert as their identities say. -/
def Request.Follows (meaning : Meaning) : Request → Prop
  | .construct _ _ source _ => source.EachType (ScanType.Follows meaning)
  | .register type _ _ => type.Follows meaning
  | _ => True

/-- The answers to requests that are made one after the other. -/
def answers : List Request → Session → List (Except Failure Answer)
  | [], _ => []
  | request :: rest, session =>
      let (answer, session) := perform (handle request) session
      answer :: answers rest session

/-- The session after some requests. -/
def reached (requests : List Request) (session : Session) : Session :=
  requests.foldl (fun session request => (perform (handle request) session).2) session

/-! ## One request -/

theorem planAlone_uncached (registry : Registry) (template : String) (source : RuleSource)
    (config : Config) :
    planAlone registry template source config.uncached =
      planAlone registry template source config := by
  have checking (plan : Plan) : checked config.uncached plan = checked config plan := rfl
  unfold planAlone
  cases source.rules registry with
  | error failure => rfl
  | ok rules =>
    simp only [make_eq, checking, Bind.bind, Except.bind]
    cases Plan.build template rules with
    | error failure => rfl
    | ok plan => cases check : checked config plan <;> simp only [check]

variable {meaning : Meaning} {session : Session}

omit [CharacterTable] [PatternEngine] in
theorem perform_scanner {name : String} {entry : ScannerEntry}
    (kept : session.scanners.lookup name = some entry) :
    perform (scanner name) session = (.ok entry, session) := by
  simp [scanner, perform_bind_get, find, kept]

omit [CharacterTable] in
/-- A scanner that was just kept is found, with its plan. -/
theorem perform_planOf_withScanner (sound : session.Sound meaning) (name : String) {number : Nat}
    {plan : Plan} (has : session.HasPlan number plan) (config : Config) :
    ∃ shared, perform (planOf name) (session.withScanner name ⟨number, config⟩) =
      (.ok shared, session.withScanner name ⟨number, config⟩) ∧ shared.plan = plan := by
  have kept : (session.withScanner name ⟨number, config⟩).scanners.lookup name =
      some ⟨number, config⟩ := by
    simp [withScanner, keep]
  have stillSound : (session.withScanner name ⟨number, config⟩).Sound meaning :=
    ⟨sound.compiled, sound.cached, sound.types⟩
  obtain ⟨shared, looked, same, -⟩ := perform_planAt stillSound has
  refine ⟨shared, ?_, same⟩
  rw [planOf, perform_bind_of_ok (perform_scanner kept), looked]

/-- A construction fails in a session as it fails on its own, and adds nothing to the session but
plans that no scanner has; or it gives the plan that it gives on its own, and keeps a scanner. -/
theorem perform_construct (sound : session.Sound meaning) (name template : String)
    {source : RuleSource} (each : source.EachType (ScanType.Follows meaning)) (config : Config) :
    ∃ after, Grows meaning session after ∧
      ((∃ failure, planAlone session.registry template source config = .error failure ∧
          perform (construct name template source config) session = (.error failure, after)) ∨
        ∃ plan number, planAlone session.registry template source config = .ok plan ∧
          perform (construct name template source config) session =
            (.ok plan, after.withScanner name { plan := number, config }) ∧
              after.HasPlan number plan) := by
  have given := source.perform_read session
  unfold construct planAlone
  cases read : source.rules session.registry with
  | error failure =>
    rw [read] at given
    exact ⟨session, .refl sound, .inl ⟨failure, rfl, perform_bind_of_error given _⟩⟩
  | ok rules =>
    rw [read] at given
    rw [perform_bind_of_ok given]
    obtain ⟨after, grows, ⟨failure, made, failed⟩ | ⟨scanner, told, number, made, done, has⟩⟩ :=
      perform_makeScanner sound name template (each.of_rules sound.types read) config
    · refine ⟨after, grows, .inl ⟨failure, by simp only [made, Bind.bind, Except.bind], ?_⟩⟩
      rw [perform_bind, perform_discard, failed]
      rfl
    · obtain ⟨shared, looked, same⟩ := perform_planOf_withScanner grows.sound name has config
      refine ⟨after, grows, .inr ⟨scanner.plan, number, ?_, ?_, has⟩⟩
      · simp only [made, Bind.bind, Except.bind]
        rfl
      · rw [perform_bind, perform_discard, done]
        simp only [Except.map, perform_bind_of_ok looked, same, perform_pure]

/-- Making a scanner comes to the same with any room in the cache. -/
theorem Agree.construct (name template : String) {source : RuleSource}
    (each : source.EachType (ScanType.Follows meaning)) (config : Config)
    (inHand : List (Nat × Nat)) :
    Agree meaning inHand (construct name template source config)
      (Session.construct name template source config.uncached) := by
  intro one other alike
  obtain ⟨after, grows, outcome⟩ := perform_construct alike.sound name template each config
  obtain ⟨otherAfter, otherGrows, otherOutcome⟩ :=
    perform_construct alike.otherSound name template each config.uncached
  rw [planAlone_uncached, ← registry_eq_of_inputs alike.inputs] at otherOutcome
  have grown := alike.grow grows otherGrows
  -- What is made alone decides on both sides, so neither fails where the other succeeds.
  rcases outcome with ⟨failure, alone, failed⟩ | ⟨plan, number, alone, done, has⟩ <;>
    rcases otherOutcome with
      ⟨otherFailure, otherAlone, otherFailed⟩ |
        ⟨otherPlan, otherNumber, otherAlone, otherDone, otherHas⟩ <;>
      rw [alone] at otherAlone <;> cases otherAlone
  · rw [failed, otherFailed]
    exact ⟨rfl, grown⟩
  · rw [done, otherDone]
    exact ⟨rfl, grown.withScanner name ⟨⟨plan, has, otherHas⟩, rfl⟩⟩

/-- No request shows how much room the cache has. -/
theorem agree_handle {request : Request} (follows : request.Follows meaning)
    (inHand : List (Nat × Nat)) :
    Agree meaning inHand (handle request) (handle request.uncached) := by
  cases request with
  | construct name template source config =>
    exact .bind (.construct name template follows config inHand) fun _ => .pure _
  | compile name => exact .bind (.compile name) fun _ => .pure _
  | scan name input => exact .bind (.scan name input) fun _ => .pure _
  | startLines name scanner input onError =>
    exact .bind (.startLines name scanner input onError) fun _ => .pure _
  | startRepeated name scanner input separator =>
    exact .bind (.startRepeated name scanner input separator) fun _ => .pure _
  | next name => exact .bind (.next name) fun _ => .pure _
  | makeReader name input size byLine =>
    exact .bind (.of_onInputs (.makeReader name input size byLine)) fun _ => .pure _
  | register type aliases replace =>
    exact .bind (.of_onInputs (.register follows aliases replace)) fun _ => .pure _
  | clearCache => exact .bind .clearCache fun _ => .pure _

/-! ## Any number of requests -/

theorem answers_uncached {one other : Session} (alike : Alike meaning [] one other)
    {requests : List Request} (follow : ∀ request ∈ requests, request.Follows meaning) :
    answers requests one = answers (requests.map .uncached) other := by
  induction requests generalizing one other with
  | nil => rfl
  | cons request rest ih =>
    obtain ⟨first, later⟩ := List.forall_mem_cons.mp follow
    obtain ⟨result, after⟩ := agree_handle first [] one other alike
    simp only [answers, List.map_cons, result, ih after later]

theorem alike_reached {one other : Session} (alike : Alike meaning [] one other)
    {requests : List Request} (follow : ∀ request ∈ requests, request.Follows meaning) :
    Alike meaning [] (reached requests one) (reached (requests.map .uncached) other) := by
  induction requests generalizing one other with
  | nil => exact alike
  | cons request rest ih =>
    obtain ⟨first, later⟩ := List.forall_mem_cons.mp follow
    exact ih (agree_handle first [] one other alike).2 later

theorem reached_construct (before : List Request) (session : Session) (name template : String)
    (source : RuleSource) (config : Config) :
    reached (before ++ [.construct name template source config]) session =
      (perform (construct name template source config) (reached before session)).2 := by
  simp only [reached, List.foldl_append, List.foldl_cons, List.foldl_nil, handle, perform_bind]
  generalize before.foldl _ session = middle
  rcases perform (construct name template source config) middle with ⟨_ | _, _⟩ <;> rfl

/-- A construction that fails leaves a session that only its plans and its cache tell from the
session before. -/
theorem grows_of_construct_error (sound : session.Sound meaning) {name template : String}
    {source : RuleSource} (each : source.EachType (ScanType.Follows meaning)) {config : Config}
    {failure : Failure}
    (failed : (perform (construct name template source config) session).1 = .error failure) :
    Grows meaning session (perform (construct name template source config) session).2 := by
  obtain ⟨after, grows, ⟨reason, -, done⟩ | ⟨plan, number, -, done, -⟩⟩ :=
    perform_construct sound name template each config
  · rw [done]
    exact grows
  · rw [done] at failed
    cases failed

omit [CharacterTable] in
theorem perform_compile_of_fault (sound : session.Sound meaning) {name : String}
    {entry : ScannerEntry} {plan : Plan} {fault : PatternFault}
    (kept : session.scanners.lookup name = some entry) (has : session.HasPlan entry.plan plan)
    (unreadable : plan.compile = .error fault) :
    (perform (compile name) session).1 = .error (.ofFault (.pattern fault)) := by
  have compiling : perform (compilePlan entry.plan) session =
      (.error (.ofFault (.pattern fault)), session.marked entry.plan) := by
    rw [perform_compilePlan sound has, Plan.ready, unreadable]
    rfl
  rw [compile, perform_bind_of_ok (perform_scanner kept), perform_bind_of_error compiling]

omit [CharacterTable] in
theorem perform_scan_of_fault (sound : session.Sound meaning) {name : String}
    {entry : ScannerEntry} {plan : Plan} {fault : PatternFault}
    (kept : session.scanners.lookup name = some entry) (has : session.HasPlan entry.plan plan)
    (unreadable : plan.compile = .error fault)
    {input : Input} {reader : ReaderEntry}
    (opens : (perform (openInput entry.config.bufferSize input) session).1 = .ok reader) :
    (perform (scan name input) session).1 = .error (.ofFault (.pattern fault)) := by
  have onInputs : OnInputs (ScanType.Follows meaning) (openInput entry.config.bufferSize input) :=
    .openInput _ _
  obtain ⟨-, behind⟩ := onInputs.alike session session rfl
  have types := onInputs.types session sound.types
  rw [behind] at types
  generalize (perform (openInput entry.config.bufferSize input) session).2.inputs = inputs
    at behind types
  have opened : perform (openInput entry.config.bufferSize input) session =
      (.ok reader, session.withInputs inputs) := Prod.ext opens behind
  have stillSound : (session.withInputs inputs).Sound meaning :=
    ⟨sound.compiled, sound.cached, types⟩
  have stillHas : (session.withInputs inputs).HasPlan entry.plan plan := has
  obtain ⟨shared, looked, -, compiled⟩ :=
    perform_planAt (stillSound.marked entry.plan).sound (stillHas.marked entry.plan)
  rw [scan, perform_bind_of_ok (perform_scanner kept), perform_bind_of_ok opened,
    perform_bind_of_ok (perform_markCompiled _ _), perform_bind_of_ok looked, compiled, unreadable]
  rfl

/-- A callable that cannot be hashed shows how much room the cache has: with any, no scanner is made
of its rules. -/
theorem perform_construct_of_unhashable {rules : RuleList} {kind : String}
    (unhashable : rules.unhashable? = some kind) {source : RuleSource}
    (read : source.rules session.registry = .ok rules) {config : Config}
    (room : 0 < config.cacheCapacity) (name template : String) :
    (perform (construct name template source config) session).1 = .error (.unhashable kind) := by
  have given := source.perform_read session
  rw [read] at given
  have looking (middle : Session) :
      perform (cachedPlan template rules) middle = (.error (.unhashable kind), middle) := by
    unfold cachedPlan
    rw [unhashable]
    rfl
  have planning : perform (planFor template rules config.cacheCapacity) session =
      (.error (.unhashable kind), session.withCapacity config.cacheCapacity.toNat) := by
    rw [planFor, if_neg (Int.not_le.mpr room), perform_bind_of_ok (perform_resizeCache _ _),
      perform_bind_of_error (looking _)]
  rw [construct, perform_bind_of_ok given, perform_bind, perform_discard, makeScanner,
    perform_bind_of_error planning]
  rfl

end Requests

theorem exists_error_of_isOk_eq_false {ε α : Type} {result : Except ε α}
    (failed : result.isOk = false) : ∃ error, result = .error error := by
  cases result with
  | error error => exact ⟨error, rfl⟩
  | ok value => cases failed

theorem exists_ok_of_isOk {ε α : Type} {result : Except ε α} (done : result.isOk = true) :
    ∃ value, result = .ok value := by
  cases result with
  | error error => cases done
  | ok value => exact ⟨value, rfl⟩

/-- Callables that compare equal although they convert differently show it too: the second scanner
has the plan of the first. -/
example :
    let source (value : Int) := RuleSource.values
      [.type ⟨"answer", .supplied { convert := fun _ => .ok (.int value), identity := 0 }, "."⟩] []
    let made (config : Config) := reached
      [.construct "a" "\x7b\x7d" (source 1) config, .construct "b" "\x7b\x7d" (source 2) config] {}
    let second (config : Config) := (perform (scan "b" (.source (.text "x"))) (made config)).1
    (second {}).toOption = some [.int 1] ∧
      (second { cacheCapacity := 0 }).toOption = some [.int 2] := by
  decide +kernel

end Unformat.Session
