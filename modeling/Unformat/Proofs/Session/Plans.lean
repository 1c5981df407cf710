import Unformat.Proofs.Plan.Caching
import Unformat.Proofs.Session.Callables
import Unformat.Proofs.Session.Performing
import Unformat.Session.Plans

/-!
# The plans of a session

Whatever the cache keeps under a template and rules is what building them gives, so that a hit, a
miss and a cache that is left alone come to the same plan, as long as rules that compare equal are
the same. A plan that a session has it never loses, whatever the cache drops.
-/

namespace Unformat

namespace Session

/-- The session has this plan, under this number. -/
def HasPlan (session : Session) (number : Nat) (plan : Plan) : Prop :=
  ∃ shared, session.plans[number]? = some shared ∧ shared.plan = plan

variable [PatternEngine]

/-- The plans of a session are compiled as they stand, the cache keeps what building its keys gives,
and the callables of its keys and of the registry can be told apart. -/
structure Sound (meaning : Meaning) (session : Session) : Prop where
  compiled : ∀ shared ∈ session.plans, shared.compiled = shared.plan.compile
  cached : ∀ template rules number, ((template, rules), number) ∈ session.cache.entries →
    rules.EachType (ScanType.Follows meaning) ∧
      ∃ plan, Plan.build template rules = .ok plan ∧ session.HasPlan number plan
  types : session.registry.EachType (ScanType.Follows meaning)

variable {meaning : Meaning}

theorem sound_empty : Sound meaning {} where
  compiled := by simp
  cached := by simp
  types := Registry.follows_builtin

/-- What happens to a session when only its plans and its cache are at stake: what was made under
some name or number is still there. -/
structure Grows (meaning : Meaning) (session after : Session) : Prop where
  sound : after.Sound meaning
  inputs : after.inputs = session.inputs
  scanners : after.scanners = session.scanners
  iterations : after.iterations = session.iterations
  keeps : ∀ {number plan}, session.HasPlan number plan → after.HasPlan number plan

namespace Grows

theorem refl {session : Session} (sound : session.Sound meaning) : Grows meaning session session :=
  ⟨sound, rfl, rfl, rfl, id⟩

theorem trans {first second third : Session} (one : Grows meaning first second)
    (other : Grows meaning second third) : Grows meaning first third where
  sound := other.sound
  inputs := other.inputs.trans one.inputs
  scanners := other.scanners.trans one.scanners
  iterations := other.iterations.trans one.iterations
  keeps has := other.keeps (one.keeps has)

end Grows

section Growing

variable {session : Session}

/-- The cache may change in any way that takes up nothing but what is built from its key. -/
theorem Sound.with_cache (sound : session.Sound meaning) {cache : Cache (String × RuleList) Nat}
    (cached : ∀ template rules number, ((template, rules), number) ∈ cache.entries →
      ((template, rules), number) ∈ session.cache.entries ∨
        rules.EachType (ScanType.Follows meaning) ∧
          ∃ plan, Plan.build template rules = .ok plan ∧ session.HasPlan number plan) :
    Grows meaning session { session with cache } where
  sound :=
    { compiled := sound.compiled
      cached := by
        intro template rules number kept
        rcases cached template rules number kept with old | built
        · exact sound.cached template rules number old
        · exact built
      types := sound.types }
  inputs := rfl
  scanners := rfl
  iterations := rfl
  keeps := id

theorem Sound.clear (sound : session.Sound meaning) :
    Grows meaning session { session with cache := session.cache.clear } :=
  sound.with_cache (by simp [Cache.clear])

/-- The session behind `addPlan`. -/
def withPlan (session : Session) (plan : Plan) : Session :=
  { session with plans := session.plans ++ [{ plan, compiled := plan.compile }] }

@[simp] theorem perform_addPlan (plan : Plan) (session : Session) :
    perform (addPlan plan) session = (.ok session.plans.length, session.withPlan plan) := rfl

theorem hasPlan_withPlan (session : Session) (plan : Plan) :
    (session.withPlan plan).HasPlan session.plans.length plan :=
  ⟨{ plan, compiled := plan.compile }, by simp [withPlan], rfl⟩

theorem HasPlan.with_plan {number : Nat} {plan : Plan} (has : session.HasPlan number plan)
    (other : Plan) : (session.withPlan other).HasPlan number plan := by
  obtain ⟨shared, found, same⟩ := has
  refine ⟨shared, ?_, same⟩
  obtain ⟨bound, _⟩ := List.getElem?_eq_some_iff.mp found
  simpa [withPlan, List.getElem?_append_left bound] using found

theorem Sound.with_plan (sound : session.Sound meaning) (plan : Plan) :
    Grows meaning session (session.withPlan plan) where
  sound :=
    { compiled := by
        intro shared member
        rcases List.mem_append.mp member with old | new
        · exact sound.compiled shared old
        · simp [List.mem_singleton.mp new]
      cached := by
        intro template rules number kept
        obtain ⟨follows, built, build, has⟩ := sound.cached template rules number kept
        exact ⟨follows, built, build, has.with_plan plan⟩
      types := sound.types }
  inputs := rfl
  scanners := rfl
  iterations := rfl
  keeps has := has.with_plan plan

/-- The session behind `markCompiled`. -/
def marked (session : Session) (number : Nat) : Session :=
  { session with
    plans := session.plans.modify number fun shared => { shared with isCompiled := true } }

omit [PatternEngine] in
@[simp] theorem perform_markCompiled (number : Nat) (session : Session) :
    perform (markCompiled number) session = (.ok (), session.marked number) := rfl

omit [PatternEngine] in
theorem HasPlan.marked {number : Nat} {plan : Plan} (has : session.HasPlan number plan)
    (other : Nat) : (session.marked other).HasPlan number plan := by
  obtain ⟨shared, found, same⟩ := has
  by_cases hit : other = number
  · refine ⟨{ shared with isCompiled := true }, ?_, same⟩
    simp [Session.marked, hit, found]
  · refine ⟨shared, ?_, same⟩
    simp [Session.marked, hit, found]

theorem Sound.marked (sound : session.Sound meaning) (number : Nat) :
    Grows meaning session (session.marked number) where
  sound :=
    { compiled := by
        intro shared member
        obtain ⟨place, found⟩ := List.mem_iff_getElem?.mp member
        rw [Session.marked, List.getElem?_modify] at found
        obtain ⟨old, present, rfl⟩ := Option.map_eq_some_iff.mp found
        have compiled := sound.compiled old (List.mem_of_getElem? present)
        split <;> exact compiled
      cached := by
        intro template rules other kept
        obtain ⟨follows, plan, build, has⟩ := sound.cached template rules other kept
        exact ⟨follows, plan, build, has.marked number⟩
      types := sound.types }
  inputs := rfl
  scanners := rfl
  iterations := rfl
  keeps has := has.marked number

/-! ## Making scanners -/

/-- The session behind `resizeCache`. -/
def withCapacity (session : Session) (capacity : Nat) : Session :=
  if capacity = session.cache.capacity then session
  else { session with cache := session.cache.resize capacity }

omit [PatternEngine] in
@[simp] theorem perform_resizeCache (capacity : Nat) (session : Session) :
    perform (resizeCache capacity) session = (.ok (), session.withCapacity capacity) := rfl

theorem Sound.with_capacity (sound : session.Sound meaning) (capacity : Nat) :
    Grows meaning session (session.withCapacity capacity) := by
  unfold withCapacity
  split
  · exact .refl sound
  · exact sound.with_cache fun _ _ _ member => .inl (Cache.mem_of_mem_resize member)

/-- What looking a plan up comes to: what was found, if anything, is what building the key gives,
and the cache keeps nothing new. -/
theorem perform_cachedPlan (sound : session.Sound meaning) (template : String) {rules : RuleList}
    (follows : rules.EachType (ScanType.Follows meaning)) :
    ∃ after found, perform (cachedPlan template rules) session = (.ok found, after) ∧
      Grows meaning session after ∧ ∀ number, found = some number →
        ∃ plan, Plan.build template rules = .ok plan ∧ after.HasPlan number plan := by
  refine ⟨{ session with cache := (session.cache.get (template, rules)).2 },
    (session.cache.get (template, rules)).1, ?_, ?_, ?_⟩
  · unfold cachedPlan
    rw [RuleList.unhashable?_of_follows follows]
    rfl
  · exact sound.with_cache fun _ _ _ member => .inl (by rwa [Cache.entries_get] at member)
  · intro number hit
    obtain ⟨⟨other, otherRules⟩, kept, same⟩ := Cache.exists_of_get hit
    obtain ⟨templates, equal⟩ := Bool.and_eq_true_iff.mp same
    obtain ⟨otherFollows, plan, build, has⟩ := sound.cached _ _ _ kept
    -- The key that was found compares equal, and so it is the key that was looked up.
    rw [← eq_of_beq templates, ← RuleList.eq_of_follows follows otherFollows equal] at build
    exact ⟨plan, build, has⟩

theorem Sound.put (sound : session.Sound meaning) {template : String} {rules : RuleList}
    (follows : rules.EachType (ScanType.Follows meaning)) {plan : Plan} {number : Nat}
    (build : Plan.build template rules = .ok plan) (has : session.HasPlan number plan) :
    Grows meaning session
      { session with cache := session.cache.put (template, rules) number } := by
  refine sound.with_cache fun other otherRules otherNumber member => ?_
  rcases Cache.cases_of_mem_put member with old | new | ⟨⟨⟨_, _⟩, _⟩, kept, same, replaced⟩
  · exact .inl old
  · cases new
    exact .inr ⟨follows, plan, build, has⟩
  · cases replaced
    obtain ⟨templates, equal⟩ := Bool.and_eq_true_iff.mp same
    obtain ⟨otherFollows, -⟩ := sound.cached _ _ _ kept
    refine .inr ⟨otherFollows, plan, ?_, has⟩
    rwa [eq_of_beq templates, RuleList.eq_of_follows otherFollows follows equal]

/-- A scanner gets what building its template and rules gives, whatever the cache keeps and however
much it may keep. -/
theorem perform_planFor (sound : session.Sound meaning) (template : String) {rules : RuleList}
    (follows : rules.EachType (ScanType.Follows meaning)) (capacity : Int) :
    ∃ after, Grows meaning session after ∧
      ((∃ failure, Plan.build template rules = .error failure ∧
          perform (planFor template rules capacity) session = (.error failure, after)) ∨
        ∃ plan number, Plan.build template rules = .ok plan ∧
          perform (planFor template rules capacity) session = (.ok number, after) ∧
            after.HasPlan number plan) := by
  unfold planFor
  by_cases unused : capacity ≤ 0
  · simp only [unused, if_true]
    cases build : Plan.build template rules with
    | error failure => exact ⟨session, .refl sound, .inl ⟨failure, rfl, by simp [perform_bind]⟩⟩
    | ok plan =>
      exact ⟨session.withPlan plan, sound.with_plan plan,
        .inr ⟨plan, _, rfl, by simp [perform_bind], hasPlan_withPlan session plan⟩⟩
  · simp only [unused, if_false]
    have sized := sound.with_capacity capacity.toNat
    obtain ⟨middle, found, looked, further, known⟩ :=
      perform_cachedPlan sized.sound template follows
    have grows := sized.trans further
    cases found with
    | some number =>
      -- A hit gives what building the key gave when it was put into the cache.
      obtain ⟨plan, build, has⟩ := known number rfl
      exact ⟨middle, grows, .inr ⟨plan, number, build, by simp [perform_bind, looked], has⟩⟩
    | none =>
      cases build : Plan.build template rules with
      | error failure =>
        exact ⟨middle, grows, .inl ⟨failure, rfl, by simp [perform_bind, looked]⟩⟩
      | ok plan =>
        have added := grows.sound.with_plan plan
        have has := hasPlan_withPlan middle plan
        exact ⟨_, (grows.trans added).trans (added.sound.put follows build has),
          .inr ⟨plan, _, rfl, by simp [perform_bind, looked]; rfl, has⟩⟩

theorem perform_planAt {number : Nat} {plan : Plan} (sound : session.Sound meaning)
    (has : session.HasPlan number plan) :
    ∃ shared, perform (planAt number) session = (.ok shared, session) ∧
      shared.plan = plan ∧ shared.compiled = plan.compile := by
  obtain ⟨shared, found, same⟩ := has
  refine ⟨shared, ?_, same, ?_⟩
  · simp [planAt, perform_bind_get, found]
  · rw [sound.compiled shared (List.mem_of_getElem? found), same]

theorem perform_compilePlan {number : Nat} {plan : Plan} (sound : session.Sound meaning)
    (has : session.HasPlan number plan) :
    perform (compilePlan number) session = (plan.ready, session.marked number) := by
  obtain ⟨shared, found, -, compiled⟩ :=
    perform_planAt (sound.marked number).sound (has.marked number)
  simp [compilePlan, perform_bind, found, compiled, Plan.ready]

/-- A scanner is kept under a name. -/
def withScanner (session : Session) (name : String) (entry : ScannerEntry) : Session :=
  { session with scanners := keep session.scanners name entry }

/-- Whether the patterns of a plan can be read, if that is asked for. -/
def checked (config : Config) (plan : Plan) : Except Failure Unit :=
  if config.eagerCompile then discard plan.ready else .ok ()

theorem make_eq (template : String) (rules : RuleList) (config : Config) :
    Scanner.make template rules config =
      Plan.build template rules >>= fun plan =>
        checked config plan >>= fun _ => .ok { plan, compiled := plan.compile, config } := by
  unfold Scanner.make checked
  cases config.eagerCompile <;> rfl

/-- The middle of `makeScanner`. -/
def prepare (number : Nat) (config : Config) : Action Unit :=
  if config.eagerCompile then discard (compilePlan number) else pure ()

/-- The end of `makeScanner`, when the plan is there and nothing more can fail. -/
def report (name : String) (number : Nat) (config : Config) : Action ScannerReport := do
  let shared ← planAt number
  let sharing := sharers (← get) number
  modify fun session => session.withScanner name { plan := number, config }
  return {
    arity := shared.plan.arity
    shown := Scanner.describe shared.plan
    sharing
    isCompiled := shared.isCompiled
    warnings := config.warnings }

theorem makeScanner_eq (name template : String) (rules : RuleList) (config : Config) :
    makeScanner name template rules config =
      planFor template rules config.cacheCapacity >>= fun number =>
        prepare number config >>= fun _ => report name number config := by
  unfold makeScanner prepare report
  congr
  funext number
  cases config.eagerCompile <;> rfl

theorem perform_prepare (sound : session.Sound meaning) {number : Nat} {plan : Plan}
    (has : session.HasPlan number plan) (config : Config) :
    ∃ after, Grows meaning session after ∧
      perform (prepare number config) session = (checked config plan, after) := by
  unfold prepare checked
  cases config.eagerCompile with
  | false => exact ⟨session, .refl sound, rfl⟩
  | true =>
    refine ⟨session.marked number, sound.marked number, ?_⟩
    simp only [if_true, perform_discard, perform_compilePlan sound has]
    cases plan.ready <;> rfl

theorem perform_report (sound : session.Sound meaning) {number : Nat} {plan : Plan}
    (has : session.HasPlan number plan) (name : String) (config : Config) :
    ∃ told, perform (report name number config) session =
      (.ok told, session.withScanner name { plan := number, config }) := by
  obtain ⟨shared, looked, -, -⟩ := perform_planAt sound has
  exact ⟨_, by simp [report, perform_bind, looked]; rfl⟩

/-- A scanner is made in a session if it can be made on its own, and fails for the same reason if
it cannot. In the session it has the plan that it would have on its own. -/
theorem perform_makeScanner (sound : session.Sound meaning) (name template : String)
    {rules : RuleList} (follows : rules.EachType (ScanType.Follows meaning)) (config : Config) :
    ∃ after, Grows meaning session after ∧
      ((∃ failure, Scanner.make template rules config = .error failure ∧
          perform (makeScanner name template rules config) session = (.error failure, after)) ∨
        ∃ scanner told number, Scanner.make template rules config = .ok scanner ∧
          perform (makeScanner name template rules config) session =
            (.ok told, after.withScanner name { plan := number, config }) ∧
              after.HasPlan number scanner.plan) := by
  rw [makeScanner_eq, make_eq]
  obtain ⟨middle, grows, ⟨failure, build, failed⟩ | ⟨plan, number, build, found, has⟩⟩ :=
    perform_planFor sound template follows config.cacheCapacity
  · exact ⟨middle, grows, .inl ⟨failure, by rw [build]; rfl, perform_bind_of_error failed _⟩⟩
  · obtain ⟨after, further, prepared⟩ := perform_prepare grows.sound has config
    rw [perform_bind_of_ok found]
    refine ⟨after, grows.trans further, ?_⟩
    cases check : checked config plan with
    | error failure =>
      rw [check] at prepared
      exact .inl ⟨failure, by simp [build, check, Bind.bind, Except.bind],
        perform_bind_of_error prepared _⟩
    | ok =>
      rw [check] at prepared
      obtain ⟨told, reported⟩ := perform_report further.sound (further.keeps has) name config
      exact .inr ⟨⟨plan, plan.compile, config⟩, told, number,
        by simp only [build, check, Bind.bind, Except.bind],
        by rw [perform_bind_of_ok prepared, reported], further.keeps has⟩

end Growing

end Session

end Unformat
