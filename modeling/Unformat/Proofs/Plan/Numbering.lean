import Unformat.Plan.Bind

/-!
# The numbers that order gives

Captures that leave their slot to the order are numbered 0, 1, 2, … by the captures of that kind
before them, and so, independently, are those that leave their rule to the order.  Here the numbers
are said place by place, and `resolve`, which carries two counters along, is shown to give them.
-/

namespace Unformat

namespace Binding

/-- How many captures leave their slot to the order. -/
def slotsByOrder (segments : List Segment) : Nat :=
  (captures segments).countP fun capture => capture.slot = .next

/-- How many captures leave their rule to the order. -/
def rulesByOrder (segments : List Segment) : Nat :=
  (captures segments).countP fun capture => capture.rule = .next

/-- What a capture refers to once the order has been counted. -/
inductive Target where
  | positional (index : Nat)
  | named (name : String)
  deriving Repr, DecidableEq

namespace Target

def index (rules : RuleList) : Target → Nat
  | .positional index => index
  | .named name => rules.positional.length + rules.names.idxOf name

def Exists (rules : RuleList) : Target → Prop
  | .positional index => index < rules.positional.length
  | .named name => name ∈ rules.names

def name? : Target → Option String
  | .positional _ => none
  | .named name => some name

def position? : Target → Option Nat
  | .positional index => some index
  | .named _ => none

@[simp] theorem name?_positional (index : Nat) : (positional index).name? = none := rfl

@[simp] theorem name?_named (name : String) : (named name).name? = some name := rfl

@[simp] theorem position?_positional (index : Nat) :
    (positional index).position? = some index := rfl

@[simp] theorem position?_named (name : String) : (named name).position? = none := rfl

end Target

/-- The slot of a capture behind the segments `before`. -/
def slotAfter (before : List Segment) : SlotRef → Option Nat
  | .discard => none
  | .number index => some index
  | .next => some (slotsByOrder before)

/-- What a capture behind the segments `before` refers to. -/
def targetAfter (before : List Segment) : RuleRef → Target
  | .number index => .positional index
  | .named name => .named name
  | .next => .positional (rulesByOrder before)

/-- A capture with the place of its segment, its slot and its rule. -/
structure Placed where
  place : Nat
  slot : Option Nat
  target : Target
  deriving Repr, DecidableEq

/-- What the order makes of the segment at a place of a template. -/
def placedAt (segments : List Segment) : Segment × Nat → Option Placed
  | (.literal _, _) => none
  | (.capture capture _, place) =>
      some ⟨place, slotAfter (segments.take place) capture.slot,
        targetAfter (segments.take place) capture.rule⟩

/-- The captures of a template with the numbers that order gives them. -/
def placed (segments : List Segment) : List Placed :=
  segments.zipIdx.filterMap (placedAt segments)

def slots (segments : List Segment) : List Nat :=
  (placed segments).filterMap Placed.slot

/-- The part of the plan for the segment at a place. -/
def planned (rules : RuleList) (segments : List Segment) : Segment × Nat → PlanSegment
  | (.literal text, _) => .literal text
  | (.capture capture _, place) =>
      .capture (slotAfter (segments.take place) capture.slot)
        ((targetAfter (segments.take place) capture.rule).index rules)

/-- The resolution of the segment at a place. -/
def resolutionAt (rules : RuleList) (segments : List Segment) (entry : Segment × Nat) :
    Resolution :=
  match (placedAt segments entry).bind fun capture => capture.target.name? with
  | none => .resolved entry.2 (planned rules segments entry)
  | some name =>
      if name ∈ rules.names then .resolved entry.2 (planned rules segments entry)
      else .unknownName name

/-! ## Counting along -/

theorem slotsByOrder_append_literal (before : List Segment) (text : String) :
    slotsByOrder (before ++ [.literal text]) = slotsByOrder before := by
  simp [slotsByOrder, captures, Segment.capture?]

theorem rulesByOrder_append_literal (before : List Segment) (text : String) :
    rulesByOrder (before ++ [.literal text]) = rulesByOrder before := by
  simp [rulesByOrder, captures, Segment.capture?]

theorem slotsByOrder_append_capture
    (before : List Segment) (capture : Capture) (offset : Nat) :
    slotsByOrder (before ++ [.capture capture offset]) =
      slotsByOrder before + if capture.slot = .next then 1 else 0 := by
  simp [slotsByOrder, captures, Segment.capture?, List.countP_singleton]

theorem rulesByOrder_append_capture
    (before : List Segment) (capture : Capture) (offset : Nat) :
    rulesByOrder (before ++ [.capture capture offset]) =
      rulesByOrder before + if capture.rule = .next then 1 else 0 := by
  simp [rulesByOrder, captures, Segment.capture?, List.countP_singleton]

def countersAfter (before : List Segment) : Counters :=
  ⟨slotsByOrder before, rulesByOrder before⟩

theorem countersAfter_append_literal (before : List Segment) (text : String) :
    countersAfter (before ++ [.literal text]) = countersAfter before := by
  simp [countersAfter, slotsByOrder_append_literal, rulesByOrder_append_literal]

theorem slotOf_countersAfter (before : List Segment) (rule : Nat) (reference : SlotRef) :
    slotOf ⟨slotsByOrder before, rule⟩ reference =
      (slotAfter before reference,
        ⟨slotsByOrder before + if reference = .next then 1 else 0, rule⟩) := by
  cases reference <;> simp [slotOf, slotAfter]

theorem namedRule?_of_mem {rules : RuleList} {name : String} (known : name ∈ rules.names) :
    namedRule? rules name = some ((Target.named name).index rules) := by
  have found : rules.names.idxOf? name = some (rules.names.idxOf name) := by
    rw [List.idxOf?_eq_some_iff]
    have bound := List.idxOf_lt_length_iff.mpr known
    refine ⟨bound, List.getElem_idxOf bound, ?_⟩
    intro earlier earlierBound
    simpa using List.not_of_lt_findIdx earlierBound
  simp [namedRule?, found, Target.index]

theorem namedRule?_of_not_mem {rules : RuleList} {name : String} (unknown : name ∉ rules.names) :
    namedRule? rules name = none := by
  simp [namedRule?, List.idxOf?_eq_none_iff.mpr unknown]

theorem resolve_countersAfter (rules : RuleList) (before rest : List Segment) :
    resolve rules before.length (countersAfter before) rest =
      (rest.zipIdx before.length).map (resolutionAt rules (before ++ rest)) := by
  induction rest generalizing before with
  | nil => rfl
  | cons segment rest ih =>
      have shifted := ih (before ++ [segment])
      simp only [List.append_assoc, List.singleton_append, List.length_append,
        List.length_singleton] at shifted
      rw [List.zipIdx_cons, List.map_cons]
      cases segment with
      | literal text =>
          rw [countersAfter_append_literal] at shifted
          rw [resolve, shifted]
          simp [resolutionAt, placedAt, planned]
      | capture capture offset =>
          have counters : countersAfter (before ++ [.capture capture offset]) =
              ⟨slotsByOrder before + if capture.slot = .next then 1 else 0,
                rulesByOrder before + if capture.rule = .next then 1 else 0⟩ := by
            simp [countersAfter, slotsByOrder_append_capture, rulesByOrder_append_capture]
          rw [counters] at shifted
          rw [resolve, countersAfter, slotOf_countersAfter]
          cases reference : capture.rule with
          | next =>
              simp only [reference, if_true] at shifted
              simp [ruleOf, shifted, resolutionAt, placedAt, planned, reference, targetAfter,
                Target.index]
          | number index =>
              simp only [reference, reduceCtorEq, if_false, Nat.add_zero] at shifted
              simp [ruleOf, shifted, resolutionAt, placedAt, planned, reference, targetAfter,
                Target.index]
          | named name =>
              simp only [reference, reduceCtorEq, if_false, Nat.add_zero] at shifted
              by_cases known : name ∈ rules.names
              · simp [ruleOf, namedRule?_of_mem known, shifted, resolutionAt, placedAt, planned,
                  reference, targetAfter, known]
              · simp [ruleOf, namedRule?_of_not_mem known, shifted, resolutionAt, placedAt,
                  reference, targetAfter, known]

theorem resolve_eq (rules : RuleList) (segments : List Segment) :
    resolve rules 0 {} segments = segments.zipIdx.map (resolutionAt rules segments) :=
  resolve_countersAfter rules [] segments

theorem positionalReferences_after (slot : Nat) (before rest : List Segment) :
    positionalReferences ⟨slot, rulesByOrder before⟩ rest =
      ((rest.zipIdx before.length).filterMap (placedAt (before ++ rest))).filterMap
        fun capture => capture.target.position? := by
  induction rest generalizing before with
  | nil => rfl
  | cons segment rest ih =>
      have shifted := ih (before ++ [segment])
      simp only [List.append_assoc, List.singleton_append, List.length_append,
        List.length_singleton] at shifted
      rw [List.zipIdx_cons]
      cases segment with
      | literal text =>
          rw [rulesByOrder_append_literal] at shifted
          rw [positionalReferences, shifted, List.filterMap_cons_none (by rfl)]
      | capture capture offset =>
          rw [rulesByOrder_append_capture] at shifted
          have here : placedAt (before ++ .capture capture offset :: rest)
              (.capture capture offset, before.length) =
                some ⟨before.length, slotAfter before capture.slot,
                  targetAfter before capture.rule⟩ := by
            simp [placedAt]
          rw [List.filterMap_cons_some here, List.filterMap_cons]
          cases reference : capture.rule with
          | next =>
              rw [reference, if_pos rfl] at shifted
              simp only [positionalReferences, reference, shifted, targetAfter,
                Target.position?_positional]
          | number index =>
              rw [reference, if_neg (by simp), Nat.add_zero] at shifted
              simp only [positionalReferences, reference, shifted, targetAfter,
                Target.position?_positional]
          | named name =>
              rw [reference, if_neg (by simp), Nat.add_zero] at shifted
              simp only [positionalReferences, reference, shifted, targetAfter,
                Target.position?_named]

theorem positionalReferences_eq (segments : List Segment) :
    positionalReferences {} segments =
      (placed segments).filterMap fun capture => capture.target.position? :=
  positionalReferences_after 0 [] segments

/-! ## Places -/

/-- The captures of a template are listed by increasing places. -/
theorem increasing_places (segments : List Segment) :
    (placed segments).Pairwise fun first second => first.place < second.place := by
  have places : segments.zipIdx.Pairwise fun first second => first.2 < second.2 := by
    rw [← List.pairwise_map, List.zipIdx_map_snd]
    exact List.pairwise_lt_range'
  rw [placed, List.pairwise_filterMap]
  apply places.imp
  rintro ⟨first, firstPlace⟩ ⟨second, secondPlace⟩ before firstPlaced firstEq
    secondPlaced secondEq
  cases first <;> cases second <;> simp_all [placedAt]
  rw [← firstEq, ← secondEq]
  exact before

theorem nodup_places (segments : List Segment) :
    ((placed segments).map Placed.place).Nodup := by
  rw [List.Nodup, List.pairwise_map]
  exact (increasing_places segments).imp Nat.ne_of_lt

end Binding

end Unformat
