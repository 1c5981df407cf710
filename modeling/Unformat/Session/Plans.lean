import Unformat.Session.Basic

/-!
# The plans and scanners of a session

A scanner takes its plan from the cache if it can. The cache is left alone by scanners whose
parameters give it no room; otherwise it takes the capacity that the parameters ask for, and the
rules have to be such that they can be looked up.
-/

namespace Unformat

namespace Session

variable [PatternEngine]

/-- A plan that has not been compiled yet. -/
def addPlan (plan : Plan) : Action Nat := do
  let number := (← get).plans.length
  modify fun session =>
    { session with plans := session.plans ++ [{ plan, compiled := plan.compile }] }
  return number

/-- Give the cache a capacity. -/
def resizeCache (capacity : Nat) : Action Unit :=
  modify fun session =>
    if capacity = session.cache.capacity then session
    else { session with cache := session.cache.resize capacity }

/-- Look a plan up in the cache. -/
def cachedPlan (template : String) (rules : RuleList) : Action (Option Nat) := do
  if let some kind := rules.unhashable? then throw (.unhashable kind)
  let (found, cache) := (← get).cache.get (template, rules)
  modify fun session => { session with cache }
  return found

def planFor (template : String) (rules : RuleList) (capacity : Int) : Action Nat := do
  if capacity ≤ 0 then addPlan (← yielding (Plan.build template rules))
  else
    resizeCache capacity.toNat
    match ← cachedPlan template rules with
    | some number => return number
    | none =>
        let number ← addPlan (← yielding (Plan.build template rules))
        modify fun session =>
          { session with cache := session.cache.put (template, rules) number }
        return number

def planAt (number : Nat) : Action SharedPlan := do
  match (← get).plans[number]? with
  | some shared => return shared
  | none => throw (.unknownName (toString number))

/-- Remember that the patterns of a plan have been compiled. -/
def markCompiled (number : Nat) : Action Unit :=
  modify fun session =>
    { session with
      plans := session.plans.modify number fun shared => { shared with isCompiled := true } }

/-- Compile the patterns of a plan, unless that was done before. -/
def compilePlan (number : Nat) : Action CompiledPlan := do
  markCompiled number
  let shared ← planAt number
  yielding (shared.compiled.mapError fun fault => .ofFault (.pattern fault))

/-- What is told about a scanner that was just made. -/
structure ScannerReport where
  arity : Nat
  shown : String
  /-- The scanners that have the same plan. -/
  sharing : List String
  isCompiled : Bool
  warnings : List String
  deriving Repr, DecidableEq

/-- The names of the scanners that have the given plan, in increasing order. -/
def sharers (session : Session) (number : Nat) : List String :=
  ((session.scanners.filter fun entry => entry.2.plan = number).map Prod.fst).mergeSort
    fun a b => decide (a ≤ b)

def makeScanner (name template : String) (rules : RuleList) (config : Config) :
    Action ScannerReport := do
  let number ← planFor template rules config.cacheCapacity
  if config.eagerCompile then discard (compilePlan number)
  let shared ← planAt number
  let sharing := sharers (← get) number
  modify fun session =>
    { session with scanners := keep session.scanners name { plan := number, config } }
  return {
    arity := shared.plan.arity
    shown := Scanner.describe shared.plan
    sharing
    isCompiled := shared.isCompiled
    warnings := config.warnings }

def scanner (name : String) : Action ScannerEntry := do find (← get).scanners name

def planOf (name : String) : Action SharedPlan := do planAt (← scanner name).plan

/-- Compile the patterns of a scanner: their number. -/
def compile (name : String) : Action Nat := do
  return (← compilePlan (← scanner name).plan).matchers.length

end Session

end Unformat
