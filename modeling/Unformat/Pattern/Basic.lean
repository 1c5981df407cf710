import Unformat.Pattern.CharTest

/-!
# Patterns

A pattern describes texts. `Pattern.run` tries it at the front of a text, the first alternative and
the longest or shortest repetition first, as the pattern asks, and takes the first way that
succeeds. When none does, it matters whether some way came to the end of the text while it still
wanted a character, since then more text might let it succeed.
-/

namespace Unformat

/-- A condition on the place between two characters. -/
inductive Place where
  | start
  | finish
  /-- At the end, or before a line feed that ends the text. -/
  | lineFinish
  | wordBoundary
  | noWordBoundary
  deriving Repr, DecidableEq

/-- Which repetitions are tried first. -/
inductive Preference where
  | longest
  | shortest
  deriving Repr, DecidableEq

/-- How often something is repeated. -/
structure Repetition where
  least : Nat
  most : Option Nat
  preference : Preference := .longest
  deriving Repr, DecidableEq

/-- Whether a further repetition is allowed after `count` of them. -/
def Repetition.allowsMore (repetition : Repetition) (count : Nat) : Bool :=
  repetition.most.all fun most => count < most

inductive Pattern where
  | nothing
  | one (test : CharTest)
  | place (condition : Place)
  | both (first second : Pattern)
  | either (first second : Pattern)
  | repetition (body : Pattern) (count : Repetition)
  /-- The body, or in the negated case no match of it, has to follow; no text is taken. -/
  | ahead (negated : Bool) (body : Pattern)
  /-- Only the first way in which the body succeeds is considered. -/
  | atomic (body : Pattern)
  deriving Repr, DecidableEq

namespace Pattern

/-- A place in a text: the character before it, the text after it and its length. -/
structure Cursor where
  before : Option Char
  rest : List Char
  left : Nat
  deriving Repr, DecidableEq

def Cursor.front (text : List Char) : Cursor := ⟨none, text, text.length⟩

/-- What came of an attempt: where it succeeded first, if at all, and whether some way that was
tried wanted a character past the end. -/
structure Outcome where
  found : Option Cursor
  starved : Bool
  deriving Repr, DecidableEq

namespace Outcome

def success (cursor : Cursor) : Outcome := ⟨some cursor, false⟩

/-- Failure for what stands in the text. -/
def failure : Outcome := ⟨none, false⟩

/-- Failure for want of text. -/
def starvation : Outcome := ⟨none, true⟩

/-- Remember that an earlier way may have wanted more text. -/
def after (starved : Bool) (outcome : Outcome) : Outcome :=
  { outcome with starved := starved || outcome.starved }

/-- The second way, tried when the first fails. -/
def orElse (first : Outcome) (second : Unit → Outcome) : Outcome :=
  match first.found with
  | some _ => first
  | none => (second ()).after first.starved

end Outcome

/-- What follows an attempt that succeeds. -/
abbrev Continuation := Cursor → Outcome

def holdsAt (place : Place) (cursor : Cursor) : Bool :=
  match place with
  | .start => cursor.before.isNone
  | .finish => cursor.rest.isEmpty
  | .lineFinish => cursor.rest.isEmpty || cursor.rest == ['\n']
  | .wordBoundary => isBoundary cursor
  | .noWordBoundary => !isBoundary cursor
where
  /-- Whether a word begins or ends here. -/
  isBoundary (cursor : Cursor) : Bool :=
    cursor.before.any Text.isWord != cursor.rest.head?.any Text.isWord

/-- Repetitions from the `count`-th on. One that takes no text is the last. -/
def iterate (step : Cursor → Continuation → Outcome) (repetition : Repetition)
    (next : Continuation) (count : Nat) (cursor : Cursor) : Outcome :=
  let more : Unit → Outcome := fun _ =>
    if repetition.allowsMore count then
      step cursor fun reached =>
        if reached.left < cursor.left then iterate step repetition next (count + 1) reached
        else next reached
    else .failure
  let enough : Unit → Outcome := fun _ =>
    if repetition.least ≤ count then next cursor else .failure
  match repetition.preference with
  | .longest => (more ()).orElse enough
  | .shortest => (enough ()).orElse more
termination_by cursor.left

/-- Try a pattern at a place and go on with what follows it. -/
def attempt : Pattern → Cursor → Continuation → Outcome
  | .nothing, cursor, next => next cursor
  | .one test, cursor, next =>
      match cursor.rest with
      | [] => .starvation
      | c :: rest => if test.holds c then next ⟨some c, rest, cursor.left - 1⟩ else .failure
  | .place condition, cursor, next => if holdsAt condition cursor then next cursor else .failure
  | .both first second, cursor, next =>
      attempt first cursor fun reached => attempt second reached next
  | .either first second, cursor, next =>
      (attempt first cursor next).orElse fun _ => attempt second cursor next
  | .repetition body count, cursor, next => iterate (attempt body) count next 0 cursor
  | .ahead negated body, cursor, next =>
      let outcome := attempt body cursor .success
      if outcome.found.isSome != negated then (next cursor).after outcome.starved
      else .after outcome.starved .failure
  | .atomic body, cursor, next =>
      let outcome := attempt body cursor .success
      match outcome.found with
      | some reached => (next reached).after outcome.starved
      | none => outcome

/-- What a pattern makes of a text. -/
inductive Verdict where
  | matched (length : Nat)
  /-- Nothing matches, but more text might. -/
  | starved
  | failed
  deriving Repr, DecidableEq

/-- Try a pattern at the front of a text. -/
def run (pattern : Pattern) (text : List Char) : Verdict :=
  let outcome := pattern.attempt (.front text) .success
  match outcome.found with
  | some reached => .matched (text.length - reached.left)
  | none => if outcome.starved then .starved else .failed

end Pattern

end Unformat
