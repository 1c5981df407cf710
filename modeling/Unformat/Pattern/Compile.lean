import Unformat.Pattern.Token

/-!
# Reading patterns

The tokens of a pattern are put together from left to right, with a stack of the groups that are
open. Options that are set for the whole pattern count from its start, so the pattern is read a
second time when there are any.
-/

namespace Unformat.Pattern

/-- The part of a pattern that is being put together, inside one group: the finished alternatives
and the items of the present one, both in reverse. After a repetition stands an empty item, which
cannot be repeated again. -/
structure Frame where
  kind : GroupKind
  options : Options
  alternatives : List Pattern
  items : List (Option Pattern)

/-- What is known after some tokens: the innermost group, the groups around it, the options for the
whole pattern, and whether a reference was met, and where. -/
structure Assembly where
  frame : Frame
  outer : List Frame
  whole : Options
  reference : Option Nat

/-- The start of a group. -/
def Frame.start (kind : GroupKind) (options : Options) : Frame := ⟨kind, options, [], [none]⟩

namespace Frame

/-- Put an item behind the others. -/
def push (frame : Frame) (item : Pattern) : Frame :=
  { frame with items := some item :: frame.items }

/-- The present alternative: its items one after the other. -/
def alternative (frame : Frame) : Pattern :=
  (frame.items.filterMap id).foldl (fun rest item => match rest with
    | .nothing => item
    | rest => .both item rest) .nothing

/-- Begin the next alternative. -/
def divide (frame : Frame) : Frame :=
  { frame with alternatives := frame.alternative :: frame.alternatives, items := [none] }

/-- The alternatives, the first one first. -/
def body (frame : Frame) : Pattern :=
  frame.alternatives.foldl (fun later earlier => .either earlier later) frame.alternative

/-- The pattern of a group. -/
def close (frame : Frame) : Pattern :=
  match frame.kind with
  | .plain => frame.body
  | .ahead negated => .ahead negated frame.body
  | .atomic => .atomic frame.body

/-- The test that a token asks for under the options of the group. -/
def test (frame : Frame) (test : CharTest) : Pattern :=
  .one (if frame.options.ignoreCase then test.ignoringCase else test)

/-- What a dot stands for under the options of the group. -/
def dot (frame : Frame) : Pattern :=
  .one (if frame.options.dotMatchesAll then .always else .notLineFeed)

/-- Repeat the last item. -/
def repeatLast (frame : Frame) (count : Repetition) (possessive : Bool) :
    Except Mistake Frame :=
  match frame.items with
  | some item :: before =>
      let repeated := if possessive then .atomic (.repetition item count) else
        .repetition item count
      .ok { frame with items := none :: some repeated :: before }
  | [none] => .error .nothingToRepeat
  | [] => .error .nothingToRepeat
  | none :: _ => .error .multipleRepeat

end Frame

/-- The start of a pattern, with options for all of it. -/
def Assembly.start (options : Options) : Assembly :=
  ⟨.start .plain options, [], options, none⟩

/-- Put a token, which ends at `position`, behind the others. -/
def Assembly.add (assembly : Assembly) (token : Token) (position : Nat) :
    Except Mistake Assembly :=
  let frame := assembly.frame
  match token with
  | .dot => .ok { assembly with frame := frame.push frame.dot }
  | .test test => .ok { assembly with frame := frame.push (frame.test test) }
  | .place condition => .ok { assembly with frame := frame.push (.place condition) }
  | .repetition count possessive => do
      return { assembly with frame := ← frame.repeatLast count possessive }
  | .opening kind change =>
      .ok { assembly with
        frame := .start kind (change.apply frame.options)
        outer := frame :: assembly.outer }
  | .options change =>
      .ok { assembly with whole := change.apply assembly.whole }
  | .bar => .ok { assembly with frame := frame.divide }
  | .closing =>
      match assembly.outer with
      | [] => .error .unbalancedClose
      | around :: outer => .ok { assembly with frame := around.push frame.close, outer }
  | .reference =>
      .ok { assembly with
        frame := frame.push (.one .never)
        reference := assembly.reference.or (some position) }

/-- Put the tokens of a text together, of a pattern of `total` characters. Each token takes up
text, so the length of the text bounds their number. -/
def assemble (total : Nat) : Nat → Assembly → List Char → Except SourceFault Assembly
  | _, assembly, [] => .ok assembly
  | 0, assembly, _ => .ok assembly
  | steps + 1, assembly, c :: text =>
      match token c text with
      | .error (mistake, left) => .error ⟨mistake, total - left⟩
      | .ok (token, rest) =>
          match assembly.add token (total - rest.length) with
          | .error mistake => .error ⟨mistake, total - (text.length + 1)⟩
          | .ok assembly => assemble total steps assembly rest

/-- The pattern of a text, with options for all of it, and the options that the text sets. -/
def readWith (options : Options) (text : List Char) : Except SourceFault (Pattern × Options) := do
  let assembly ← assemble text.length text.length (.start options) text
  if !assembly.outer.isEmpty then throw ⟨.missingClose, text.length⟩
  if assembly.whole = options then
    if let some position := assembly.reference then throw ⟨.invalidReference, position⟩
  return (assembly.frame.close, assembly.whole)

def compile (text : String) : Except SourceFault Pattern := do
  let (pattern, options) ← readWith {} text.toList
  if options = {} then return pattern
  else return (← readWith options text.toList).1

end Unformat.Pattern
