import Unformat.Net.Ipv4
import Unformat.Text.Hex

/-!
# IPv6 addresses

Eight groups of up to four hexadecimal digits, of which one run of zero groups may be left out as
`::` and the last two may be written as an IPv4 address; a scope may follow after a percent sign.
Addresses are written in lower case with the longest run of zero groups left out.
-/

namespace Unformat

open Text (Quoted.quote Hex.digitValue? Hex.isDigit Hex.value)

structure Ipv6 where
  groups : List UInt16
  scope : Option String := none
  length_groups : groups.length = 8
  deriving Repr, DecidableEq

namespace Ipv6

/-- The rule that a text breaks. -/
inductive Fault where
  | slash
  | scope
  | empty
  | tooFewParts
  | embedded (text : String) (fault : Ipv4.Fault)
  | tooManyColons
  | secondGap
  | leadingColon
  | trailingColon
  | tooManyParts
  | partCount
  | notHexadecimal (group : String)
  | tooLong (group : String)
  deriving Repr, DecidableEq

/-- The complaint about `text`, of which `address` is the part before the scope. -/
def Fault.message (text address : String) : Fault → String
  | .slash => s!"Unexpected '/' in {Quoted.quote text}"
  | .scope => s!"Invalid IPv6 address: \"{Quoted.quote text}\""
  | .empty => "Address cannot be empty"
  | .tooFewParts => s!"At least 3 parts expected in {Quoted.quote address}"
  | .embedded part fault => s!"{fault.message part} in {Quoted.quote address}"
  | .tooManyColons => s!"At most 8 colons permitted in {Quoted.quote address}"
  | .secondGap => s!"At most one '::' permitted in {Quoted.quote address}"
  | .leadingColon => s!"Leading ':' only permitted as part of '::' in {Quoted.quote address}"
  | .trailingColon => s!"Trailing ':' only permitted as part of '::' in {Quoted.quote address}"
  | .tooManyParts => s!"Expected at most 7 other parts with '::' in {Quoted.quote address}"
  | .partCount => s!"Exactly 8 parts expected without '::' in {Quoted.quote address}"
  | .notHexadecimal group =>
      s!"Only hex digits permitted in {Quoted.quote group} in {Quoted.quote address}"
  | .tooLong group =>
      s!"At most 4 characters permitted in {Quoted.quote group} in {Quoted.quote address}"

def group (digits : List Char) : Except Fault UInt16 :=
  if !digits.all Hex.isDigit then .error (.notHexadecimal (String.ofList digits))
  else if 4 < digits.length then .error (.tooLong (String.ofList digits))
  else .ok (UInt16.ofNat (Hex.value digits))

/-- The hexadecimal digits of a number below `2 ^ 16`, without leading zeros. -/
def groupDigits (value : Nat) : List Char := Nat.toDigits 16 value

/-- The parts between colons, with a final IPv4 address turned into two groups. -/
def expandTail (parts : List (List Char)) : Except Fault (List (List Char)) :=
  match parts.getLast? with
  | none => .ok parts
  | some last =>
      if last.contains '.' then
        match Ipv4.parse last with
        | .error fault => .error (.embedded (String.ofList last) fault)
        | .ok v4 =>
            .ok (parts.dropLast ++
              [groupDigits (v4.first.toNat * 256 + v4.second.toNat),
               groupDigits (v4.third.toNat * 256 + v4.fourth.toNat)])
      else .ok parts

/-- The positions of the empty parts that are neither first nor last. -/
def gaps (parts : List (List Char)) : List Nat :=
  (List.range parts.length).filter fun index =>
    0 < index && index + 1 < parts.length && parts[index]? == some []

/-- The parts before and after the gap, or all parts when there is no gap. An empty part at either
end has to belong to the gap. -/
def halves (parts : List (List Char)) :
    Except Fault (List (List Char) × List (List Char)) :=
  match gaps parts with
  | _ :: _ :: _ => .error .secondGap
  | [gap] =>
      let before := parts.take gap
      let after := parts.drop (gap + 1)
      let opensEmpty := before.head? = some []
      let closesEmpty := after.getLast? = some []
      let high := if opensEmpty then before.drop 1 else before
      let low := if closesEmpty then after.dropLast else after
      if opensEmpty ∧ high ≠ [] then .error .leadingColon
      else if closesEmpty ∧ low ≠ [] then .error .trailingColon
      else if 8 < high.length + low.length + 1 then .error .tooManyParts
      else .ok (high, low)
  | [] =>
      if parts.length ≠ 8 then .error .partCount
      else if parts.head? = some [] then .error .leadingColon
      else if parts.getLast? = some [] then .error .trailingColon
      else .ok (parts, [])

/-- The groups before and after a gap, filled up with zeros to eight. -/
def ofHalves (high low : List UInt16) (scope : Option String)
    (fits : high.length + low.length ≤ 8) : Ipv6 where
  groups := high ++ List.replicate (8 - (high.length + low.length)) 0 ++ low
  scope := scope
  length_groups := by simp; omega

/-- The address that a text without slash and scope spells. -/
def parseGroups (text : List Char) (scope : Option String) : Except Fault Ipv6 := do
  if text = [] then throw .empty
  let parts := text.splitOn ':'
  if parts.length < 3 then throw .tooFewParts
  let parts ← expandTail parts
  if 9 < parts.length then throw .tooManyColons
  let (high, low) ← halves parts
  let high ← high.mapM group
  let low ← low.mapM group
  if fits : high.length + low.length ≤ 8 then
    return ofHalves high low scope fits
  else throw .tooManyParts

/-- The part of a text before its first percent sign, and what follows the sign. -/
def splitScope (text : List Char) : List Char × Option (List Char) :=
  let address := text.takeWhile (· != '%')
  match text.drop address.length with
  | [] => (address, none)
  | _ :: scope => (address, some scope)

/-- The address that a text spells, or the first rule that it breaks. -/
def parse (text : List Char) : Except Fault Ipv6 :=
  if text.contains '/' then .error .slash
  else match splitScope text with
    | (address, none) => parseGroups address none
    | (address, some scope) =>
        if scope = [] ∨ '%' ∈ scope then .error .scope
        else parseGroups address (some (String.ofList scope))

/-- A run of zero groups: where it starts and how long it is. -/
structure ZeroRun where
  start : Nat
  length : Nat

/-- The zero groups that start at each position, the position first. -/
def zeroRuns (groups : List UInt16) : List ZeroRun :=
  (List.range groups.length).map fun start =>
    ⟨start, ((groups.drop start).takeWhile (· == 0)).length⟩

/-- The first of the longest runs of zero groups. -/
def longestZeroRun (groups : List UInt16) : ZeroRun :=
  (zeroRuns groups).foldl (fun best run => if best.length < run.length then run else best) ⟨0, 0⟩

def joinGroups (groups : List UInt16) : String :=
  ":".intercalate (groups.map fun g => String.ofList (groupDigits g.toNat))

/-- The groups with the longest run of at least two zero groups left out. -/
def groupsText (groups : List UInt16) : String :=
  let run := longestZeroRun groups
  if run.length < 2 then joinGroups groups
  else joinGroups (groups.take run.start) ++ "::" ++
    joinGroups (groups.drop (run.start + run.length))

/-- The groups, and the scope after a percent sign. -/
def text (address : Ipv6) : String :=
  groupsText address.groups ++
    (match address.scope with
      | none => ""
      | some scope => "%" ++ scope)

end Ipv6

end Unformat
