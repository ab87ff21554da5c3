import RecordGraph.Pattern.CharSet

/-!
Patterns as trees, and the matching of texts.  Matching is a function on sets of positions: from the
places at which a match may start it computes the places at which one may end.
-/

namespace RecordGraph.Pattern

open Text

/-- A condition on the place between two characters. -/
inductive Look
  | textStart
  | textEnd
  | lineStart
  | lineEnd
  /-- As `lineStart`, where a carriage return also ends a line, but not inside a pair with a line
  feed. -/
  | anyLineStart
  | anyLineEnd
  | wordBoundary (unicode : Bool)
  | noWordBoundary (unicode : Bool)
  | wordStart (unicode : Bool)
  | wordEnd (unicode : Bool)
  | wordStartHalf (unicode : Bool)
  | wordEndHalf (unicode : Bool)
deriving DecidableEq, Repr

/-- A pattern. -/
inductive Node
  | empty
  | one (s : CharSet)
  | look (l : Look)
  | seq (a b : Node)
  | alt (a b : Node)
  | repeated (a : Node) (min : Nat) (max : Option Nat)
deriving DecidableEq, Repr

namespace Look

def isWord (unicode : Bool) (c : Option Char) : Bool :=
  match c with
  | some c => (CharSet.ofLetter unicode 'w').contains c
  | none => false

/-- Whether the condition holds between the characters before and after a place, of which there is
none at an end of the text. -/
def holdsBetween (before after : Option Char) : Look → Bool
  | .textStart => before.isNone
  | .textEnd => after.isNone
  | .lineStart => before.isNone || before == some '\n'
  | .lineEnd => after.isNone || after == some '\n'
  | .anyLineStart =>
    before.isNone || before == some '\n' || (before == some '\r' && after != some '\n')
  | .anyLineEnd =>
    after.isNone || after == some '\r' || (after == some '\n' && before != some '\r')
  | .wordBoundary u => isWord u before != isWord u after
  | .noWordBoundary u => isWord u before == isWord u after
  | .wordStart u => !isWord u before && isWord u after
  | .wordEnd u => isWord u before && !isWord u after
  | .wordStartHalf u => !isWord u before
  | .wordEndHalf u => !isWord u after

def holds (text : Array Char) (l : Look) (p : Nat) : Bool :=
  l.holdsBetween (if p = 0 then none else text[p - 1]?) text[p]?

end Look

/-- The union of two sets of positions. -/
def mergePositions (ps qs : List Nat) : List Nat := ps ++ qs.filter fun q => !ps.contains q

/-- Applies a function a number of times, stopping early once it changes nothing. -/
def iterate (f : List Nat → List Nat) : Nat → List Nat → List Nat
  | 0, ps => ps
  | n + 1, ps =>
    let qs := f ps
    if qs = ps then ps else iterate f n qs

namespace Node

/-- The positions at which a match may end that starts at one of the given positions.  On a text of
`n` characters more than `n + 1` repetitions reach nothing that `n + 1` do not. -/
def ends (text : Array Char) : Node → List Nat → List Nat
  | .empty, ps => ps
  | .one s, ps => ps.filterMap fun p =>
    match text[p]? with
    | some c => if s.contains c then some (p + 1) else none
    | none => none
  | .look l, ps => ps.filter (l.holds text)
  | .seq a b, ps => b.ends text (a.ends text ps)
  | .alt a b, ps => mergePositions (a.ends text ps) (b.ends text ps)
  | .repeated a min max, ps =>
    let enough := text.size + 1
    let required := iterate (fun qs => a.ends text qs) (Nat.min min enough) ps
    let further := match max with
      | some max => Nat.min (max - min) enough
      | none => enough
    iterate (fun qs => mergePositions qs (a.ends text qs)) further required

/-- An estimate of the memory that a pattern takes once it is laid out as a machine on bytes. -/
def weight : Node → Nat
  | .empty | .look _ => 32
  | .one s => setWeight s
  | .seq a b => a.weight + b.weight
  | .alt a b => a.weight + b.weight + 32
  | .repeated a min max =>
    match max with
    | some max => max * (a.weight + 32)
    | none => Nat.max min 1 * a.weight + 32
where
  setWeight : CharSet → Nat
    | .empty => 32
    | .range first last => if last < 0x80 then 32 else if first = last then 96 else 256
    | .property p =>
      match p with
      | .word => 20000
      | .alphabetic | .uppercase | .lowercase => 17000
      | .categories members => 2500 * members.length
      | .script _ => 1000
      | .blank => 500
    | .complement s => setWeight s + 128
    | .union s t => setWeight s + setWeight t
    | .inter s t => setWeight s + setWeight t
    | .anyCase s => 2 * setWeight s
    | .anyAsciiCase s => setWeight s

end Node

end RecordGraph.Pattern
