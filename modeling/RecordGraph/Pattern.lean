import RecordGraph.Pattern.Reader

/-!
Compiled patterns: the text of a pattern with its tree, and searching in texts.
-/

namespace RecordGraph

/-- A pattern that has been read. -/
structure Pattern where
  source : String
  node : Pattern.Node
deriving DecidableEq, Repr

namespace Pattern

def compile (source : String) : Except Malformed Pattern := do
  pure ⟨source, ← read source⟩

/-- The pattern that matches a text only as a whole. -/
def compileWhole (source : String) : Except Malformed Pattern :=
  compile ("^(?:" ++ source ++ ")$")

/-- Whether a match starts at a position. -/
def matchesAt (p : Pattern) (text : Array Char) (start : Nat) : Bool :=
  !(p.node.ends text [start]).isEmpty

/-- Where the leftmost match in a text starts. -/
def leftmost? (p : Pattern) (text : String) : Option Nat :=
  let cs := text.toList.toArray
  (List.range (cs.size + 1)).find? (p.matchesAt cs)

/-- Whether the pattern matches somewhere in a text. -/
def isMatch (p : Pattern) (text : String) : Bool := (p.leftmost? text).isSome

end Pattern

end RecordGraph
