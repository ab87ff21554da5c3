import RecordGraph.Object.Operations
import RecordGraph.Pattern
import RecordGraph.Visit

/-!
Walking through the objects that an object's relations lead to, and finding objects among them.
-/

namespace RecordGraph

/-- Which names a search accepts. -/
inductive Query
  | any
  | exact (name : String)
  /-- Names that the pattern matches from their first character on. -/
  | pattern (p : Pattern)
deriving Repr

/-- Whether the leftmost match of a pattern starts where the text does. -/
def Pattern.matchesStart (p : Pattern) (text : String) : Bool := p.leftmost? text == some 0

namespace Query

def accepts : Query → String → Bool
  | .any, _ => true
  | .exact name, s => name == s
  | .pattern p, s => p.matchesStart s

def render : Query → String
  | .any => "*"
  | .exact name => name
  | .pattern p => "/" ++ p.source ++ "/"

end Query

/-- What a search found. -/
inductive Found
  | one (o : ObjectId)
  /-- All that was found, by class and then by id. -/
  | many (os : List ObjectId)
deriving DecidableEq, Repr

namespace Found

def one? : Found → Option ObjectId
  | .one o => some o
  | .many _ => none

def toList : Found → List ObjectId
  | .one o => [o]
  | .many os => os

end Found

namespace World

/-- The objects that an object's relations point to. -/
def related (w : World) (o : ObjectId) : List ObjectId := (w.object o).related

/-- How many relation targets all objects have together. -/
def targetCount (w : World) : Nat := (w.objects.toList.map fun o => o.related.length).foldr (· + ·) 0

/-- An object and all that it leads to, depth first and each full name once.  Every target of a
relation makes one object wait at most, which bounds the walk. -/
def traverse (w : World) (o : ObjectId) : List ObjectId :=
  visit .depthFirst w.nameOf w.related (1 + w.targetCount) [o] []

/-- Whether a search for a class accepts an object, by its own class or also by those above it. -/
def ofClass (w : World) (className : Query) (subclasses : Bool) (o : ObjectId) : Bool :=
  if subclasses then (w.object o).type.names.any className.accepts
  else className.accepts (w.object o).className

/-- Searches what an object leads to.  An exact id finds one object and fails if there is none. -/
def find (w : World) (o : ObjectId) (className id : Query) (subclasses : Bool) :
    Except Error Found :=
  let candidates := (w.traverse o).filter (w.ofClass className subclasses)
  match id with
  | .exact name =>
    match candidates.find? fun c => (w.object c).id == name with
    | some c => .ok (.one c)
    | none =>
      .error (.objectNotFound (fullName className.render name ++ " under " ++ w.nameOf o))
  | id => .ok (.many (w.sortObjects (candidates.filter fun c => id.accepts (w.object c).id)))

end World

end RecordGraph
