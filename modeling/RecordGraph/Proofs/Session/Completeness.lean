import RecordGraph.Proofs.Session.Materializing
import RecordGraph.Proofs.Session.Serving

/-!
Getting everything at once, in every session of every run.  It succeeds where the store still shows
each class that the registry of the session has a type for; a class that was hidden since makes it
fail, and then not even what is cached is given.
-/

namespace RecordGraph

open RecordGraph.Computation Workspace

namespace System

variable {y : System} {session : Session}

/-- People who can be seen in a database. -/
def settle : List Operation :=
  [.addSchema "people" { classes := [{
      name := "Person"
      attributes := [{ name := "note", type := "string" }]
      relations := [{ name := "peer", target := "Person" }] }] },
    .createDatabase "near" ["people"]]

/-- A session that was opened after some operations, by which people can be seen. -/
def visiting (ops : List Operation) : Workspace :=
  { session := { registry := ⟨0⟩, active := some "near", cache := SessionCache.init {} "Person" }
    world := World.addRegistry { store := .after ops } (.single ⟨0⟩ Session.personSchema)
      (ClassSchema.load (Store.after ops).hierarchy "Person" []).2 }

/-- A person has a record. -/
def settled : List Operation := settle ++ [.createRecord "near" "Person" "a"]

end System

end RecordGraph
