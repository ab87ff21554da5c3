import RecordGraph.Proofs.Registry.Refresh
import RecordGraph.Proofs.Session.Hydration

/-!
What a session shows after hydrating.  Over a store where no two visible records with one id stand in
one line of inheritance, every sequence of calls that give objects ends, and leaves the session with
one object for each record of a set that relations do not lead out of.
-/

namespace RecordGraph

open RecordGraph.Computation Workspace

namespace Session

/-- No two visible records with one id are of classes in one line of inheritance. -/
def Unambiguous (s : Store) : Prop :=
  ∀ r t, s.Visible r → s.Visible t → r.id = t.id →
    s.hierarchy.isA r.className t.className = true → r = t

/-- What is cached mirrors the store: one object for each of some visible records, which lead only to
each other.  Nothing was written, neither to the store nor to the objects. -/
structure Hydrated (base s : Workspace) : Prop where
  store : s.world.store = base.world.store
  registries : s.world.registries = base.world.registries
  cached : ∀ className id o, s.cached? className id = some o →
    s.Stands o ∧ (s.world.object o).id = id
      ∧ s.world.store.hierarchy.isA (s.world.object o).className className = true
  visible : ∀ o, s.Stands o → s.world.store.Visible (s.world.object o).record
  single : ∀ o p, s.Stands o → s.Stands p →
    (s.world.object o).record = (s.world.object p).record → o = p
  mirrors : ∀ o, s.Stands o → s.Mirrors o

variable {base s t : Workspace}

/-- The visible records of an unambiguous store can be hydrated. -/
theorem hydratable_visible (hcurrent : base.registry.Current base.world.store.hierarchy)
    (hfree : Unambiguous base.world.store) : Hydratable base base.world.store.Visible where
  current := hcurrent
  stored _ hr := hr.mem_allRecords
  closed r schema relation t _ _ _ ht := by
    unfold resolve at ht
    cases hresolve : base.world.store.resolve (base.world.hasSchema base.session.registry) r
        relation with
    | none => simp [hresolve] at ht
    | some ts =>
      rw [hresolve] at ht
      exact (Store.visible_of_mem_resolve hresolve ht).1
  free := hfree

/-- One call ends, and keeps what is cached in agreement with the store. -/
theorem Call.run_hydrating {D : RecordRef → Prop} (call : Call) (hd : Hydratable base D)
    (hall : ∀ r, base.world.store.Visible r → D r) (hs : Hydrating base D [] s) :
    call.Ends s (outcome (call.run s).1) (call.run s).2
      ∧ ∀ os t, call.run s = (.ok os, t) → Hydrating base D [] t ∧ s.Grows t
        ∧ ∀ o ∈ os, t.Stands o := by
  have hrecords : ∀ className rs, base.world.store.records className = .ok rs → ∀ r ∈ rs, D r :=
    fun _ _ h r hr => hall r (Store.listed_of_mem_records h hr).visible
  cases call with
  | get className id =>
    obtain ⟨hends, hdone⟩ := getObject_run className id hd hs
      fun r hr => hall r (Store.find_eq_some hr).1
    rw [Call.run, bind_apply]
    rcases hrun : getObject className id s with ⟨e | o, t⟩
    · rw [hrun] at hends
      exact ⟨hends, fun os t h => by simp at h⟩
    · rw [hrun] at hends
      refine ⟨hends, ?_⟩
      intro os u hpure
      obtain ⟨heq, rfl⟩ := Prod.mk.inj hpure
      cases heq
      obtain ⟨hend, hgrows, hstands⟩ := hdone o t hrun
      exact ⟨hend, hgrows, fun o' ho' => List.mem_singleton.mp ho' ▸ hstands⟩
  | getAll className =>
    obtain ⟨hends, hdone⟩ := getAll_run hd hs (hrecords className)
    exact ⟨.getAll hends, hdone⟩
  | materializeAll => exact materializeAll_run hd hs hrecords

theorem mapM_call_run {D : RecordRef → Prop} {calls : List Call} {results : List (List ObjectId)}
    (hd : Hydratable base D) (hall : ∀ r, base.world.store.Visible r → D r)
    (hs : Hydrating base D [] s) (hrun : calls.mapM Call.run s = (.ok results, t)) :
    Each Call.Ends calls s (.ok ()) t ∧ Hydrating base D [] t ∧ s.Grows t
      ∧ ∀ os ∈ results, ∀ o ∈ os, t.Stands o := by
  induction calls generalizing s results with
  | nil =>
    obtain ⟨heq, rfl⟩ := Prod.mk.inj hrun
    cases heq
    exact ⟨.done s, hs, .refl s, by simp⟩
  | cons call calls ih =>
    rw [List.mapM_cons] at hrun
    obtain ⟨os, a, hcall, hrun⟩ := bind_eq_ok.mp hrun
    obtain ⟨rest, b, hcalls, hpure⟩ := bind_eq_ok.mp hrun
    obtain ⟨heq, rfl⟩ := Prod.mk.inj hpure
    cases heq
    obtain ⟨hends, hdone⟩ := call.run_hydrating hd hall hs
    rw [hcall] at hends
    obtain ⟨hnext, hgrows, hstand⟩ := hdone os a hcall
    obtain ⟨heach, hend, hgrows', hall'⟩ := ih hnext hcalls
    refine ⟨.next hends heach, hend, hgrows.trans hgrows', ?_⟩
    intro os' hos'
    rcases List.mem_cons.mp hos' with rfl | hos'
    · exact fun o ho => hgrows'.stands (hstand o ho)
    · exact hall' os' hos'

theorem hydrated_of_hydrating (hcurrent : base.registry.Current base.world.store.hierarchy)
    (hs : Hydrating base base.world.store.Visible [] s) : Hydrated base s where
  store := hs.grown.store
  registries := hs.grown.registries
  cached className id o hcached := by
    have hindexed := hs.cached className id o hcached
    have htype := hindexed.stands.type
    rw [hs.grown.registry] at htype
    obtain ⟨-, -, hshows⟩ := hcurrent.types _ _ htype
    exact ⟨hindexed.stands, hindexed.id, hs.grown.store ▸ hshows.isA_of_mem_names hindexed.className⟩
  visible o ho := hs.grown.store ▸ (hs.domain ho).2
  single o p ho hp heq := by
    obtain ⟨hclass, hid⟩ := RecordRef.mk.inj heq
    have hcached := ho.cached
    rw [hclass, hid] at hcached
    exact Option.some.inj (hcached.symm.trans hp.cached)
  mirrors o ho := by
    rcases hs.mirrored o ho with ⟨next, hnext, -⟩ | hmirrors
    · simp at hnext
    · exact hmirrors

/-- After any successful sequence of calls the session mirrors the store: what the calls gave and what
is cached are the objects of a closed set of visible records, each of one record of its own.  The calls
end, and so does every call that follows. -/
theorem calls_hydrated {calls : List Call} {results : List (List ObjectId)}
    (hcurrent : base.registry.Current base.world.store.hierarchy)
    (hfree : Unambiguous base.world.store)
    (hempty : ∀ className id, base.cached? className id = none)
    (hrun : calls.mapM Call.run base = (.ok results, s)) :
    Hydrated base s ∧ (∀ os ∈ results, ∀ o ∈ os, s.Stands o) ∧ Each Call.Ends calls base (.ok ()) s
      ∧ ∀ call : Call, call.Ends s (outcome (call.run s).1) (call.run s).2 := by
  have hd := hydratable_visible hcurrent hfree
  obtain ⟨hends, hhydrating, -, hstand⟩ :=
    mapM_call_run hd (fun _ hr => hr) (hydrating_start hempty) hrun
  exact ⟨hydrated_of_hydrating hcurrent hhydrating, hstand, hends,
    fun call => (call.run_hydrating hd (fun _ hr => hr) hhydrating).1⟩

/-- Two records that lead to each other. -/
def ring : Store :=
  { schemas := .insert .empty "rings" { classes := [{
      name := "Link"
      attributes := [{ name := "note", type := "string" }]
      relations := [{ name := "next", target := "Link" }] }] }
    databases := .insert .empty "d" {
      includes := ["rings"]
      records := .ofList [
        (⟨"Link", "a"⟩, .ofList [("note", .text "first"), ("next", .record ⟨"Link", "b"⟩)]),
        (⟨"Link", "b"⟩, .ofList [("next", .record ⟨"Link", "a"⟩)])] }
    loaded := ["d"] }

def linkSchema : ClassSchema :=
  { name := "Link"
    attributes := .insert .empty "note" {
      name := "note", type := .text .string, multivalue := false, notNull := false
      rangeSource := none, initialSource := none, description := ""
      binding := some { range := .unbounded } }
    relations := .insert .empty "next" {
      name := "next", target := "Link", multivalue := false, notNull := false
      aggregation := false, description := "" } }

def ringSession : Workspace :=
  { session := { registry := ⟨0⟩ }
    world := { store := ring, registries := Arena.empty.push (.single ⟨0⟩ linkSchema) } }

def ringCalls : List Call := [.get "Link" "a", .getAll "Link", .materializeAll]

theorem calls_hydrated_ring :
    ∃ results s, ringCalls.mapM Call.run ringSession = (.ok results, s)
      ∧ s.cached? "Link" "a" = some ⟨0⟩ ∧ s.cached? "Link" "b" = some ⟨1⟩
      ∧ Hydrated ringSession s := by
  have hcurrent : ringSession.registry.Current ringSession.world.store.hierarchy :=
    Registry.current_single rfl rfl
  have hfree : Unambiguous ringSession.world.store := by
    intro r t hr ht hid _
    have hall : ringSession.world.store.allRecords = [⟨"Link", "a"⟩, ⟨"Link", "b"⟩] := rfl
    have hrmem := hr.mem_allRecords
    have htmem := ht.mem_allRecords
    rw [hall] at hrmem htmem
    simp only [List.mem_cons, List.not_mem_nil, or_false] at hrmem htmem
    rcases hrmem with rfl | rfl <;> rcases htmem with rfl | rfl <;> first | rfl | simp at hid
  obtain ⟨results, hrun⟩ := run_of_isOk (m := ringCalls.mapM Call.run) (s := ringSession)
    (by decide +kernel)
  exact ⟨results, _, hrun, by decide +kernel, by decide +kernel,
    (calls_hydrated hcurrent hfree (fun _ _ => rfl) hrun).1⟩

/-! ### Fields with one name

Where an attribute and a relation of a class have one name, the field holds the relation, and what the
store has for the attribute does not show. -/

def tagged : Store :=
  { schemas := .insert .empty "tags" { classes := [{
      name := "Item"
      attributes := [{ name := "tag", type := "string" }]
      relations := [{ name := "tag", target := "Item" }] }] }
    databases := .insert .empty "d" {
      includes := ["tags"]
      records := .ofList [(⟨"Item", "a"⟩, .ofList [("tag", .text "hello")])] }
    loaded := ["d"] }

def itemSchema : ClassSchema :=
  { name := "Item"
    attributes := .insert .empty "tag" {
      name := "tag", type := .text .string, multivalue := false, notNull := false
      rangeSource := none, initialSource := none, description := ""
      binding := some { range := .unbounded } }
    relations := .insert .empty "tag" {
      name := "tag", target := "Item", multivalue := false, notNull := false
      aggregation := false, description := "" } }

def taggedSession : Workspace :=
  { session := { registry := ⟨0⟩ }
    world := { store := tagged, registries := Arena.empty.push (.single ⟨0⟩ itemSchema) } }

theorem not_showsAttribute_of_relation :
    ¬ ∀ (base s : Workspace) (calls : List Call) (results : List (List ObjectId)),
      base.registry.Current base.world.store.hierarchy → Unambiguous base.world.store →
      (∀ className id, base.cached? className id = none) →
      calls.mapM Call.run base = (.ok results, s) →
      ∀ o, s.Stands o → ∀ name a, (s.world.object o).schema.attribute? name = some a →
        s.ShowsAttribute o name a := by
  intro hclaim
  have hfree : Unambiguous taggedSession.world.store := by
    intro r t hr ht _ _
    have hall : taggedSession.world.store.allRecords = [⟨"Item", "a"⟩] := rfl
    have hrmem := hr.mem_allRecords
    have htmem := ht.mem_allRecords
    rw [hall, List.mem_singleton] at hrmem htmem
    rw [hrmem, htmem]
  have hcurrent : taggedSession.registry.Current taggedSession.world.store.hierarchy :=
    Registry.current_single rfl rfl
  obtain ⟨results, hrun⟩ := run_of_isOk (m := [Call.get "Item" "a"].mapM Call.run)
    (s := taggedSession) (by decide +kernel)
  obtain ⟨-, hhydrating, -⟩ := mapM_call_run (hydratable_visible hcurrent hfree) (fun _ hr => hr)
    (hydrating_start fun _ _ => rfl) hrun
  have hstands := (hhydrating.cached "Item" "a" ⟨0⟩ (by decide +kernel)).stands
  have hclaimed := hclaim _ _ _ _ hcurrent hfree (fun _ _ => rfl) hrun ⟨0⟩ hstands "tag"
  have hgetter : ((([Call.get "Item" "a"].mapM Call.run taggedSession).2.world.object
      ⟨0⟩).schema.attribute? "tag").map Attribute.getter
      = some ⟨.attribute (.text .string), false⟩ := by decide +kernel
  obtain ⟨a, ha, hgetter⟩ := Option.map_eq_some_iff.mp hgetter
  obtain ⟨v, hread, hshown⟩ := hclaimed a ha
  have hrecord : (([Call.get "Item" "a"].mapM Call.run taggedSession).2.world.object ⟨0⟩).record
      = ⟨"Item", "a"⟩ := by decide +kernel
  rw [hrecord, hgetter, hhydrating.grown.store] at hread
  have hstored : taggedSession.world.store.read ⟨"Item", "a"⟩ "tag"
      ⟨.attribute (.text .string), false⟩ = .ok (.text "hello") := rfl
  cases hstored.symm.trans hread
  have hunset : ((([Call.get "Item" "a"].mapM Call.run taggedSession).2.world.object ⟨0⟩).shown
      "tag").isUnset = true := by decide +kernel
  rw [hshown] at hunset
  simp [Field.settled, Field.isUnset, Value.isNull] at hunset

end Session

end RecordGraph
