import RecordGraph.Proofs.Session.Hydration
import RecordGraph.Proofs.Session.Idling
import RecordGraph.Proofs.Session.Populating

/-!
The object that came into a cache last for a class and id.  Hydration makes an object only for a class
and id for which none came before; persisting caches objects whatever was cached before.
-/

namespace RecordGraph

open RecordGraph.Computation

/-- For each class and id the object that came into a cache last. -/
abbrev History := RecordRef → Option ObjectId

namespace History

/-- One history goes on from another without another object for a class and id. -/
def Extends (H H' : History) : Prop := ∀ r o, H r = some o → H' r = some o

/-- The history after an object came into the cache. -/
def note (H : History) (r : RecordRef) (o : ObjectId) : History :=
  fun other => if other = r then some o else H other

/-- The history after objects came into the cache one after the other. -/
def notes (H : History) (w : World) (os : List ObjectId) : History :=
  os.foldl (fun H o => H.note (w.object o).record o) H

variable {H H' H'' : History} {r : RecordRef} {o : ObjectId}

theorem Extends.refl (H : History) : H.Extends H := fun _ _ h => h

theorem Extends.trans (h : H.Extends H') (h' : H'.Extends H'') : H.Extends H'' :=
  fun r o ho => h' r o (h r o ho)

theorem note_eq_some {other : RecordRef} {x : ObjectId} :
    H.note r o other = some x ↔ other = r ∧ x = o ∨ other ≠ r ∧ H other = some x := by
  unfold note
  split
  · rename_i heq
    simp [heq, eq_comm]
  · rename_i hne
    simp [hne]

theorem extends_note (hnew : H r = none) : H.Extends (H.note r o) := by
  intro other x hx
  have hne : other ≠ r := by
    rintro rfl
    simp [hnew] at hx
  rwa [note, if_neg hne]

end History

namespace Workspace

variable {s t : Workspace} {H H' : History} {o : ObjectId} {r : RecordRef} {className id : String}

/-- A history tells what came into the cache of a session: whatever is cached is the last object of
its class and id, under the names of its type and its id. -/
structure Remembers (s : Workspace) (H : History) : Prop where
  named : s.registry.NamesTypes
  cached : ∀ c i o, s.cached? c i = some o →
    i = (s.world.object o).id ∧ c ∈ s.classesOf o ∧ H (s.world.object o).record = some o
  isInstance : ∀ r o, H r = some o → s.Instance o
  record : ∀ r o, H r = some o → (s.world.object o).record = r
  listed : ∀ r o, H r = some o → (s.cached? r.className r.id).isSome = true

/-- Nothing came into an empty cache. -/
theorem remembers_empty (hnamed : s.registry.NamesTypes) (hempty : ∀ c i, s.cached? c i = none) :
    s.Remembers fun _ => none where
  named := hnamed
  cached c i o ho := by simp [hempty] at ho
  isInstance r o ho := by simp at ho
  record r o ho := by simp at ho
  listed r o ho := by simp at ho

namespace Remembers

theorem idle (hs : s.Remembers H) (h : s.Idles t) : t.Remembers H where
  named := h.types.named hs.named
  cached c i o ho := by
    rw [h.cached?] at ho
    obtain ⟨hi, hc, hlast⟩ := hs.cached c i o ho
    have hbound := (hs.isInstance _ _ hlast).bound
    obtain ⟨htype, hid, -⟩ := h.header o hbound
    rw [h.record hbound, hid, classesOf, htype]
    exact ⟨hi, hc, hlast⟩
  isInstance r o ho := h.isInstance (hs.isInstance r o ho)
  record r o ho := (h.record (hs.isInstance r o ho).bound).trans (hs.record r o ho)
  listed r o ho := by
    rw [h.cached?]
    exact hs.listed r o ho

/-- Nothing came into the cache for a class and id under which nothing is cached. -/
theorem eq_none (hs : s.Remembers H) (hfree : s.cached? r.className r.id = none) : H r = none := by
  cases ho : H r with
  | none => rfl
  | some o => exact absurd (hs.listed r o ho) (by simp [hfree])

/-- An object comes into the cache, whatever was cached before. -/
theorem enter (hs : s.Remembers H) (h : s.Keeps t) (ho : t.Instance o)
    (hcached : ∀ c i, t.cached? c i
      = if c ∈ t.classesOf o ∧ i = (t.world.object o).id then some o else s.cached? c i) :
    t.Remembers (H.note (t.world.object o).record o) := by
  refine ⟨h.types.named hs.named, ?_, ?_, ?_, ?_⟩
  · intro c i x hx
    rw [hcached] at hx
    split at hx
    · rename_i hnew
      cases hx
      exact ⟨hnew.2, hnew.1, if_pos rfl⟩
    · rename_i hnot
      obtain ⟨hi, hc, hlast⟩ := hs.cached c i x hx
      have hx := hs.isInstance _ _ hlast
      obtain ⟨htype, hid, -⟩ := h.header x hx.bound
      rw [← hid] at hi
      rw [classesOf, ← htype] at hc
      rw [← h.record hx.bound] at hlast
      -- another object of the class and id has lost all its places
      have hne : (t.world.object x).record ≠ (t.world.object o).record := by
        intro heq
        obtain ⟨hclass, hsame⟩ := RecordRef.mk.inj heq
        have hknown := (h.isInstance hx).type
        rw [hclass, ho.type] at hknown
        refine hnot ⟨?_, hi.trans hsame⟩
        rw [classesOf, Option.some.inj hknown]
        exact hc
      exact ⟨hi, hc, (if_neg hne).trans hlast⟩
  · intro r x hx
    rcases History.note_eq_some.mp hx with ⟨-, rfl⟩ | ⟨-, hold⟩
    · exact ho
    · exact h.isInstance (hs.isInstance r x hold)
  · intro r x hx
    rcases History.note_eq_some.mp hx with ⟨rfl, rfl⟩ | ⟨-, hold⟩
    · rfl
    · exact (h.record (hs.isInstance r x hold).bound).trans (hs.record r x hold)
  · intro r x hx
    rw [hcached]
    split
    · rfl
    · rename_i hnot
      rcases History.note_eq_some.mp hx with ⟨rfl, rfl⟩ | ⟨-, hold⟩
      · exact absurd ⟨ClassType.name_mem_names _, rfl⟩ hnot
      · exact hs.listed r x hold

/-- The object of a record is made. -/
theorem make {type : ClassType} (hs : s.Remembers H)
    (hknown : s.registry.types.get? r.className = some type) :
    (s.make type r.id).Remembers (H.note r ⟨s.world.objects.size⟩) := by
  have hname : type.name = r.className := hs.named _ _ hknown
  have hmade : (s.make type r.id).world.object ⟨s.world.objects.size⟩ = { type, id := r.id } :=
    object_make_new
  have hrecord : ((s.make type r.id).world.object ⟨s.world.objects.size⟩).record = r := by
    rw [hmade, Object.record, Object.className, hname]
  have hinstance : (s.make type r.id).Instance ⟨s.world.objects.size⟩ := by
    refine ⟨by simp [size_make], ?_, by rw [hmade]⟩
    rw [hmade, Object.className, hname]
    exact hknown
  have hentered := hs.enter (keeps_make s type r.id) hinstance fun c i => by
    rw [classesOf, hmade]
    exact cached?_make ..
  rwa [hrecord] at hentered

/-- An object is persisted. -/
theorem cache (hs : s.Remembers H) (ho : s.Instance o) :
    (s.cache o).Remembers (H.note (s.world.object o).record o) :=
  hs.enter (keeps_cache s o) ((keeps_cache s o).isInstance ho) (cached?_cache s o)

/-- While records are hydrated, nothing comes into the cache in the place of an object of the same
class and id. -/
theorem populates (hs : s.Remembers H) (h : s.Populates t) :
    ∃ H', H.Extends H' ∧ t.Remembers H' := by
  induction h with
  | refl => exact ⟨H, .refl H, hs⟩
  | maintain _ step ih =>
    obtain ⟨H', hextends, ht⟩ := ih
    exact ⟨H', hextends, ht.idle step.idles⟩
  | make _ known free ih =>
    obtain ⟨H', hextends, ht⟩ := ih
    exact ⟨_, hextends.trans (History.extends_note (ht.eq_none free)), ht.make known⟩

end Remembers

theorem Populates.keeps (h : s.Populates t) : s.Keeps t := by
  induction h with
  | refl => exact .refl s
  | maintain _ step ih => exact ih.trans step.idles.toKeeps
  | make _ _ _ ih => exact ih.trans (keeps_make _ _ _)

/-- A session went on from a history, and meanwhile objects were in its cache. -/
def Recalls (t : Workspace) (H : History) (os : List ObjectId) : Prop :=
  ∃ H', H.Extends H' ∧ t.Remembers H' ∧ ∀ o ∈ os, ∃ r, H' r = some o

theorem Remembers.recalls (hs : s.Remembers H) (h : s.Populates t) : t.Recalls H [] := by
  obtain ⟨H', hextends, ht⟩ := hs.populates h
  exact ⟨H', hextends, ht, by simp⟩

theorem Recalls.populates {os : List ObjectId} (hs : s.Recalls H os) (h : s.Populates t) :
    t.Recalls H os := by
  obtain ⟨H', hextends, hs, hos⟩ := hs
  obtain ⟨H'', hextends', ht⟩ := hs.populates h
  refine ⟨H'', hextends.trans hextends', ht, fun o ho => ?_⟩
  obtain ⟨r, hr⟩ := hos o ho
  exact ⟨r, hextends' r o hr⟩

/-- What is cached came into the cache. -/
theorem Recalls.cached {os : List ObjectId} (hs : s.Recalls H os)
    (ho : s.cached? className id = some o) : s.Recalls H (os ++ [o]) := by
  obtain ⟨H', hextends, hs, hos⟩ := hs
  refine ⟨H', hextends, hs, fun x hx => ?_⟩
  rcases List.mem_append.mp hx with hx | hx
  · exact hos x hx
  · obtain rfl := List.mem_singleton.mp hx
    exact ⟨_, (hs.cached _ _ _ ho).2.2⟩

theorem Recalls.of_subset {os os' : List ObjectId} (hs : s.Recalls H os)
    (hsub : ∀ o ∈ os', o ∈ os) : s.Recalls H os' := by
  obtain ⟨H', hextends, hs, hos⟩ := hs
  exact ⟨H', hextends, hs, fun o ho => hos o (hsub o ho)⟩

end Workspace

namespace Session

open Workspace

variable {s t : Workspace} {H : History} {o : ObjectId} {os found : List ObjectId} {p : ProxyId}

/-! ### Calls -/

theorem objectOf_cached {new : Bool} (hrun : objectOf p s = (.ok (o, new), t)) :
    ∃ className id, t.cached? className id = some o := by
  rw [objectOf, bind_of_ok (get_apply s)] at hrun
  cases hcached : s.cached? (s.world.recordOf p).className (s.world.recordOf p).id with
  | some x =>
    simp only [hcached] at hrun
    obtain ⟨heq, rfl⟩ := Prod.mk.inj hrun
    cases heq
    exact ⟨_, _, hcached⟩
  | none =>
    simp only [hcached] at hrun
    obtain ⟨x, s₁, hmake, hpure⟩ := bind_eq_ok.mp hrun
    obtain ⟨heq, rfl⟩ := Prod.mk.inj hpure
    cases heq
    obtain ⟨type, -, rfl, rfl⟩ := instantiate_run hmake
    exact ⟨type.name, _, (cached?_make ..).trans (if_pos ⟨ClassType.name_mem_names type, rfl⟩)⟩

theorem hydrate_recalls (hs : s.Recalls H found) (hrun : hydrate p s = (.ok o, t)) :
    t.Recalls H (found ++ [o]) := by
  obtain ⟨⟨x, new⟩, u, hfind, hrest⟩ := bind_eq_ok.mp hrun
  obtain ⟨className, id, hcached⟩ := objectOf_cached hfind
  have hfound := (hs.populates ((preserves_objectOf p).run .refl hfind)).cached hcached
  cases new with
  | false =>
    obtain ⟨heq, rfl⟩ := Prod.mk.inj hrest
    cases heq
    exact hfound
  | true =>
    simp only [if_true] at hrest
    rw [bind_of_ok (get_apply u)] at hrest
    obtain ⟨_, v, hload, hpure⟩ := bind_eq_ok.mp hrest
    obtain ⟨heq, rfl⟩ := Prod.mk.inj hpure
    cases heq
    exact hfound.populates ((preserves_loadPending _ _).run .refl hload)

theorem getObject_recalls {className id : String} (hs : s.Remembers H)
    (hrun : getObject className id s = (.ok o, t)) : t.Recalls H [o] := by
  have hstart := hs.recalls .refl
  rw [getObject, bind_of_ok (get_apply s)] at hrun
  cases hcached : s.cached? className id with
  | some x =>
    simp only [hcached] at hrun
    obtain ⟨heq, rfl⟩ := Prod.mk.inj hrun
    cases heq
    exact hstart.cached hcached
  | none =>
    simp only [hcached] at hrun
    obtain ⟨p, u, hrecord, hhydrate⟩ := bind_eq_ok.mp hrun
    have hproxy := (preserves_record className id).run (.refl s) hrecord
    exact hydrate_recalls (hstart.populates (.maintain .refl hproxy)) hhydrate

theorem getAll_recalls {className : String} (hs : s.Recalls H found)
    (hrun : getAll className s = (.ok os, t)) : t.Recalls H (found ++ os) := by
  obtain ⟨ps, u, hlist, hmapM⟩ := bind_eq_ok.mp hrun
  have hproxies := (preserves_records className).run (.refl s) hlist
  refine mapM_run (fun _ os t => t.Recalls H (found ++ os)) hmapM ?_ ?_
  · rw [List.append_nil]
    exact hs.populates (.maintain .refl hproxies)
  · intro done os p o a b _ hbefore hstep
    rw [← List.append_assoc]
    exact hydrate_recalls hbefore hstep

theorem materializeAll_recalls (hs : s.Remembers H) (hrun : materializeAll s = (.ok os, t)) :
    t.Recalls H os := by
  obtain ⟨all, hfold, rfl⟩ := materializeAll_eq_ok.mp hrun
  refine foldlM_run (fun _ found t => t.Recalls H found.values) hfold ?_ ?_
  · refine ⟨H, .refl H, hs, fun o ho => ?_⟩
    obtain ⟨name, hget⟩ := OrderedMap.exists_get?_of_mem_values ho
    obtain ⟨-, c, i, hcached⟩ := of_get?_cachedNames hget
    exact ⟨_, (hs.cached c i o hcached).2.2⟩
  · intro done found className next a b _ hbefore hstep
    obtain ⟨objects, hall, rfl⟩ := materializeClass_eq_ok.mp hstep
    refine (getAll_recalls hbefore hall).of_subset fun o ho => ?_
    rcases OrderedMap.mem_values_foldl_insertNew ho with hold | ⟨x, hx, rfl⟩
    · exact List.mem_append_left _ hold
    · exact List.mem_append_right _ hx

/-- The objects that a call gives, none if it fails. -/
def given : Except Error (List ObjectId) → List ObjectId
  | .ok os => os
  | .error _ => []

theorem Call.preserves_run (c : Call) : Preserves s.Populates c.run := by
  cases c with
  | get className id => exact (preserves_getObject className id).bind fun _ => preserves_pure _
  | getAll className => exact preserves_getAll className
  | materializeAll => exact preserves_materializeAll

/-- A call gives objects that came into the cache, and nothing comes into the cache in the place of an
object of the same class and id. -/
theorem Call.run_recalls {result : Except Error (List ObjectId)} (c : Call) (hs : s.Remembers H)
    (hrun : c.run s = (result, t)) : t.Recalls H (given result) := by
  cases result with
  | error e => exact hs.recalls (c.preserves_run.run .refl hrun)
  | ok os =>
    cases c with
    | get className id =>
      obtain ⟨o, u, hget, hpure⟩ := bind_eq_ok.mp hrun
      obtain ⟨heq, rfl⟩ := Prod.mk.inj hpure
      cases heq
      exact getObject_recalls hs hget
    | getAll className => exact getAll_recalls (hs.recalls .refl) hrun
    | materializeAll => exact materializeAll_recalls hs hrun

end Session

end RecordGraph
