import RecordGraph.Proofs.Registry.Learning
import RecordGraph.Proofs.Session.Building
import RecordGraph.Proofs.Session.Maintaining
import RecordGraph.Proofs.Session.Opening

/-!
What happens to a session between its calls.  Objects are made and written to, the store changes under
the session, and classes are picked up, but nothing comes into the cache or leaves it, and no object
is renamed.
-/

namespace RecordGraph

open RecordGraph.Computation

namespace Workspace

variable {s t u : Workspace} {o : ObjectId}

/-- One workspace comes from another without losing a type or an object, or renaming an object. -/
structure Keeps (s t : Workspace) : Prop where
  types : s.registry.KeepsTypes t.registry
  objects : s.world.objects.size ≤ t.world.objects.size
  header : ∀ o : ObjectId, o.index < s.world.objects.size →
    (t.world.object o).type = (s.world.object o).type
      ∧ (t.world.object o).id = (s.world.object o).id
      ∧ (t.world.object o).oldId = (s.world.object o).oldId

/-- A session was idle: its cache is as it was. -/
structure Idles (s t : Workspace) : Prop extends Keeps s t where
  cached? : ∀ className id, t.cached? className id = s.cached? className id

/-- An object of the type that the session has for its class, which was not renamed. -/
structure Instance (s : Workspace) (o : ObjectId) : Prop where
  bound : o.index < s.world.objects.size
  type : s.registry.types.get? (s.world.object o).className = some (s.world.object o).type
  oldId : (s.world.object o).oldId = none

namespace Keeps

theorem refl (s : Workspace) : s.Keeps s := ⟨.refl _, Nat.le_refl _, fun _ _ => ⟨rfl, rfl, rfl⟩⟩

theorem trans (hst : s.Keeps t) (htu : t.Keeps u) : s.Keeps u := by
  refine ⟨hst.types.trans htu.types, Nat.le_trans hst.objects htu.objects, fun o ho => ?_⟩
  obtain ⟨htype, hid, holdId⟩ := htu.header o (Nat.lt_of_lt_of_le ho hst.objects)
  obtain ⟨htype', hid', holdId'⟩ := hst.header o ho
  exact ⟨htype.trans htype', hid.trans hid', holdId.trans holdId'⟩

variable (h : s.Keeps t)

include h

theorem record (ho : o.index < s.world.objects.size) :
    (t.world.object o).record = (s.world.object o).record := by
  obtain ⟨htype, hid, -⟩ := h.header o ho
  rw [Object.record, Object.className, htype, hid]
  rfl

theorem isInstance (ho : s.Instance o) : t.Instance o := by
  obtain ⟨htype, -, holdId⟩ := h.header o ho.bound
  refine ⟨Nat.lt_of_lt_of_le ho.bound h.objects, ?_, holdId.trans ho.oldId⟩
  rw [Object.className, htype]
  exact h.types.types _ _ ho.type

end Keeps

theorem Maintains.record (h : s.Maintains t) (o : ObjectId) :
    (t.world.object o).record = (s.world.object o).record := by
  rw [Object.record, Object.className, h.world.type, h.world.id]
  rfl

theorem Maintains.idles (h : s.Maintains t) : s.Idles t where
  types := .of_eq (by rw [h.registry])
  objects := Nat.le_of_eq h.world.objects.symm
  header o _ := ⟨h.world.type o, h.world.id o, h.world.oldId o⟩
  cached? _ _ := by rw [h.cached?]

theorem keeps_make (s : Workspace) (type : ClassType) (id : String) : s.Keeps (s.make type id) := by
  refine ⟨.refl _, by rw [size_make]; exact Nat.le_succ _, fun o ho => ?_⟩
  rw [object_make_of_lt ho]
  exact ⟨rfl, rfl, rfl⟩

theorem keeps_cache (s : Workspace) (o : ObjectId) : s.Keeps (s.cache o) :=
  ⟨.refl _, Nat.le_refl _, fun _ _ => ⟨rfl, rfl, rfl⟩⟩

end Workspace

namespace Session

open Workspace

variable {s t : Workspace}

/-- Making an object. -/
theorem newObject_run {className id : String} {o : ObjectId}
    (hrun : newObject className id s = (.ok o, t)) :
    s.Idles t ∧ s.world.objects.size ≤ o.index ∧ o.index < t.world.objects.size
      ∧ ∃ type, s.registry.types.get? className = some type
        ∧ t.world.object o = { type, id } := by
  obtain ⟨type, u, hask, hmake⟩ := bind_eq_ok.mp hrun
  rw [ask_apply] at hask
  obtain ⟨htype, rfl⟩ := Prod.mk.inj hask
  obtain ⟨heq, rfl⟩ := Prod.mk.inj hmake
  cases heq
  have hobject : ∀ x, (World.object { s.world with objects := s.world.objects.push { type, id } } x)
      = if x.index = s.world.objects.size then { type, id } else s.world.object x :=
    fun _ => Arena.read_push ..
  refine ⟨⟨⟨.refl _, by simp, fun x hx => ?_⟩, fun _ _ => rfl⟩, Nat.le_refl _, by simp, type,
    Registry.type_eq_ok.mp htype, (hobject _).trans (if_pos rfl)⟩
  simp only [hobject, if_neg (Nat.ne_of_lt hx), and_self]

/-- New objects are objects of the session. -/
theorem isInstance_newObject {className id : String} {o : ObjectId} (hnamed : s.registry.NamesTypes)
    (hrun : newObject className id s = (.ok o, t)) : t.Instance o := by
  obtain ⟨hidles, -, hbound, type, htype, hobject⟩ := newObject_run hrun
  refine ⟨hbound, ?_, by rw [hobject]⟩
  rw [hobject, Object.className, hnamed _ _ htype]
  exact hidles.types.types _ _ htype

/-- Writing to a field of an object. -/
theorem idles_set (s : Workspace) (o : ObjectId) {name : String} (f : Field) (hname : name ≠ "id") :
    s.Idles (act (o.set name f) s).2 := by
  rw [act_apply]
  rcases World.set_cases s.world o name f with hset | ⟨hid, -⟩ | ⟨-, g, -, hset⟩
  · rw [hset]
    exact ⟨.refl s, fun _ _ => rfl⟩
  · exact absurd hid hname
  · obtain ⟨touched, hwrite⟩ := Object.write_eq (s.world.object o) name g
    have hheader := World.Maintains.changeObject s.world o (f := fun object => object.write name g)
      (by rw [hwrite]; rfl) (by rw [hwrite]; rfl) (by rw [hwrite]; rfl)
    have hsame := (World.sameTypes_writeField s.world o name g).types s.session.registry
    rw [hset]
    exact ⟨⟨.of_eq hsame, Nat.le_of_eq hheader.objects.symm,
      fun x _ => ⟨hheader.type x, hheader.id x, hheader.oldId x⟩⟩, fun _ _ => rfl⟩

/-- A registry that loses no type in a change leaves the session idle. -/
theorem idles_changeRegistry {w : World} {f : Registry → Registry}
    (h : s.Idles ⟨s.session, w⟩)
    (hf : (w.registry s.session.registry).KeepsTypes (f (w.registry s.session.registry))) :
    s.Idles ⟨s.session, w.changeRegistry s.session.registry f⟩ := by
  have htypes : (w.registry s.session.registry).KeepsTypes
      ((w.changeRegistry s.session.registry f).registry s.session.registry) := by
    rw [World.registry_changeRegistry]
    split
    · exact hf
    · exact .refl _
  exact ⟨⟨h.types.trans htypes, h.objects, h.header⟩, h.cached?⟩

/-- Picking up classes that the store has come to show. -/
theorem idles_refresh (s : Workspace) : s.Idles (refresh s).2 := by
  have hidles : s.Idles ⟨s.session, (s.session.registry.refresh s.world).2⟩ := by
    refine s.session.registry.preserves_refresh (P := fun w => s.Idles ⟨s.session, w⟩)
      (fun w ws h => ⟨⟨h.types, h.objects, h.header⟩, h.cached?⟩)
      (fun w c schema h => idles_changeRegistry h (.of_eq rfl))
      (fun w h => idles_changeRegistry h ?_) s.world ⟨.refl s, fun _ _ => rfl⟩
    exact Registry.preserves_deriveMissing (fun _ _ _ hr hnew ht =>
      hr.trans (Registry.keepsTypes_insertType hnew ht)) _ (.refl _)
  have hact := act_apply s.session.registry.refresh s
  rw [refresh, bind_of_ok (get_apply s)]
  rcases hrun : s.session.registry.refresh s.world with ⟨e | added, w⟩
  all_goals rw [hrun] at hidles hact
  · rw [bind_of_error hact]
    exact hidles
  · rw [bind_of_ok hact, bind_of_ok (modify_apply _ _), pure_apply]
    exact ⟨⟨hidles.types, hidles.objects, hidles.header⟩,
      fun className id => SessionCache.get?_foldl_init _ _ _ _⟩

end Session

end RecordGraph
