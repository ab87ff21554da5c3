import RecordGraph.Proofs.Object.Listing
import RecordGraph.Proofs.Session.Framing

/-!
Writes to objects.  A write that fails leaves everything as it is.  One that succeeds changes one field
of one object, notes a relation as touched, and leaves an object of the same full name listed as updated:
whatever sessions do, registries list objects under the names that these have.
-/

namespace RecordGraph

open RecordGraph.Computation

namespace World

variable {r home : RegistryId} {u v w w' : World} {o : ObjectId} {name : String} {f g : Field}

theorem registry_of_missing (h : ¬ r.index < w.registries.size) : w.registry r = default := by
  rw [registry, Arena.read, Array.getD_eq_getD_getElem?, Array.getElem?_eq_none (Nat.le_of_not_lt h)]
  rfl

/-- A registry that is not there yet reads like a new one. -/
theorem registry_addRegistry_empty (w : World) (r : RegistryId) :
    (w.addRegistry {} []).registry r = w.registry r := by
  have hpush : (w.addRegistry {} []).registry r
      = if r.index = w.registries.size then {} else w.registry r := Arena.read_push ..
  rw [hpush]
  split
  · rename_i heq
    rw [registry_of_missing (heq ▸ Nat.lt_irrefl _)]
    rfl
  · rfl

/-! ### What registries list -/

/-- A registry lists the same objects as before, and the objects that there were are of the same types
and stand for the same records. -/
structure KeepsListing (r : RegistryId) (v w : World) : Prop where
  registries : v.registries.size ≤ w.registries.size
  objects : v.objects.size ≤ w.objects.size
  type : ∀ o : ObjectId, o.index < v.objects.size → (w.object o).type = (v.object o).type
  record : ∀ o : ObjectId, o.index < v.objects.size → (w.object o).record = (v.object o).record
  updated : (w.registry r).updated = (v.registry r).updated

namespace KeepsListing

theorem refl (w : World) : w.KeepsListing r w :=
  ⟨Nat.le_refl _, Nat.le_refl _, fun _ _ => rfl, fun _ _ => rfl, rfl⟩

theorem trans (huv : u.KeepsListing r v) (hvw : v.KeepsListing r w) : u.KeepsListing r w where
  registries := Nat.le_trans huv.registries hvw.registries
  objects := Nat.le_trans huv.objects hvw.objects
  type o ho := (hvw.type o (Nat.lt_of_lt_of_le ho huv.objects)).trans (huv.type o ho)
  record o ho := (hvw.record o (Nat.lt_of_lt_of_le ho huv.objects)).trans (huv.record o ho)
  updated := hvw.updated.trans huv.updated

theorem of_takes (h : v.Takes r .idle w) : v.KeepsListing r w where
  registries := Nat.le_of_eq h.registries.symm
  objects := h.objects
  type := h.type
  record := h.record
  updated := h.updated

theorem of_maintains (h : v.Maintains w) : v.KeepsListing r w where
  registries := Nat.le_of_eq (congrArg Arena.size h.registries.symm)
  objects := Nat.le_of_eq h.objects.symm
  type o _ := h.type o
  record o _ := by
    unfold Object.record Object.className
    rw [h.type o, h.id o]
  updated := by
    unfold registry
    rw [h.registries]

theorem changeRegistry (w : World) (other : RegistryId) {f : Registry → Registry}
    (hf : (f (w.registry other)).updated = (w.registry other).updated) :
    w.KeepsListing r (w.changeRegistry other f) where
  registries := by simp [World.changeRegistry]
  objects := Nat.le_refl _
  type _ _ := rfl
  record _ _ := rfl
  updated := by
    rw [registry_changeRegistry]
    split
    · rename_i heq
      rw [hf, heq.1]
    · rfl

theorem addRegistry (w : World) : w.KeepsListing r (w.addRegistry {} []) where
  registries := by simp [World.addRegistry]
  objects := Nat.le_refl _
  type _ _ := rfl
  record _ _ := rfl
  updated := by rw [registry_addRegistry_empty]

theorem onRegistry {α : Type} (w : World) (other : RegistryId) {m : RegistryM α}
    (hm : ∀ listed, Preserves (fun reg => reg.updated = listed) m) :
    w.KeepsListing r (Action.onRegistry other m w).2 := by
  rw [Action.onRegistry_apply]
  exact changeRegistry w other (hm _ (w.registry other) rfl)

theorem warn (w : World) (ws : List Warning) : w.KeepsListing r (w.warn ws) :=
  ⟨Nat.le_refl _, Nat.le_refl _, fun _ _ => rfl, fun _ _ => rfl, rfl⟩

theorem refreshSchemas (w : World) (other : RegistryId) :
    w.KeepsListing r (other.refreshSchemas w).2 :=
  other.preserves_refreshSchemas (fun t ws ht => ht.trans (warn t ws))
    (fun t _ _ ht => ht.trans (changeRegistry t other rfl)) w (refl w)

theorem refresh (w : World) (other : RegistryId) : w.KeepsListing r (other.refresh w).2 :=
  other.preserves_refresh (fun t ws ht => ht.trans (warn t ws))
    (fun t _ _ ht => ht.trans (changeRegistry t other rfl))
    (fun t ht => ht.trans (onRegistry t other fun _ =>
      Registry.preserves_deriveMissing fun _ _ _ h _ _ => h)) w (refl w)

theorem register (w : World) (other : RegistryId) (className : String) (bases : List ClassType) :
    w.KeepsListing r (other.register className bases w).2 := by
  refine onRegistry w other fun listed reg hreg => ?_
  rw [Registry.register, bind_of_ok (get_apply reg)]
  cases reg.types.get? className with
  | some t => exact hreg
  | none =>
    dsimp only
    rw [bind_apply, ofExcept_apply]
    cases reg.schema className <;> exact hreg

theorem clearRename (w : World) (o : ObjectId) :
    w.KeepsListing r (w.changeObject o fun object => { object with oldId := none }) := by
  have hheader : ∀ x, ((w.changeObject o fun object => { object with oldId := none }).object x).type
        = (w.object x).type
      ∧ ((w.changeObject o fun object => { object with oldId := none }).object x).record
        = (w.object x).record := by
    intro x
    rw [object_changeObject]
    split
    · rename_i hx
      rw [hx.1]
      exact ⟨rfl, rfl⟩
    · exact ⟨rfl, rfl⟩
  exact ⟨Nat.le_refl _, by simp [changeObject], fun x _ => (hheader x).1, fun x _ => (hheader x).2, rfl⟩

theorem of_populates {s t : Workspace} (h : s.Populates t) : s.world.KeepsListing r t.world := by
  induction h with
  | refl => exact .refl _
  | maintain _ step ih => exact ih.trans (.of_maintains step.world)
  | make _ _ _ ih => exact ih.trans (.of_takes (ObjectStep.takes_newObject _ _))

end KeepsListing

/-- What a registry lists stays the same but for the calls on objects. -/
theorem frame_keepsListing (r : RegistryId) : Frame (KeepsListing r) where
  refl := .refl
  trans := .trans
  outside hregistries hobjects _ := .of_maintains (.of_eq hregistries hobjects)
  newProxy w other record := .of_maintains (Action.preserves_newProxy other record w (.refl w))
  changeProxy _ _ _ _ := .of_maintains (.of_eq rfl rfl)
  newObject _ type id := .of_takes (ObjectStep.takes_newObject type id)
  read w o name := .of_maintains (o.preserves_get name w (.refl w))
  clearTouched w o := .of_maintains (.changeObject w o rfl rfl rfl)
  clearRename := .clearRename
  answer _ c := .of_populates (c.preserves_run _ .refl)
  newRegistry := .addRegistry
  refresh := .refresh
  derive w other classNames :=
    .onRegistry w other fun _ => Registry.preserves_derive (fun _ _ _ h _ _ => h) classNames

/-- Every registry lists objects of its own that were made, under their names. -/
def ListsByName (w : World) : Prop :=
  ∀ r : RegistryId, r.index < w.registries.size → ∃ written, w.Sound r written

theorem Sound.keeps {written : List ObjectId} (h : v.Sound r written) (hkeeps : v.KeepsListing r w) :
    w.Sound r written where
  registry := Nat.lt_of_lt_of_le h.registry hkeeps.registries
  made x hx := Nat.lt_of_lt_of_le (h.made x hx) hkeeps.objects
  home x hx := by rw [hkeeps.type x (h.made x hx), h.home x hx]
  current name x hx := by
    rw [hkeeps.updated] at hx
    rw [nameOf, Object.fullName, hkeeps.record x (h.made x (h.held name x hx))]
    exact h.current name x hx
  held name x hx := h.held name x (hkeeps.updated ▸ hx)

theorem ListsByName.keeps (h : v.ListsByName) (hkeeps : ∀ r, v.KeepsListing r w) : w.ListsByName := by
  intro r hr
  by_cases hold : r.index < v.registries.size
  · obtain ⟨written, hsound⟩ := h r hold
    exact ⟨written, hsound.keeps (hkeeps r)⟩
  · -- a new registry lists nothing
    refine ⟨[], sound_nil hr ?_⟩
    rw [(hkeeps r).updated, registry_of_missing hold]
    rfl

/-- An object is listed under every name that is listed, and has it. -/
theorem ListsByName.nameOf_eq (h : w.ListsByName) (hr : r.index < w.registries.size)
    (hx : (w.registry r).updated.get? name = some o) : w.nameOf o = name := by
  obtain ⟨written, hsound⟩ := h r hr
  exact (hsound.current name o hx).symm

end World

/-! ### Calls on objects -/

namespace ObjectCall

variable {r : RegistryId} {w : World}

open World in
theorem size_registries_setUnchecked (o : ObjectId) (name : String) (f : Field) :
    ((o.setUnchecked name f w).2).registries.size = w.registries.size := by
  by_cases hname : ∃ id, name = "id" ∧ f = .value (.text id)
  · obtain ⟨id, rfl, rfl⟩ := hname
    change (w.setId o id).registries.size = _
    simp [setId, changeRegistry, changeObject]
  · rw [ObjectStep.setUnchecked_apply hname]
    split
    · simp [writeField, noteUpdated, changeRegistry, changeObject]
    · rfl

open World in
/-- Calls on objects neither make nor lose registries. -/
theorem size_registries_run (r : RegistryId) (w : World) (call : ObjectCall) :
    (call.run r w).registries.size = w.registries.size := by
  cases call with
  | copy o other =>
    have hcopy : Preserves (fun v : World => v.registries.size = w.registries.size) (o.copy other) :=
      reads_get.preserves.bind fun _ => .forM fun _ _ v hv =>
        (size_registries_setUnchecked o _ _).trans hv
    exact hcopy w rfl
  | single step =>
    cases step with
    | make type id => rfl
    | setUnchecked o name f => exact size_registries_setUnchecked o name f
    | set o name f =>
      rw [run, ObjectStep.run]
      rcases set_cases w o name f with hset | ⟨-, id, hset⟩ | ⟨-, g, -, hset⟩ <;> rw [hset]
      · simp [setId, changeRegistry, changeObject]
      · simp [writeField, noteUpdated, changeRegistry, changeObject]
    | rename o id =>
      rw [run, ObjectStep.run]
      change (if id = (w.object o).id then w else (w.changeObject o fun object =>
        { object with oldId := some object.storedId }).setId o id).registries.size = _
      split
      · rfl
      · simp [setId, changeRegistry, changeObject]
    | reset => simp [run, ObjectStep.run, RegistryId.resetUpdated, changeRegistry]

/-- What a registry lists is known after calls on its objects. -/
theorem exists_sound_run {written : List ObjectId} (h : w.Sound r written) {call : ObjectCall}
    (hexists : call.Exists w) : ∃ after, (call.run r w).Sound r after := by
  obtain ⟨hworld, hpossible⟩ := run_steps (s := (w, written)) h.registry hexists
  rw [← hworld]
  clear hworld
  generalize call.steps w = steps at hpossible
  suffices general : ∀ s : World × List ObjectId, s.1.Sound r s.2 →
      ObjectStep.All r ObjectStep.Possible s steps →
      (steps.foldl (ObjectStep.next r) s).1.Sound r (steps.foldl (ObjectStep.next r) s).2 from
    ⟨_, general (w, written) h hpossible⟩
  clear h hpossible
  induction steps with
  | nil => exact fun _ hs _ => hs
  | cons step steps ih =>
    exact fun s hs hpossible => ih _ (ObjectStep.sound_next hs hpossible.1) hpossible.2

/-- Calls on the objects of one registry are calls on those of another one, unless they make it forget
what it lists. -/
theorem run_eq_or (r other : RegistryId) (w : World) (call : ObjectCall) :
    call.run r w = call.run other w
      ∨ call.run r w = w.changeRegistry r fun reg => { reg with updated := .empty } := by
  cases call with
  | copy o other => exact .inl rfl
  | single step =>
    cases step with
    | reset => exact .inr rfl
    | _ => exact .inl rfl

/-- Registries list objects under their names after calls on objects. -/
theorem listsByName_run (h : w.ListsByName) (r : RegistryId) {call : ObjectCall}
    (hexists : call.Exists w) : (call.run r w).ListsByName := by
  intro other hother
  rw [size_registries_run] at hother
  obtain ⟨written, hsound⟩ := h other hother
  rcases run_eq_or r other w call with heq | heq
  · rw [heq]
    exact exists_sound_run hsound hexists
  · by_cases hsame : other = r
    · refine ⟨[], World.sound_nil (by simpa [heq, World.changeRegistry] using hother) ?_⟩
      rw [heq, World.registry_changeRegistry, if_pos ⟨hsame, hsame ▸ hother⟩]
    · rw [heq]
      refine ⟨written, hsound.keeps ⟨by simp [World.changeRegistry], Nat.le_refl _, fun _ _ => rfl,
        fun _ _ => rfl, ?_⟩⟩
      rw [World.registry_changeRegistry, if_neg fun h => hsame h.1]

end ObjectCall

/-! ### Runs -/

namespace System

variable {y : System}

/-- The objects that calls work on were made. -/
def Made (y : System) : Event → Prop
  | .object _ call => call.Exists y.world
  | _ => True

/-- What runs of events, and registering types and schemas, lead to from an empty world, where calls
work on objects that were made. -/
inductive Arises : System → Prop
  | start : Arises {}
  | step {y : System} (h : Arises y) (event : Event) (made : y.Made event) : Arises (y.run event)
  | refreshSchemas {y : System} (h : Arises y) (r : RegistryId) :
      Arises { y with world := (r.refreshSchemas y.world).2 }
  | register {y : System} (h : Arises y) (r : RegistryId) (className : String)
      (bases : List ClassType) : Arises { y with world := (r.register className bases y.world).2 }

/-- Whatever happens, registries list objects under their names. -/
theorem Arises.listsByName (h : y.Arises) : y.world.ListsByName := by
  induction h with
  | start => exact fun _ hr => absurd hr (Nat.not_lt_zero _)
  | @step y _ event made ih =>
    by_cases hevent : ∃ r call, event = .object r call
    · obtain ⟨r, call, rfl⟩ := hevent
      exact ObjectCall.listsByName_run ih r made
    · exact ih.keeps fun r => (World.frame_keepsListing r).run y event fun r call heq =>
        hevent ⟨r, call, heq⟩
  | @refreshSchemas y _ r ih =>
    dsimp only
    exact ih.keeps fun _ => .refreshSchemas y.world r
  | @register y _ r className bases ih =>
    dsimp only
    exact ih.keeps fun _ => .register y.world r className bases

end System

/-! ### Writes -/

namespace World

variable {w w' : World} {o : ObjectId} {name : String} {f g : Field}

/-- What a write puts into a field: nothing where it clears the field, what coercion makes of the value
of an attribute, and the targets of a relation as they are. -/
inductive Puts (w : World) (o : Object) (name : String) : Field → Option Field → Prop
  | clear {f : Field} (unset : f.isUnset = true) : Puts w o name f none
  | attribute {a : Attribute} {v c : Value} (declared : o.schema.attribute? name = some a)
      (filled : v.isNull = false)
      (coerced : a.coerce o.fullName (w.isKnown o.type.home) v = .ok c) :
      Puts w o name (.value v) (some (.value c))
  | relation {r : Relation} {f : Field} (undeclared : o.schema.attribute? name = none)
      (declared : o.schema.relation? name = some r) (checked : w.checkTargets o r f = .ok f) :
      Puts w o name f (some f)

/-- One world comes from another by a successful write to a field. -/
structure Assigned (w : World) (o : ObjectId) (name : String) (f : Field) (w' : World) : Prop where
  header : (w'.object o).type = (w.object o).type ∧ (w'.object o).id = (w.object o).id
    ∧ (w'.object o).oldId = (w.object o).oldId
  field : w.Puts (w.object o) name f ((w'.object o).fields.get? name)
  otherFields : ∀ other, other ≠ name →
    (w'.object o).fields.get? other = (w.object o).fields.get? other
  touched : (w'.object o).touched = (w.object o).touched
    ∨ ((w.object o).schema.relation? name).isSome = true ∧ name ∉ (w.object o).touched
      ∧ (w'.object o).touched = (w.object o).touched ++ [name]
  listed : ∃ x ∈ (w'.registry (w.object o).type.home).updated.values, w'.nameOf x = w'.nameOf o
  registries : ∀ r, w'.registry r = w.registry r
    ∨ r = (w.object o).type.home ∧ w'.registry r = (w.registry r).noteUpdated (w.nameOf o) o
  otherObjects : ∀ x, x ≠ o → w'.object x = w.object x
  rest : w'.store = w.store ∧ w'.proxies = w.proxies ∧ w'.warnings = w.warnings

/-- What is accepted for a field is what a write puts into it. -/
theorem puts_of_accept {o : Object} (h : w.accept o name f = .ok g) :
    w.Puts o name f (if g.isUnset then none else some g) := by
  unfold accept at h
  split at h
  · rename_i hunset
    cases h
    exact .clear hunset
  · rename_i hset
    cases hattribute : o.schema.attribute? name with
    | some a =>
      simp only [hattribute] at h
      cases f with
      | value v =>
        obtain ⟨c, hcoerce, hpure⟩ := except_bind_eq_ok.mp h
        cases hpure
        have hv : v.isNull = false := by simpa [Field.isUnset] using hset
        have hc : (Field.value c).isUnset = false := Attribute.coerce_not_null hv hcoerce
        rw [hc]
        exact .attribute hattribute hv hcoerce
      | _ => cases h
    | none =>
      simp only [hattribute] at h
      cases hrelation : o.schema.relation? name with
      | none => simp only [hrelation] at h; cases h
      | some r =>
        simp only [hrelation] at h
        have hchecked := h
        obtain ⟨rfl, -⟩ := checkTargets_eq_ok.mp h
        rw [if_neg hset]
        exact .relation hattribute hrelation hchecked

theorem touched_write (o : Object) (name : String) (f : Field) :
    (o.write name f).touched = o.touched
      ∨ (o.schema.relation? name).isSome = true ∧ name ∉ o.touched
        ∧ (o.write name f).touched = o.touched ++ [name] := by
  unfold Object.write
  dsimp only
  split
  · rename_i hnew
    rw [Bool.and_eq_true, Bool.not_eq_true', List.contains_eq_mem, decide_eq_false_iff_not] at hnew
    exact .inr ⟨hnew.1, hnew.2, rfl⟩
  · exact .inl rfl

theorem get?_fields_write (o : Object) (name other : String) (f : Field) :
    (o.write name f).fields.get? other
      = if other = name then if f.isUnset then none else some f else o.fields.get? other := by
  obtain ⟨touched, heq⟩ := Object.write_eq o name f
  rw [heq, Object.load]
  dsimp only
  cases f.isUnset
  · exact OrderedMap.get?_insert ..
  · exact OrderedMap.get?_erase ..

/-- A write of what was accepted changes nothing but the field, and the object comes to be listed. -/
theorem assigned_writeField (hlists : w.ListsByName) (ho : o.index < w.objects.size)
    (hhome : (w.object o).type.home.index < w.registries.size)
    (haccept : w.accept (w.object o) name f = .ok g) :
    w.Assigned o name f (w.writeField o name g) := by
  have hobject : ∀ x, (w.writeField o name g).object x
      = if x = o then (w.object o).write name g else w.object x := by
    intro x
    rw [writeField, noteUpdated, object_changeRegistry, object_changeObject]
    simp [ho]
  have hself : (w.writeField o name g).object o = (w.object o).write name g := by
    rw [hobject, if_pos rfl]
  obtain ⟨touched, hwrite⟩ := Object.write_eq (w.object o) name g
  have hheader : ((w.object o).write name g).type = (w.object o).type
      ∧ ((w.object o).write name g).id = (w.object o).id
      ∧ ((w.object o).write name g).oldId = (w.object o).oldId := by
    rw [hwrite]
    exact ⟨rfl, rfl, rfl⟩
  have hname : ∀ x, (w.writeField o name g).nameOf x = w.nameOf x := by
    intro x
    unfold nameOf Object.fullName Object.record Object.className
    rw [hobject]
    split
    · rename_i hx
      rw [hx, hheader.1, hheader.2.1]
    · rfl
  have hregistry : ∀ r, (w.writeField o name g).registry r
      = if r = (w.object o).type.home then (w.registry r).noteUpdated (w.nameOf o) o
        else w.registry r := by
    intro r
    have hchanged : (w.changeObject o fun object => object.write name g).object o
        = (w.object o).write name g := by rw [object_changeObject, if_pos ⟨rfl, ho⟩]
    have hnamed : (w.changeObject o fun object => object.write name g).nameOf o = w.nameOf o := by
      unfold nameOf Object.fullName Object.record Object.className
      rw [hchanged, hheader.1, hheader.2.1]
    rw [writeField, noteUpdated, registry_changeRegistry, hchanged, hheader.1, hnamed]
    by_cases hr : r = (w.object o).type.home
    · subst hr
      rw [if_pos ⟨rfl, hhome⟩, if_pos rfl]
      rfl
    · rw [if_neg fun h => hr h.1, if_neg hr]
      rfl
  refine ⟨by rwa [hself], ?_, fun other hother => ?_, by rw [hself]; exact touched_write _ _ _, ?_,
    fun r => ?_, fun x hx => by rw [hobject, if_neg hx], rfl, rfl, rfl⟩
  · rw [hself, get?_fields_write, if_pos rfl]
    exact puts_of_accept haccept
  · rw [hself, get?_fields_write, if_neg hother]
  · -- the entry under the name of the object is its own, or one that was there before
    rw [hregistry, if_pos rfl]
    cases hlisted : (w.registry (w.object o).type.home).updated.get? (w.nameOf o) with
    | none => exact ⟨o, OrderedMap.mem_values_of_get? (OrderedMap.get?_insertNew_of_none hlisted), rfl⟩
    | some x =>
      refine ⟨x, OrderedMap.mem_values_of_get? (OrderedMap.get?_insertNew_of_some hlisted), ?_⟩
      rw [hname, hname, hlists.nameOf_eq hhome hlisted]
  · rw [hregistry]
    split
    · rename_i hr
      exact .inr ⟨hr, rfl⟩
    · exact .inl rfl

end World

namespace System

variable {y : System} {o : ObjectId}

/-- Whatever happened before, a write to an object that fails, checked or not, leaves everything as it
is.  A checked write to anything but the id that succeeds changes that field of the object and no other,
to what coercion makes of the value or to the targets given, touches it at most if it is a relation, and
leaves an object of the same full name among those listed as updated. -/
theorem Arises.write_all_or_nothing (h : y.Arises) (ho : o.index < y.world.objects.size)
    (hhome : (y.world.object o).type.home.index < y.world.registries.size) (name : String) (f : Field) :
    (∀ e w, o.set name f y.world = (.error e, w) → w = y.world)
      ∧ (∀ e w, o.setUnchecked name f y.world = (.error e, w) → w = y.world)
      ∧ ∀ w, o.set name f y.world = (.ok (), w) → name ≠ "id" → y.world.Assigned o name f w := by
  refine ⟨fun e w hrun => ?_, fun e w hrun => ?_, fun w hrun hid => ?_⟩
  · by_cases hname : ∃ id, name = "id" ∧ f = .value (.text id)
    · obtain ⟨id, rfl, rfl⟩ := hname
      cases (Prod.mk.inj hrun).1
    · rcases ObjectStep.run_set_cases (w := y.world) (o := o) hname with ⟨e', heq⟩ | ⟨g, heq⟩
      · exact (Prod.mk.inj (hrun.symm.trans heq)).2
      · cases (Prod.mk.inj (hrun.symm.trans heq)).1
  · by_cases hname : ∃ id, name = "id" ∧ f = .value (.text id)
    · obtain ⟨id, rfl, rfl⟩ := hname
      cases (Prod.mk.inj hrun).1
    · rw [ObjectStep.setUnchecked_apply hname] at hrun
      split at hrun
      · cases (Prod.mk.inj hrun).1
      · exact (Prod.mk.inj hrun).2.symm
  · unfold ObjectId.set at hrun
    rw [if_neg hid, bind_apply, Action.ask_apply] at hrun
    cases haccept : y.world.accept (y.world.object o) name f with
    | error e =>
      rw [haccept] at hrun
      cases (Prod.mk.inj hrun).1
    | ok g =>
      rw [haccept] at hrun
      rw [← (Prod.mk.inj hrun).2]
      exact World.assigned_writeField h.listsByName ho hhome haccept

/-- An object with one attribute was made. -/
def noted : System :=
  (({} : System).run .newRegistry).run (.object ⟨0⟩ (.single (.make noteType "x")))

theorem arises_noted : noted.Arises :=
  (Arises.start.step .newRegistry trivial).step (.object ⟨0⟩ (.single (.make noteType "x"))) trivial

/-- The attribute is written. -/
theorem write_all_or_nothing_noted :
    noted.Arises ∧ 0 < noted.world.objects.size
      ∧ (noted.world.object ⟨0⟩).type.home.index < noted.world.registries.size
      ∧ ∃ w, (⟨0⟩ : ObjectId).set "note" (.value (.text "1")) noted.world = (.ok (), w)
        ∧ noted.world.Assigned ⟨0⟩ "note" (.value (.text "1")) w := by
  have hmade : 0 < noted.world.objects.size := by decide +kernel
  have hhome : (noted.world.object ⟨0⟩).type.home.index < noted.world.registries.size := by
    decide +kernel
  obtain ⟨done, hrun⟩ := run_of_isOk (m := (⟨0⟩ : ObjectId).set "note" (.value (.text "1")))
    (s := noted.world) (by decide +kernel)
  obtain ⟨-, -, hassigned⟩ := arises_noted.write_all_or_nothing (o := ⟨0⟩) hmade hhome "note"
    (.value (.text "1"))
  exact ⟨arises_noted, hmade, hhome, _, hrun, hassigned _ hrun (by decide)⟩

end System

end RecordGraph
