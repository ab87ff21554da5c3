import RecordGraph.Proofs.Session.Errands
import RecordGraph.Proofs.Store.Retention

/-!
Where writing objects stays.  Objects are written through proxies to the records that were prepared for
them; whatever is not among these records keeps all of its fields, and no record comes or goes.
-/

namespace RecordGraph

open RecordGraph.Computation Workspace

namespace Store

variable {s t : Store} {r x : RecordRef} {place other name : String} {v : Value}

theorem fieldsOf_put (hplace : s.location r = some place) (hne : ¬ (other = place ∧ x = r)) :
    (s.put place r name v).fieldsOf other x = s.fieldsOf other x := by
  obtain ⟨d, hd, -⟩ := get?_of_location hplace
  unfold fieldsOf put
  rw [OrderedMap.get?_modify]
  by_cases hother : other = place
  · subst hother
    have hx : x ≠ r := fun hx => hne ⟨rfl, hx⟩
    simp [hd, OrderedMap.get?_insert, hx]
  · rw [if_neg hother]

theorem isSome_fieldsOf_iff : (s.fieldsOf place r).isSome = true ↔ s.holdsIn place r = true := by
  rw [holdsIn_iff]
  cases hd : s.databases.get? place with
  | none => simp [fieldsOf, hd]
  | some d => simp [isSome_fieldsOf hd]

theorem SameShape.holdsIn (h : s.SameShape t) : t.holdsIn place r = s.holdsIn place r := by
  have hbare : ∀ u : Store, u.bare.holdsIn place r = u.holdsIn place r := by
    intro u
    unfold Store.holdsIn
    rw [get?_bare]
    cases u.databases.get? place with
    | none => rfl
    | some d => exact d.holds_bare r
  rw [← hbare t, h, hbare s]

/-- A record has fields where it is. -/
theorem exists_fieldsOf_of_location (h : s.location r = some place) :
    ∃ fields, s.fieldsOf place r = some fields :=
  Option.isSome_iff_exists.mp (isSome_fieldsOf_iff.mpr (holdsIn_of_location h).2)

end Store

namespace Session

/-- What writing makes of a workspace if it stays within certain records of databases. -/
structure Confined (s : Workspace) (W : String → RecordRef → Prop) (t : Workspace) : Prop where
  still : s.world.Still t.world
  records : KeepsRecords s.world t.world
  fields : ∀ place r, ¬ W place r → t.world.store.fieldsOf place r = s.world.store.fieldsOf place r

variable {α : Type} {s t u : Workspace} {W : String → RecordRef → Prop} {x : ObjectId} {p : ProxyId}

namespace Confined

theorem refl (s : Workspace) (W : String → RecordRef → Prop) : Confined s W s :=
  ⟨.refl _, .refl _, fun _ _ _ => rfl⟩

/-- A step that changes nothing that is stored. -/
theorem quiet (h : Confined s W t) (hmaintains : t.world.Maintains u.world)
    (hstore : u.world.store = t.world.store) (hrecords : KeepsRecords t.world u.world) :
    Confined s W u where
  still := h.still.trans ⟨hmaintains, hstore ▸ .refl _⟩
  records := h.records.trans hrecords
  fields place r hr := by
    rw [hstore]
    exact h.fields place r hr

/-- A write to a record that the writing may reach. -/
theorem put {r : RecordRef} {place name : String} {v : Value} (h : Confined s W t)
    (hW : ∀ place, s.world.store.location r = some place → W place r)
    (hplace : t.world.store.location r = some place)
    (hmaintains : t.world.Maintains u.world)
    (hstore : u.world.store = t.world.store.put place r name v)
    (hrecords : KeepsRecords t.world u.world) : Confined s W u where
  still := h.still.trans ⟨hmaintains, hstore ▸ Store.sameShape_put hplace⟩
  records := h.records.trans hrecords
  fields other y hy := by
    rw [hstore, Store.fieldsOf_put hplace]
    · exact h.fields other y hy
    · rintro ⟨rfl, rfl⟩
      rw [h.still.shape.location] at hplace
      exact hy (hW other hplace)

end Confined

theorem keepsRecords_keep (w : World) (p : ProxyId) (name : String) (related : Related) :
    KeepsRecords w (w.changeProxy p fun proxy => (proxy.restore name).cache name related) := by
  have hextends := World.extends_changeProxy w p
    (f := fun proxy => (proxy.restore name).cache name related) (fun _ => rfl) (fun _ => rfl)
    fun _ => rfl
  exact ⟨hextends.size_le, hextends.record⟩

theorem Quiet.confined {m : SessionM α} (hm : Quiet m) : Preserves (Confined s W) m :=
  fun t h => h.quiet (hm t).1 (hm t).2.1 (hm t).2.2

/-- Writing through a proxy stays within the record behind it. -/
theorem keptByWriting_confined (hp : p.index < s.world.proxies.size)
    (hW : ∀ place, s.world.store.location (s.world.recordOf p) = some place →
      W place (s.world.recordOf p)) : KeptByWriting (Confined s W) p where
  get o name := (quiet_get o name).confined
  skip policy o field e := (quiet_skipOrFail policy o field e).confined
  record className id := (quiet_record className id).confined
  setAttribute name value := by
    intro t h
    rw [act_apply, ProxyId.setAttribute_apply]
    cases hwrite : t.world.attributeWrite p name value with
    | error e => exact h
    | ok written =>
      obtain ⟨a, -, -, hplace⟩ := World.attributeWrite_eq_ok.mp hwrite
      rw [← h.records.record p hp] at hW
      exact h.put hW (Store.writePlace_eq_ok.mp hplace).1 (.of_eq rfl rfl) rfl (keepsRecords_of_eq rfl)
  setRelation name related := by
    intro t h
    rw [act_apply, ProxyId.setRelation_apply]
    cases hwrite : t.world.relationWrite p name related with
    | error e => exact h
    | ok place =>
      obtain ⟨r, -, -, hplace⟩ := World.relationWrite_eq_ok.mp hwrite
      rw [← h.records.record p hp] at hW
      have hput : KeepsRecords t.world
          (t.world.put p name place (related.toValue t.world.recordOf)) := keepsRecords_of_eq rfl
      exact h.put hW (Store.writePlace_eq_ok.mp hplace).1 (.of_eq rfl rfl) rfl
        (hput.trans (keepsRecords_keep _ p name related))

/-- An object of a name is written, if at all, to a record that the writing may reach. -/
def WritesWithin (s : Workspace) (mode : Persistence) (targets : Targets)
    (W : String → RecordRef → Prop) (name : String) : Prop :=
  ∀ target, targets.get? name = some target → (!mode.createOnly || target.created) = true →
    target.proxy.index < s.world.proxies.size
      ∧ ∀ place, s.world.store.location (s.world.recordOf target.proxy) = some place →
        W place (s.world.recordOf target.proxy)

/-- Writing objects stays within the records that they were prepared with. -/
theorem confined_writeObject {mode : Persistence} {targets : Targets}
    (hwithin : WritesWithin s mode targets W (s.world.nameOf x)) :
    Preserves (Confined s W) (writeObject mode targets x) := by
  have hcache : Preserves (Confined s W) (modify fun s => s.cache x) :=
    Quiet.confined fun t => ⟨.refl _, rfl, .refl _⟩
  have hclear : Preserves (Confined s W) (act x.clearTouched) :=
    Quiet.confined fun t => ⟨x.preserves_clearTouched _ (.refl _), rfl, keepsRecords_of_eq rfl⟩
  intro t h
  have hname : t.world.nameOf x = s.world.nameOf x := by
    rw [World.nameOf, Object.fullName, Object.record, Object.className, h.still.type, h.still.id]
    rfl
  rw [writeObject, bind_of_ok (get_apply t), hname]
  cases hget : targets.get? (s.world.nameOf x) with
  | none => exact h
  | some target =>
    dsimp only
    split
    · rename_i hwritten
      obtain ⟨hp, hW⟩ := hwithin target hget hwritten
      exact (((keptByWriting_confined hp hW).writeFields _ _ _).bind fun _ =>
        hclear.bind fun _ => hcache) t h
    · exact hcache t h

end Session

end RecordGraph
