import RecordGraph.Proofs.Proxy.Reading
import RecordGraph.Proofs.Store.Writing

/-!
Writing through proxies.  What a write needs is checked first; a write that fails changes nothing, and
one that succeeds changes one field of the record behind the proxy.
-/

namespace RecordGraph

open RecordGraph.Computation

namespace World

variable {v w : World} {p : ProxyId} {name : String}

/-- The coerced value and the database that an attribute can be written with, if it can. -/
def attributeWrite (w : World) (p : ProxyId) (name : String) (v : Value) :
    Except Error (Value × String) := do
  let a ← match (w.proxy p).schema.attribute? name with
    | some a => .ok a
    | none => .error (.unknownField (w.proxy p).schema.name name)
  let v ← a.coerce (w.recordName p) (w.isKnown (w.proxy p).registry) v
  let place ← w.store.writePlace (w.recordOf p) name a.setter v
  pure (v, place)

/-- The database that a relation can be written in, if it can. -/
def relationWrite (w : World) (p : ProxyId) (name : String) (related : Related) :
    Except Error String := do
  let r ← match (w.proxy p).schema.relation? name with
    | some r => .ok r
    | none => .error (.unknownField (w.proxy p).schema.name name)
  ProxyId.checkRelated w p r related
  w.store.writePlace (w.recordOf p) name r.accessor (related.toValue w.recordOf)

/-- The world after a value was written to a field of the record behind a proxy. -/
def put (w : World) (p : ProxyId) (name : String) (place : String) (v : Value) : World :=
  { w with store := w.store.put place (w.recordOf p) name v }

theorem attributeWrite_eq_ok {v v' : Value} {place : String} :
    w.attributeWrite p name v = .ok (v', place) ↔
      ∃ a, (w.proxy p).schema.attribute? name = some a
        ∧ a.coerce (w.recordName p) (w.isKnown (w.proxy p).registry) v = .ok v'
        ∧ w.store.writePlace (w.recordOf p) name a.setter v' = .ok place := by
  unfold attributeWrite
  cases (w.proxy p).schema.attribute? name with
  | none => simp [bind, Except.bind]
  | some a =>
    simp only [except_bind_eq_ok, pure, Except.pure, Except.ok.injEq, Prod.mk.injEq,
      Option.some.injEq]
    constructor
    · rintro ⟨a, rfl, v, hcoerce, place, hplace, rfl, rfl⟩
      exact ⟨a, rfl, hcoerce, hplace⟩
    · rintro ⟨a, rfl, hcoerce, hplace⟩
      exact ⟨a, rfl, v', hcoerce, place, hplace, rfl, rfl⟩

theorem relationWrite_eq_ok {related : Related} {place : String} :
    w.relationWrite p name related = .ok place ↔
      ∃ r, (w.proxy p).schema.relation? name = some r ∧ ProxyId.checkRelated w p r related = .ok ()
        ∧ w.store.writePlace (w.recordOf p) name r.accessor (related.toValue w.recordOf)
          = .ok place := by
  unfold relationWrite
  cases (w.proxy p).schema.relation? name with
  | none => simp [bind, Except.bind]
  | some r =>
    simp only [except_bind_eq_ok, Except.ok.injEq, Option.some.injEq]
    constructor
    · rintro ⟨r, rfl, _, hcheck, hplace⟩
      exact ⟨r, rfl, hcheck, hplace⟩
    · rintro ⟨r, rfl, hcheck, hplace⟩
      exact ⟨r, rfl, (), hcheck, hplace⟩

end World

namespace Action

theorem onStore_apply {α : Type} (m : StoreM α) (w : World) :
    Action.onStore m w = ((m w.store).1, { w with store := (m w.store).2 }) := rfl

end Action

namespace ProxyId

theorem setAttribute_apply (p : ProxyId) (name : String) (v : Value) (w : World) :
    p.setAttribute name v w = match w.attributeWrite p name v with
      | .ok (v, place) => (.ok v, w.put p name place v)
      | .error e => (.error e, w) := by
  rw [setAttribute, bind_apply, attributeSchema, Action.ask_apply]
  unfold World.attributeWrite
  cases (w.proxy p).schema.attribute? name with
  | none => rfl
  | some a =>
    dsimp only
    rw [bind_apply, Action.ask_apply]
    cases hcoerce : a.coerce (w.recordName p) (w.isKnown (w.proxy p).registry) v with
    | error e => simp [bind, Except.bind, hcoerce]
    | ok v' =>
      dsimp only
      rw [bind_of_ok (get_apply w), bind_apply, Action.onStore_apply, Store.write_apply]
      cases hplace : w.store.writePlace (w.recordOf p) name a.setter v' with
      | error e => simp [bind, Except.bind, hcoerce, hplace]
      | ok place =>
        simp only [bind, Except.bind, hcoerce, hplace]
        rfl

theorem setRelation_apply (p : ProxyId) (name : String) (related : Related) (w : World) :
    p.setRelation name related w = match w.relationWrite p name related with
      | .ok place => (.ok (), (w.put p name place (related.toValue w.recordOf)).changeProxy p
          fun proxy => (proxy.restore name).cache name related)
      | .error e => (.error e, w) := by
  rw [setRelation, bind_apply, relationSchema, Action.ask_apply]
  unfold World.relationWrite
  cases (w.proxy p).schema.relation? name with
  | none => rfl
  | some r =>
    dsimp only
    rw [bind_apply, Action.ask_apply]
    cases hcheck : checkRelated w p r related with
    | error e => simp [bind, Except.bind, hcheck]
    | ok u =>
      dsimp only
      rw [bind_of_ok (get_apply w), bind_apply, Action.onStore_apply, Store.write_apply]
      cases hplace : w.store.writePlace (w.recordOf p) name r.accessor
        (related.toValue w.recordOf) with
      | error e => simp [bind, Except.bind, hcheck, hplace]
      | ok place => simp [bind, Except.bind, hcheck, hplace, World.put]

end ProxyId

/-! ### What proxies keep -/

namespace World

/-- A property of worlds that making and changing proxies, reporting and working on the store keep. -/
structure KeptByProxies (P : World → Prop) : Prop where
  newProxy : ∀ r record, Preserves P (Action.newProxy r record)
  changeProxy : ∀ w p (f : Proxy → Proxy), (∀ proxy, (f proxy).record = proxy.record
    ∧ (f proxy).schema = proxy.schema ∧ (f proxy).registry = proxy.registry) →
      P w → P (w.changeProxy p f)
  warn : ∀ w ws, P w → P (w.warn ws)
  onStore : ∀ {α : Type} (m : StoreM α), Preserves P (Action.onStore m)

namespace KeptByProxies

variable {P : World → Prop} (hP : KeptByProxies P) (p : ProxyId)

include hP

theorem getRelation (name : String) : Preserves P (p.getRelation name) := by
  refine (Action.reads_ask _).preserves.bind fun r => reads_get.preserves.bind fun w => ?_
  split
  · exact preserves_pure _
  · have hdegrade (e : Error) : Preserves P (p.degrade r e) :=
      reads_get.preserves.bind fun _ => (preserves_modify fun w hw =>
        hP.warn _ _ (hP.changeProxy w p (·.degrade r.name) (fun _ => ⟨rfl, rfl, rfl⟩) hw)).bind
          fun _ => preserves_pure _
    refine ((p.preserves_fetch hP.newProxy r).tryCatch hdegrade).bind fun related =>
      (preserves_modify fun w hw => ?_).bind fun _ => preserves_pure _
    exact hP.changeProxy w p (·.cache name related) (fun _ => ⟨rfl, rfl, rfl⟩) hw

theorem get (name : String) : Preserves P (p.get name) := by
  refine reads_get.preserves.bind fun w => ?_
  split
  · exact (p.reads_getAttribute name).preserves.bind fun _ => preserves_pure _
  · exact (hP.getRelation p name).bind fun _ => preserves_pure _

theorem setAttribute (name : String) (v : Value) : Preserves P (p.setAttribute name v) :=
  (Action.reads_ask _).preserves.bind fun _ => (Action.reads_ask _).preserves.bind fun _ =>
    reads_get.preserves.bind fun _ => (hP.onStore _).bind fun _ => preserves_pure _

theorem setRelation (name : String) (related : Related) : Preserves P (p.setRelation name related) := by
  refine (Action.reads_ask _).preserves.bind fun _ => (Action.reads_ask _).preserves.bind fun _ =>
    reads_get.preserves.bind fun _ => (hP.onStore _).bind fun _ => preserves_modify fun w hw => ?_
  exact hP.changeProxy w p (fun proxy => (proxy.restore name).cache name related)
    (fun _ => ⟨rfl, rfl, rfl⟩) hw

theorem set (name : String) (f : ProxyField) : Preserves P (p.set name f) := by
  rcases f with v | related
  · exact (hP.setAttribute p name v).bind fun _ => preserves_pure _
  · exact hP.setRelation p name related

end KeptByProxies

end World

end RecordGraph
