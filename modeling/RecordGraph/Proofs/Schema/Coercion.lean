import RecordGraph.Proofs.Computation
import RecordGraph.Proofs.Schema.Loading
import RecordGraph.Proofs.Store.Writing

/-!
What coercion gives.  A coerced value has the form of its attribute's type, and coercing it once more
gives it back, for all types but 32-bit floats, which are widened and rounded again.
-/

namespace RecordGraph

open RecordGraph.Computation

/-- The form of the single values that coercion to a type gives. -/
def AttributeType.Form : AttributeType → Value → Prop
  | .bool, .bool _ => True
  | .integer t, .integer u _ _ => u = t
  | .float, .float _ => True
  | .double, .double _ => True
  | .text _, .text _ => True
  | _, _ => False

theorem IntegerType.narrow?_of_holds {t : IntegerType} {n : Int} (holds : t.Holds n) :
    t.narrow? n = some (.integer t n holds) :=
  dif_pos holds

namespace Attribute

variable {a : Attribute} {owner : String} {known : String → Bool} {v w : Value}

/-- The form of the values that coercion for an attribute gives. -/
def Settled (a : Attribute) : Value → Prop
  | .list items => a.multivalue = true ∧ ∀ v ∈ items, a.type.Form v
  | .null => a.multivalue = false
  | v => a.multivalue = false ∧ a.type.Form v

theorem narrow?_form {t : IntegerType} {n : Int} (h : t.narrow? n = some w) :
    (AttributeType.integer t).Form w := by
  unfold IntegerType.narrow? at h
  split at h <;> cases h
  rfl

theorem convert_form (h : a.convert known v = .ok w) : a.type.Form w := by
  unfold convert at h
  cases htype : a.type with
  | bool =>
    simp only [htype] at h
    split at h <;> cases h
    trivial
  | integer t =>
    simp only [htype] at h
    split at h
    · cases h
    · split at h
      · cases h
      · split at h
        · cases h
        · split at h <;> cases h
          exact narrow?_form ‹_›
  | float =>
    simp only [htype] at h
    split at h
    · cases h
    · split at h
      · cases h
      · split at h <;> cases h
        trivial
  | double =>
    simp only [htype] at h
    split at h
    · cases h
    · split at h <;> cases h
      trivial
  | text kind =>
    simp only [htype] at h
    split at h
    · repeat' split at h
      all_goals cases h
      trivial
    · cases h

/-- Converting a value of the right form gives the value. -/
theorem convert_of_form (hform : a.type.Form v) (hfloat : a.type ≠ .float)
    (h : a.convert known v = .ok w) : w = v := by
  unfold convert at h
  cases htype : a.type with
  | bool =>
    rw [htype] at hform
    cases v with
    | bool b =>
      simp only [htype, toBool?] at h
      cases h
      rfl
    | _ => exact hform.elim
  | integer t =>
    rw [htype] at hform
    cases v with
    | integer u n holds =>
      obtain rfl : u = t := hform
      simp only [htype, toInteger?, Value.asInteger?] at h
      rw [IntegerType.narrow?_of_holds holds] at h
      split at h
      · cases h
      · split at h <;> cases h
        rfl
    | _ => exact hform.elim
  | float => exact absurd htype hfloat
  | double =>
    rw [htype] at hform
    cases v with
    | double x =>
      simp only [htype, toFloat?, Value.asDouble?] at h
      split at h <;> cases h
      rfl
    | _ => exact hform.elim
  | text kind =>
    rw [htype] at hform
    cases v with
    | text s =>
      simp only [htype] at h
      repeat' split at h
      all_goals cases h
      rfl
    | _ => exact hform.elim

theorem coerceOne_eq_ok : a.coerceOne owner known v = .ok w ↔ a.convert known v = .ok w := by
  unfold coerceOne
  cases a.convert known v <;> simp

theorem form_not_list {items : List Value} (t : AttributeType) : ¬ t.Form (.list items) := by
  cases t <;> exact id

theorem form_not_null (t : AttributeType) : ¬ t.Form .null := by
  cases t <;> exact id

theorem mapM_coerceOne {items results : List Value}
    (h : items.mapM (a.coerceOne owner known) = .ok results) :
    (∀ w ∈ results, a.type.Form w)
      ∧ (a.type ≠ .float → (∀ v ∈ items, a.type.Form v) → results = items) := by
  induction items generalizing results with
  | nil =>
    cases h
    exact ⟨by simp, fun _ _ => rfl⟩
  | cons v items ih =>
    rw [List.mapM_cons] at h
    obtain ⟨w, hfirst, h⟩ := except_bind_eq_ok.mp h
    obtain ⟨rest, hrest, h⟩ := except_bind_eq_ok.mp h
    cases h
    obtain ⟨hforms, hsame⟩ := ih hrest
    have hconvert := coerceOne_eq_ok.mp hfirst
    constructor
    · intro x hx
      rcases List.mem_cons.mp hx with rfl | hx
      · exact convert_form hconvert
      · exact hforms x hx
    · intro hfloat hall
      rw [convert_of_form (hall v List.mem_cons_self) hfloat hconvert,
        hsame hfloat fun x hx => hall x (List.mem_cons_of_mem v hx)]

/-- A value that was coerced has the form of the attribute. -/
theorem coerce_settled (h : a.coerce owner known v = .ok w) : a.Settled w := by
  unfold coerce at h
  split at h
  · rename_i hnull
    have hsingle : a.multivalue = false := by simpa using (Bool.and_eq_true_iff.mp hnull).2
    cases h
    exact hsingle
  · split at h
    · cases h
    · rename_i hnull hcardinality
      cases v with
      | list items =>
        obtain ⟨results, hresults, hpure⟩ := except_bind_eq_ok.mp h
        cases hpure
        refine ⟨?_, (mapM_coerceOne hresults).1⟩
        simpa [Value.isList] using hcardinality
      | _ =>
        have hform := convert_form (coerceOne_eq_ok.mp h)
        have hsingle : a.multivalue = false := by simpa [Value.isList] using hcardinality
        cases w with
        | list items => exact absurd hform (form_not_list _)
        | null => exact hsingle
        | _ => exact ⟨hsingle, hform⟩

/-- Nothing but null is coerced to null. -/
theorem coerce_not_null (hv : v.isNull = false) (h : a.coerce owner known v = .ok w) :
    w.isNull = false := by
  unfold coerce at h
  rw [hv, Bool.false_and, if_neg (by simp)] at h
  split at h
  · cases h
  · cases v with
    | list items =>
      obtain ⟨results, -, hpure⟩ := except_bind_eq_ok.mp h
      cases hpure
      rfl
    | _ =>
      have hform := convert_form (coerceOne_eq_ok.mp h)
      cases w with
      | null => exact absurd hform (form_not_null _)
      | _ => rfl

/-- Coercing a value that has the form of the attribute gives the value. -/
theorem coerce_of_settled (hsettled : a.Settled v) (hfloat : a.type ≠ .float)
    (h : a.coerce owner known v = .ok w) : w = v := by
  unfold coerce at h
  cases v with
  | null =>
    rw [show a.multivalue = false from hsettled] at h
    cases h
    rfl
  | list items =>
    obtain ⟨hmulti, hforms⟩ := hsettled
    simp only [hmulti, Value.isNull, Value.isList, Bool.not_true, Bool.and_false,
      Bool.false_eq_true, if_false, bne_self_eq_false] at h
    obtain ⟨results, hresults, hpure⟩ := except_bind_eq_ok.mp h
    cases hpure
    rw [(mapM_coerceOne hresults).2 hfloat hforms]
  | _ =>
    obtain ⟨hsingle, hform⟩ := hsettled
    simp only [hsingle, Value.isNull, Value.isList, Bool.false_and,
      Bool.false_eq_true, if_false, bne_self_eq_false] at h
    exact convert_of_form hform hfloat (coerceOne_eq_ok.mp h)

/-- Null comes out of coercion only where an attribute holds one value. -/
theorem Settled.orEmpty_eq (h : a.Settled v) : v.orEmpty a.multivalue = v := by
  cases v with
  | null => rw [show a.multivalue = false from h]; rfl
  | _ => rfl

/-! ### Initial values -/

/-- The initial value of an attribute has the form of the attribute, and is not null. -/
def InitialSettled (a : Attribute) : Prop :=
  ∀ v, a.initial? = some v → a.Settled v ∧ v.isNull = false

/-- The attribute that a declaration gives for a class. -/
def BoundFrom (d : AttributeDeclaration) (className : String) (a : Attribute) : Prop :=
  ∃ b ws, ofDeclaration d = .ok b ∧ b.bind className = .ok (a, ws)

/-- Binding compiles the declared range, and coerces what is declared for the initial value as if every
class were known. -/
theorem BoundFrom.parts {d : AttributeDeclaration} {className : String} (h : BoundFrom d className a) :
    Range.compile a.type d.range = .ok a.range
      ∧ ∀ v, a.initial? = some v → ∃ raw : Value, raw.isNull = false
        ∧ a.coerce className (fun _ => true) raw = .ok v := by
  obtain ⟨b, ws, hdeclared, hbind⟩ := h
  unfold ofDeclaration at hdeclared
  split at hdeclared
  · cases hdeclared
    obtain ⟨range, hrange, hbind⟩ := except_bind_eq_ok.mp hbind
    split at hbind
    · rename_i source raw hsource hraw
      dsimp only at hbind
      split at hbind
      · rename_i w hcoerce
        cases hbind
        refine ⟨hrange, fun v hv => ⟨raw, ?_, Option.some.inj hv ▸ hcoerce⟩⟩
        rw [hsource, Option.bind_some] at hraw
        unfold rawInitial? at hraw
        repeat' split at hraw
        all_goals cases hraw <;> rfl
      · cases hbind
        exact ⟨hrange, fun v hv => by cases hv⟩
    · cases hbind
      exact ⟨hrange, fun v hv => by cases hv⟩
  · cases hdeclared

theorem BoundFrom.initialSettled {d : AttributeDeclaration} {className : String}
    (h : BoundFrom d className a) : a.InitialSettled := by
  intro v hv
  obtain ⟨raw, hraw, hcoerce⟩ := h.parts.2 v hv
  exact ⟨coerce_settled hcoerce, coerce_not_null hraw hcoerce⟩

end Attribute

namespace ClassSchema

variable {h : Hierarchy} {c name : String} {s : ClassSchema} {a : Attribute}

/-- The attributes of a loaded schema were bound from declarations. -/
theorem LoadedFrom.boundFrom (hs : LoadedFrom h c s) (ha : s.attribute? name = some a) :
    ∃ d, Attribute.BoundFrom d c a := by
  obtain ⟨d, ws, ws', hbound, -⟩ := hs.bound ha
  obtain ⟨⟨bound, reported⟩, ws₁, hbind, hrest⟩ := bind_eq_ok.mp hbound
  rw [ofExcept_apply] at hbind
  obtain ⟨hbind, -⟩ := Prod.mk.inj hbind
  obtain ⟨_, _, _, hpure⟩ := bind_eq_ok.mp hrest
  obtain ⟨heq, -⟩ := Prod.mk.inj hpure
  cases heq
  obtain ⟨declared, hdeclared, hbind⟩ := except_bind_eq_ok.mp hbind
  exact ⟨d, declared, reported, hdeclared, hbind⟩

/-- The initial values of a loaded schema have the forms of their attributes. -/
theorem LoadedFrom.initialSettled (hs : LoadedFrom h c s) (ha : s.attribute? name = some a) :
    a.InitialSettled := by
  obtain ⟨d, hbound⟩ := hs.boundFrom ha
  exact hbound.initialSettled

end ClassSchema

end RecordGraph
