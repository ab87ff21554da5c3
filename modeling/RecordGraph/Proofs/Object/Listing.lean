import RecordGraph.Proofs.Object.Tracking

/-!
The objects that a registry lists as updated.  An entry stands under the name of its object and goes
where the object goes, but equal objects share the entry of the one that was written first.  So every
written object is equal to one that is listed as long as none of several equal ones gets another id.
-/

namespace RecordGraph

open RecordGraph.Computation

namespace World

open ObjectStep (Effect)

variable {r : RegistryId} {w w' : World} {written : List ObjectId} {o x y : ObjectId}
  {effect : ObjectStep.Effect} {id : String}

theorem equalObjects_iff :
    w.equalObjects x y = true ↔ (w.object x).record = (w.object y).record := by
  rw [equalObjects, Bool.or_eq_true, beq_iff_eq, beq_iff_eq]
  exact or_iff_right_of_imp fun heq => heq ▸ rfl

theorem nameOf_eq (h : (w.object x).record = (w.object y).record) : w.nameOf x = w.nameOf y :=
  congrArg RecordRef.fullName h

/-- Every written object is equal to one that the registry lists as updated. -/
def Lists (r : RegistryId) (w : World) (written : List ObjectId) : Prop :=
  ∀ x ∈ written, ∃ y ∈ (w.registry r).updated.values, w.equalObjects y x = true

instance (r : RegistryId) (w : World) (written : List ObjectId) : Decidable (w.Lists r written) :=
  inferInstanceAs (Decidable (∀ x ∈ written, ∃ y ∈ (w.registry r).updated.values, _))

/-- A registry lists written objects of its own, under their names. -/
structure Sound (r : RegistryId) (w : World) (written : List ObjectId) : Prop where
  registry : r.index < w.registries.size
  made : ∀ x ∈ written, x.index < w.objects.size
  home : ∀ x ∈ written, (w.object x).type.home = r
  current : ∀ name x, (w.registry r).updated.get? name = some x → name = w.nameOf x
  held : ∀ name x, (w.registry r).updated.get? name = some x → x ∈ written

theorem sound_nil (hr : r.index < w.registries.size) (hempty : (w.registry r).updated = .empty) :
    w.Sound r [] where
  registry := hr
  made x hx := absurd hx List.not_mem_nil
  home x hx := absurd hx List.not_mem_nil
  current name x hx := by
    rw [hempty] at hx
    cases hx
  held name x hx := by
    rw [hempty] at hx
    cases hx

/-- A written object is listed under its own name, or an equal one is. -/
theorem Sound.lists_iff (h : w.Sound r written) :
    w.Lists r written ↔ ∀ x ∈ written, ∃ y, (w.registry r).updated.get? (w.nameOf x) = some y
      ∧ (w.object y).record = (w.object x).record := by
  refine forall_congr' fun x => forall_congr' fun _ => ?_
  constructor
  · rintro ⟨y, hy, hequal⟩
    obtain ⟨name, hname⟩ := OrderedMap.exists_get?_of_mem_values hy
    rw [equalObjects_iff] at hequal
    exact ⟨y, by rw [← nameOf_eq hequal, ← h.current name y hname, hname], hequal⟩
  · rintro ⟨y, hy, hequal⟩
    exact ⟨y, OrderedMap.mem_values_of_get? hy, equalObjects_iff.mpr hequal⟩

/-- No other written object is equal to an object, and what it will be equal to has its name for
itself. -/
def Parts (w : World) (written : List ObjectId) (o : ObjectId) (id : String) : Prop :=
  ∀ y ∈ written, y ≠ o → (w.object y).record ≠ (w.object o).record
    ∧ (w.nameOf y = fullName (w.object o).className id →
      (w.object y).record = ⟨(w.object o).className, id⟩)

instance (w : World) (written : List ObjectId) (o : ObjectId) (id : String) :
    Decidable (w.Parts written o id) :=
  inferInstanceAs (Decidable (∀ y ∈ written, _ → _ ∧ (_ → _)))

/-- Another written object is what an object will be equal to. -/
def Joins (w : World) (written : List ObjectId) (o : ObjectId) (id : String) : Prop :=
  ∃ y ∈ written, y ≠ o ∧ (w.object y).record = ⟨(w.object o).className, id⟩

instance (w : World) (written : List ObjectId) (o : ObjectId) (id : String) :
    Decidable (w.Joins written o id) :=
  inferInstanceAs (Decidable (∃ y ∈ written, _ ∧ _))

/-- Steps of some effect leave every written object with an equal one that is listed: a write unless
a written object has the name without being equal; the move of a listed object unless it parts from a
written one or meets one that has the name without being equal; and the move of a written object that
is not listed itself if it joins another one. -/
def Considerate (r : RegistryId) (w : World) (written : List ObjectId) : ObjectStep.Effect → Prop
  | .write o => (w.object o).type.home = r →
    ∀ y ∈ written, w.nameOf y = w.nameOf o → (w.object y).record = (w.object o).record
  | .move o id => o ∈ written → id ≠ (w.object o).id →
    if (w.registry r).updated.get? (w.nameOf o) = some o then w.Parts written o id
    else w.Joins written o id
  | .idle | .reset => True

instance (r : RegistryId) (w : World) (written : List ObjectId) :
    (effect : Effect) → Decidable (w.Considerate r written effect)
  | .write _ => inferInstanceAs (Decidable (_ → ∀ y ∈ written, _ → _))
  | .move o id => inferInstanceAs (Decidable (o ∈ written → id ≠ (w.object o).id →
      if (w.registry r).updated.get? (w.nameOf o) = some o then w.Parts written o id
      else w.Joins written o id))
  | .idle | .reset => isTrue trivial

theorem Takes.nameOf (h : w.Takes r effect w') (hx : x.index < w.objects.size) :
    w'.nameOf x = (effect.record w x).fullName := congrArg RecordRef.fullName (h.record x hx)

namespace Sound

variable (h : w.Sound r written)

include h

theorem listed {name : String} (hx : (w.registry r).updated.get? name = some x) :
    x ∈ written ∧ name = (w.object x).record.fullName := ⟨h.held name x hx, h.current name x hx⟩

/-- What is listed under another name than that of an object is another object. -/
theorem ne_of_name_ne {name : String} (hy : (w.registry r).updated.get? name = some y)
    (hname : name ≠ w.nameOf o) : y ≠ o := by
  rintro rfl
  exact hname (h.current name y hy)

/-- The entry of a listed object goes where the object goes. -/
theorem updated_move (hlisted : (w.registry r).updated.get? (w.nameOf o) = some o) :
    (Effect.move o id).updated r w
      = ((w.registry r).updated.erase (w.nameOf o)).insertNew
          (fullName (w.object o).className id) o :=
  if_pos ⟨h.home o (h.held _ _ hlisted), hlisted⟩

theorem listed_write {name : String} (hx : ((Effect.write o).updated r w).get? name = some x) :
    x ∈ (Effect.write o).written r w written ∧ name = (w.object x).record.fullName := by
  dsimp only [Effect.updated, Effect.written] at hx ⊢
  by_cases hhome : (w.object o).type.home = r
  · rw [if_pos hhome] at hx ⊢
    rcases OrderedMap.of_get?_insertNew hx with hlisted | ⟨rfl, rfl⟩
    · exact ⟨List.mem_cons_of_mem o (h.listed hlisted).1, (h.listed hlisted).2⟩
    · exact ⟨List.mem_cons_self, rfl⟩
  · rw [if_neg hhome] at hx ⊢
    exact h.listed hx

theorem listed_move {name : String} (hx : ((Effect.move o id).updated r w).get? name = some x) :
    x ∈ written ∧ name = ((Effect.move o id).record w x).fullName := by
  -- an entry that does not go with the moved object is that of another object
  have hother : x ≠ o → (w.registry r).updated.get? name = some x →
      x ∈ written ∧ name = ((Effect.move o id).record w x).fullName := by
    intro hxo hlisted
    rw [Effect.record_move_of_ne hxo]
    exact h.listed hlisted
  by_cases hlisted : (w.registry r).updated.get? (w.nameOf o) = some o
  · rw [h.updated_move hlisted] at hx
    rcases OrderedMap.of_get?_insertNew hx with hkept | ⟨rfl, rfl⟩
    · rw [OrderedMap.get?_erase] at hkept
      split at hkept
      · cases hkept
      · rename_i hname
        exact hother (h.ne_of_name_ne hkept hname) hkept
    · rw [Effect.record_move_self]
      exact ⟨h.held _ _ hlisted, rfl⟩
  · have hupdated : (Effect.move o id).updated r w = (w.registry r).updated :=
      if_neg fun hmoved => hlisted hmoved.2
    rw [hupdated] at hx
    refine hother ?_ hx
    rintro rfl
    exact hlisted (h.current name x hx ▸ hx)

/-- What is listed after a step was written, and is listed under its name. -/
theorem listed_next {name : String} (hx : (effect.updated r w).get? name = some x) :
    x ∈ effect.written r w written ∧ name = (effect.record w x).fullName := by
  cases effect with
  | idle => exact h.listed hx
  | reset => cases hx
  | write o => exact h.listed_write hx
  | move o id => exact h.listed_move hx

theorem home_next (hx : x ∈ effect.written r w written) : (w.object x).type.home = r := by
  cases effect with
  | idle => exact h.home x hx
  | reset => cases hx
  | move o id => exact h.home x hx
  | write o =>
    dsimp only [ObjectStep.Effect.written] at hx
    split at hx
    · rename_i hhome
      rcases List.mem_cons.mp hx with rfl | hx
      · exact hhome
      · exact h.home x hx
    · exact h.home x hx

/-- Steps keep the account of what is listed. -/
theorem next (htakes : w.Takes r effect w')
    (hmade : ∀ x ∈ effect.written r w written, x.index < w.objects.size) :
    w'.Sound r (effect.written r w written) := by
  refine ⟨htakes.registries ▸ h.registry, ?_, ?_, ?_, ?_⟩
  · exact fun x hx => Nat.lt_of_lt_of_le (hmade x hx) htakes.objects
  · intro x hx
    rw [htakes.type x (hmade x hx)]
    exact h.home_next hx
  · intro name x hx
    rw [htakes.updated] at hx
    obtain ⟨hwritten, hname⟩ := h.listed_next hx
    rw [htakes.nameOf (hmade x hwritten), hname]
  · intro name x hx
    rw [htakes.updated] at hx
    exact (h.listed_next hx).1

/-- What is listed after a step is known before it. -/
theorem lists_next (htakes : w.Takes r effect w')
    (hmade : ∀ x ∈ effect.written r w written, x.index < w.objects.size) :
    w'.Lists r (effect.written r w written) ↔ effect.Lists r w written := by
  rw [(h.next htakes hmade).lists_iff]
  refine forall_congr' fun x => forall_congr' fun hx => exists_congr fun y => ?_
  rw [htakes.updated, htakes.nameOf (hmade x hx)]
  refine and_congr_right fun hy => ?_
  rw [htakes.record x (hmade x hx), htakes.record y (hmade y (h.listed_next hy).1)]

variable (hlists : ∀ x ∈ written, ∃ y, (w.registry r).updated.get? (w.nameOf x) = some y
  ∧ (w.object y).record = (w.object x).record)

include hlists

/-- A write is listed unless its name is taken by an object that is not equal. -/
theorem lists_write_iff :
    (Effect.write o).Lists r w written ↔ w.Considerate r written (.write o) := by
  dsimp only [Effect.Lists, Effect.written, Effect.updated, Effect.record]
  constructor
  · intro hall hhome y hy hname
    obtain ⟨z, hz, hequal⟩ := hlists y hy
    rw [if_pos hhome, if_pos hhome] at hall
    obtain ⟨z', hz', hequal'⟩ := hall o List.mem_cons_self
    have hstays : ((w.registry r).updated.insertNew (w.nameOf o) o).get? (w.nameOf o) = some z :=
      OrderedMap.get?_insertNew_of_some (hname ▸ hz)
    cases hstays.symm.trans hz'
    exact hequal.symm.trans hequal'
  · intro hconsiderate x hx
    by_cases hhome : (w.object o).type.home = r
    · rw [if_pos hhome] at hx ⊢
      rcases List.mem_cons.mp hx with rfl | hx
      · cases hlisted : (w.registry r).updated.get? (w.nameOf x) with
        | none => exact ⟨x, OrderedMap.get?_insertNew_of_none hlisted, rfl⟩
        | some z =>
          exact ⟨z, OrderedMap.get?_insertNew_of_some hlisted,
            hconsiderate hhome z (h.held _ _ hlisted) (h.current _ _ hlisted).symm⟩
      · obtain ⟨y, hy, hequal⟩ := hlists x hx
        exact ⟨y, OrderedMap.get?_insertNew_of_some hy, hequal⟩
    · rw [if_neg hhome] at hx ⊢
      exact hlists x hx

/-- An object that is not listed moves away from the one that is listed for it. -/
theorem lists_move_iff_of_unlisted (hunlisted : (w.registry r).updated.get? (w.nameOf o) ≠ some o) :
    (Effect.move o id).Lists r w written
      ↔ (o ∈ written → id ≠ (w.object o).id → w.Joins written o id) := by
  have hother : ∀ {name y}, (w.registry r).updated.get? name = some y → y ≠ o := by
    rintro name y hy rfl
    exact hunlisted (h.current name y hy ▸ hy)
  have hupdated : (Effect.move o id).updated r w = (w.registry r).updated :=
    if_neg fun hmoved => hunlisted hmoved.2
  unfold Effect.Lists
  rw [hupdated]
  constructor
  · intro hall ho _
    obtain ⟨y, hy, hequal⟩ := hall o ho
    rw [Effect.record_move_of_ne (hother hy), Effect.record_move_self] at hequal
    exact ⟨y, h.held _ _ hy, hother hy, hequal⟩
  · intro hconsiderate x hx
    by_cases hxo : x = o
    · subst hxo
      rw [Effect.record_move_self]
      have hequal : ∃ y ∈ written, (w.object y).record = ⟨(w.object x).className, id⟩ := by
        by_cases hid : id = (w.object x).id
        · exact ⟨x, hx, by rw [hid]; rfl⟩
        · obtain ⟨y, hy, _, hequal⟩ := hconsiderate hx hid
          exact ⟨y, hy, hequal⟩
      obtain ⟨y, hy, hequal⟩ := hequal
      obtain ⟨z, hz, hzy⟩ := hlists y hy
      refine ⟨z, ?_, ?_⟩
      · rw [← hequal]
        exact hz
      · rw [Effect.record_move_of_ne (hother hz), hzy, hequal]
    · rw [Effect.record_move_of_ne hxo]
      obtain ⟨y, hy, hequal⟩ := hlists x hx
      exact ⟨y, hy, (Effect.record_move_of_ne (hother hy)).trans hequal⟩

/-- A listed object that goes to another id leaves no equal one behind. -/
theorem parts_of_lists_move (hlisted : (w.registry r).updated.get? (w.nameOf o) = some o)
    (hid : id ≠ (w.object o).id) (hall : (Effect.move o id).Lists r w written) :
    w.Parts written o id := by
  intro y hy hyo
  have hnames : fullName (w.object o).className id ≠ w.nameOf o := fun heq => hid (fullName_inj.mp heq)
  unfold Effect.Lists at hall
  rw [h.updated_move hlisted] at hall
  obtain ⟨z, hz, hequal⟩ := hlists y hy
  obtain ⟨z', hz', -⟩ := hall y hy
  rw [Effect.record_move_of_ne hyo] at hz'
  constructor
  · intro heq
    have hnone : (((w.registry r).updated.erase (w.nameOf o)).insertNew
        (fullName (w.object o).className id) o).get? (w.nameOf y) = none := by
      rw [nameOf_eq heq, OrderedMap.get?_insertNew, if_neg (Ne.symm hnames), OrderedMap.get?_erase,
        if_pos rfl]
    cases hnone.symm.trans hz'
  · intro heq
    obtain ⟨u, hu, hequal'⟩ := hall o (h.held _ _ hlisted)
    rw [Effect.record_move_self] at hu hequal'
    have hstays : (((w.registry r).updated.erase (w.nameOf o)).insertNew
        (fullName (w.object o).className id) o).get? (fullName (w.object o).className id) = some z := by
      refine OrderedMap.get?_insertNew_of_some ?_
      rw [OrderedMap.get?_erase, if_neg hnames, ← heq, hz]
    cases hstays.symm.trans hu
    rw [Effect.record_move_of_ne (h.ne_of_name_ne hz (heq ▸ hnames))] at hequal'
    exact hequal.symm.trans hequal'

/-- A listed object that no other one is equal to goes to another id and stays listed. -/
theorem lists_move_of_parts (hlisted : (w.registry r).updated.get? (w.nameOf o) = some o)
    (hid : id ≠ (w.object o).id) (hparts : w.Parts written o id) :
    (Effect.move o id).Lists r w written := by
  have hnames : fullName (w.object o).className id ≠ w.nameOf o := fun heq => hid (fullName_inj.mp heq)
  unfold Effect.Lists
  rw [h.updated_move hlisted]
  intro x hx
  by_cases hxo : x = o
  · subst hxo
    rw [Effect.record_move_self]
    cases htaken : (w.registry r).updated.get? (fullName (w.object x).className id) with
    | none =>
      refine ⟨x, OrderedMap.get?_insertNew_of_none ?_, Effect.record_move_self⟩
      rw [OrderedMap.get?_erase, if_neg hnames, htaken]
    | some z =>
      have hzx : z ≠ x := h.ne_of_name_ne htaken hnames
      refine ⟨z, OrderedMap.get?_insertNew_of_some ?_, ?_⟩
      · exact (OrderedMap.get?_erase ..).trans ((if_neg hnames).trans htaken)
      · rw [Effect.record_move_of_ne hzx]
        exact (hparts z (h.held _ _ htaken) hzx).2 (h.current _ _ htaken).symm
  · obtain ⟨y, hy, hequal⟩ := hlists x hx
    have hne : w.nameOf x ≠ w.nameOf o := fun heq => by
      have hyo : some y = some o := hy.symm.trans (heq ▸ hlisted)
      cases hyo
      exact (hparts x hx hxo).1 hequal.symm
    rw [Effect.record_move_of_ne hxo]
    refine ⟨y, OrderedMap.get?_insertNew_of_some ?_, ?_⟩
    · exact (OrderedMap.get?_erase ..).trans ((if_neg hne).trans hy)
    · rw [Effect.record_move_of_ne (h.ne_of_name_ne hy hne), hequal]

/-- An object that keeps its id keeps its entry. -/
theorem lists_move_self (hlisted : (w.registry r).updated.get? (w.nameOf o) = some o) :
    (Effect.move o (w.object o).id).Lists r w written := by
  have hrecord : ∀ y, (Effect.move o (w.object o).id).record w y = (w.object y).record := fun y => by
    by_cases hyo : y = o
    · rw [hyo, Effect.record_move_self]
      rfl
    · exact Effect.record_move_of_ne hyo
  unfold Effect.Lists
  rw [h.updated_move hlisted]
  intro x hx
  have hentry : (((w.registry r).updated.erase (w.nameOf o)).insertNew (w.nameOf o) o).get? (w.nameOf x)
      = (w.registry r).updated.get? (w.nameOf x) := by
    rw [OrderedMap.get?_insertNew, OrderedMap.get?_erase, OrderedMap.get?_erase, if_pos rfl]
    split
    · rename_i heq
      rw [heq, hlisted]
      rfl
    · rfl
  obtain ⟨y, hy, hequal⟩ := hlists x hx
  rw [hrecord x]
  exact ⟨y, hentry.trans hy, (hrecord y).trans hequal⟩

/-- A listed object takes its entry along, which the objects that are equal to it lose. -/
theorem lists_move_iff_of_listed (hlisted : (w.registry r).updated.get? (w.nameOf o) = some o) :
    (Effect.move o id).Lists r w written ↔ (id ≠ (w.object o).id → w.Parts written o id) := by
  by_cases hid : id = (w.object o).id
  · subst hid
    exact iff_of_true (h.lists_move_self hlists hlisted) fun hne => absurd rfl hne
  · constructor
    · exact fun hall _ => h.parts_of_lists_move hlists hlisted hid hall
    · exact fun hparts => h.lists_move_of_parts hlists hlisted hid (hparts hid)

/-- A step lets every written object be equal to one that is listed if it is considerate, and only
then. -/
theorem lists_effect_iff : effect.Lists r w written ↔ w.Considerate r written effect := by
  cases effect with
  | idle => exact iff_of_true hlists trivial
  | reset => exact iff_of_true (fun x hx => absurd hx List.not_mem_nil) trivial
  | write o => exact h.lists_write_iff hlists
  | move o id =>
    by_cases hlisted : (w.registry r).updated.get? (w.nameOf o) = some o
    · rw [h.lists_move_iff_of_listed hlists hlisted, Considerate]
      simp only [if_pos hlisted, h.held _ _ hlisted, true_imp_iff]
    · rw [h.lists_move_iff_of_unlisted hlists hlisted, Considerate]
      simp only [if_neg hlisted]

end Sound

end World

/-! ### Whole runs -/

namespace ObjectStep

variable {r : RegistryId} {s : World × List ObjectId} {steps : List ObjectStep}

/-- A world with the objects that were written since the last reset, after a step. -/
def next (r : RegistryId) (s : World × List ObjectId) (step : ObjectStep) :
    World × List ObjectId :=
  (step.run r s.1, (step.effect s.1).written r s.1 s.2)

/-- Something holds of every step of a run. -/
def All (r : RegistryId) (P : World × List ObjectId → ObjectStep → Prop) :
    World × List ObjectId → List ObjectStep → Prop
  | _, [] => True
  | s, step :: steps => P s step ∧ All r P (step.next r s) steps

instance decidableAll (P : World × List ObjectId → ObjectStep → Prop) [∀ s step, Decidable (P s step)] :
    (s : World × List ObjectId) → (steps : List ObjectStep) → Decidable (All r P s steps)
  | _, [] => isTrue trivial
  | s, step :: steps =>
    have := decidableAll P (step.next r s) steps
    inferInstanceAs (Decidable (P s step ∧ All r P (step.next r s) steps))

/-- The objects that a step works on were made. -/
abbrev Possible (s : World × List ObjectId) (step : ObjectStep) : Prop := step.Exists s.1

/-- Every written object is equal to a listed one after a step. -/
abbrev Listing (r : RegistryId) (s : World × List ObjectId) (step : ObjectStep) : Prop :=
  (step.next r s).1.Lists r (step.next r s).2

/-- A step is considerate. -/
abbrev Considered (r : RegistryId) (s : World × List ObjectId) (step : ObjectStep) : Prop :=
  s.1.Considerate r s.2 (step.effect s.1)

theorem all_append {P : World × List ObjectId → ObjectStep → Prop} {more : List ObjectStep} :
    All r P s (steps ++ more) ↔ All r P s steps ∧ All r P (steps.foldl (next r) s) more := by
  induction steps generalizing s with
  | nil => exact (true_and _).to_iff.symm
  | cons step steps ih =>
    rw [List.cons_append, All, All, ih, List.foldl_cons, and_assoc]

theorem sound_next {step : ObjectStep} (h : s.1.Sound r s.2) (hexists : step.Exists s.1) :
    (step.next r s).1.Sound r (step.next r s).2 :=
  h.next (takes_run h.registry hexists) (made_written hexists h.made)

/-- Every written object is equal to one that is listed all along a run if each of its steps is
considerate, and only then. -/
theorem all_listing_iff (h : s.1.Sound r s.2) (hlists : s.1.Lists r s.2)
    (hexists : All r Possible s steps) :
    All r (Listing r) s steps ↔ All r (Considered r) s steps := by
  induction steps generalizing s with
  | nil => exact Iff.rfl
  | cons step steps ih =>
    obtain ⟨hstep, hrest⟩ := hexists
    have hnext : Listing r s step ↔ Considered r s step :=
      (h.lists_next (takes_run h.registry hstep) (made_written hstep h.made)).trans
        (h.lists_effect_iff (h.lists_iff.mp hlists))
    rw [All, All, hnext]
    exact and_congr_right fun hconsidered =>
      ih (sound_next h hstep) (hnext.mpr hconsidered) hrest

theorem lists_of_all_listing (hlists : s.1.Lists r s.2) (hall : All r (Listing r) s steps) :
    (steps.foldl (next r) s).1.Lists r (steps.foldl (next r) s).2 := by
  induction steps generalizing s with
  | nil => exact hlists
  | cons step steps ih => exact ih hall.1 hall.2

end ObjectStep

namespace ObjectCall

open ObjectStep (next All Possible Considered Listing takes_setUnchecked)

variable {r : RegistryId} {w : World} {s : World × List ObjectId} {o : ObjectId}
  {entries : List (String × Field)} {calls : List ObjectCall}

/-- The objects that a call works on were made. -/
def Exists (w : World) : ObjectCall → Prop
  | .single step => step.Exists w
  | .copy o other => o.index < w.objects.size ∧ other.index < w.objects.size

instance (w : World) : (call : ObjectCall) → Decidable (call.Exists w)
  | .single step => inferInstanceAs (Decidable (step.Exists w))
  | .copy o other =>
    inferInstanceAs (Decidable (o.index < w.objects.size ∧ other.index < w.objects.size))

/-- The objects that calls work on were made when they do. -/
def AllExist (r : RegistryId) : World → List ObjectCall → Prop
  | _, [] => True
  | w, call :: calls => call.Exists w ∧ AllExist r (call.run r w) calls

instance decidableAllExist (r : RegistryId) :
    (w : World) → (calls : List ObjectCall) → Decidable (AllExist r w calls)
  | _, [] => isTrue trivial
  | w, call :: calls =>
    have := decidableAllExist r (call.run r w) calls
    inferInstanceAs (Decidable (call.Exists w ∧ AllExist r (call.run r w) calls))

/-- The steps that calls are made of. -/
def allSteps (r : RegistryId) : World → List ObjectCall → List ObjectStep
  | _, [] => []
  | w, call :: calls => call.steps w ++ allSteps r (call.run r w) calls

/-- Writing fields that the class has one after the other succeeds. -/
theorem forM_setUnchecked (hr : r.index < w.registries.size) (ho : o.index < w.objects.size)
    (hhas : ∀ e ∈ entries, (w.object o).schema.hasField e.1 = true) :
    (entries.forM fun e => o.setUnchecked e.1 e.2) w
      = (.ok (), (entries.map fun e => ObjectStep.setUnchecked o e.1 e.2).foldl
          (fun w step => step.run r w) w) := by
  induction entries generalizing w with
  | nil => rfl
  | cons e entries ih =>
    have hok : o.setUnchecked e.1 e.2 w
        = (.ok (), (ObjectStep.setUnchecked o e.1 e.2).run r w) := by
      by_cases hname : ∃ id, e.1 = "id" ∧ e.2 = .value (.text id)
      · obtain ⟨id, hid, htext⟩ := hname
        rw [ObjectStep.run, hid, htext]
        rfl
      · rw [ObjectStep.run, ObjectStep.setUnchecked_apply hname,
          if_pos (hhas e List.mem_cons_self)]
    have htakes : w.Takes r _ ((ObjectStep.setUnchecked o e.1 e.2).run r w) :=
      takes_setUnchecked hr ho
    refine (bind_of_ok hok).trans ?_
    refine ih (htakes.registries ▸ hr) (Nat.lt_of_lt_of_le ho htakes.objects) fun e' he' => ?_
    rw [Object.schema, htakes.type o ho]
    exact hhas e' (List.mem_cons_of_mem e he')

theorem all_possible_setUnchecked (hr : r.index < s.1.registries.size)
    (ho : o.index < s.1.objects.size) :
    All r Possible s (entries.map fun e => ObjectStep.setUnchecked o e.1 e.2) := by
  induction entries generalizing s with
  | nil => trivial
  | cons e entries ih =>
    have htakes : s.1.Takes r _ ((ObjectStep.setUnchecked o e.1 e.2).run r s.1) :=
      takes_setUnchecked hr ho
    exact ⟨ho, ih (htakes.registries ▸ hr) (Nat.lt_of_lt_of_le ho htakes.objects)⟩

/-- The world after the steps of a run. -/
theorem foldl_next (s : World × List ObjectId) (steps : List ObjectStep) :
    (steps.foldl (next r) s).1 = steps.foldl (fun w step => step.run r w) s.1 := by
  induction steps generalizing s with
  | nil => rfl
  | cons step steps ih => exact ih (step.next r s)

/-- A call is the same as its steps one after the other. -/
theorem run_steps {call : ObjectCall} (hr : r.index < s.1.registries.size)
    (hexists : call.Exists s.1) :
    ((call.steps s.1).foldl (next r) s).1 = call.run r s.1
      ∧ All r Possible s (call.steps s.1) := by
  cases call with
  | single step => exact ⟨rfl, hexists, trivial⟩
  | copy o other =>
    refine ⟨?_, all_possible_setUnchecked hr hexists.1⟩
    have hhas : ∀ e ∈ (s.1.object other).fields.entries.filter
        fun e => (s.1.object o).schema.hasField e.1, (s.1.object o).schema.hasField e.1 = true :=
      fun e he => (List.mem_filter.mp he).2
    rw [foldl_next, run, ObjectId.copy, bind_of_ok (get_apply s.1)]
    exact (congrArg Prod.snd (forM_setUnchecked hr hexists.1 hhas)).symm

/-- A run keeps the registries that there are. -/
theorem registries_foldl {steps : List ObjectStep} (hr : r.index < s.1.registries.size)
    (hexists : All r Possible s steps) : r.index < (steps.foldl (next r) s).1.registries.size := by
  induction steps generalizing s with
  | nil => exact hr
  | cons step steps ih =>
    exact ih ((ObjectStep.takes_run hr hexists.1).registries ▸ hr) hexists.2

/-- Calls are the same as their steps one after the other. -/
theorem run_allSteps (hr : r.index < s.1.registries.size) (hexist : AllExist r s.1 calls) :
    ((allSteps r s.1 calls).foldl (next r) s).1 = calls.foldl (fun w call => call.run r w) s.1
      ∧ All r Possible s (allSteps r s.1 calls) := by
  induction calls generalizing s with
  | nil => exact ⟨rfl, trivial⟩
  | cons call calls ih =>
    obtain ⟨hworld, hpossible⟩ := run_steps hr hexist.1
    have hr' := registries_foldl hr hpossible
    obtain ⟨hrest, hpossible'⟩ := ih hr' (hworld ▸ hexist.2)
    rw [hworld] at hrest hpossible'
    rw [allSteps, List.foldl_append, ObjectStep.all_append]
    exact ⟨hrest, hpossible, hpossible'⟩

end ObjectCall

/-- Starting from a registry that lists nothing, every object that was written since the last reset is
equal to one that is listed all along a run of calls, and at its end, if each step of the run is
considerate: if no listed object moves away from one that was written and is equal to it, none comes
to an object that was written and is not, and the names of objects tell them apart.  An inconsiderate
step leaves a written object without an equal one that is listed. -/
theorem listed_throughout_iff (w : World) (r : RegistryId) (calls : List ObjectCall)
    (hr : r.index < w.registries.size) (hempty : (w.registry r).updated = .empty)
    (hexist : ObjectCall.AllExist r w calls) :
    ((ObjectCall.allSteps r w calls).foldl (ObjectStep.next r) (w, [])).1
        = calls.foldl (fun w call => call.run r w) w
      ∧ (ObjectStep.All r (ObjectStep.Listing r) (w, []) (ObjectCall.allSteps r w calls)
        ↔ ObjectStep.All r (ObjectStep.Considered r) (w, []) (ObjectCall.allSteps r w calls))
      ∧ (ObjectStep.All r (ObjectStep.Considered r) (w, []) (ObjectCall.allSteps r w calls) →
        (calls.foldl (fun w call => call.run r w) w).Lists r
          ((ObjectCall.allSteps r w calls).foldl (ObjectStep.next r) (w, [])).2) := by
  obtain ⟨hrun, hpossible⟩ := ObjectCall.run_allSteps (s := (w, [])) hr hexist
  have hlists : w.Lists r [] := fun _ hx => absurd hx List.not_mem_nil
  have hsound := World.sound_nil hr hempty
  have hiff := ObjectStep.all_listing_iff (s := (w, [])) hsound hlists hpossible
  refine ⟨hrun, hiff, fun hconsidered => ?_⟩
  have hlast := ObjectStep.lists_of_all_listing (s := (w, [])) hlists (hiff.mpr hconsidered)
  rwa [hrun] at hlast

def noteType : ClassType :=
  { schema := {
      name := "A"
      attributes := .insert .empty "note" {
        name := "note", type := .text .string, multivalue := false, notNull := false
        rangeSource := none, initialSource := none, description := ""
        binding := some { range := .unbounded } } }
    bases := []
    home := ⟨0⟩ }

/-- A world with a registry and nothing else. -/
def bareWorld : World := { registries := Arena.empty.push {} }

/-- An object is written and gets another id. -/
def noteCalls : List ObjectCall :=
  [.single (.make noteType "x"), .single (.set ⟨0⟩ "note" (.value (.text "1"))),
    .single (.rename ⟨0⟩ "y")]

/-- A written object is listed after it got another id. -/
theorem listed_throughout_iff_noteCalls :
    (ObjectCall.AllExist ⟨0⟩ bareWorld noteCalls ∧ (bareWorld.registry ⟨0⟩).updated = .empty)
      ∧ ((ObjectCall.allSteps ⟨0⟩ bareWorld noteCalls).foldl (ObjectStep.next ⟨0⟩)
        (bareWorld, [])).2 = [⟨0⟩]
      ∧ (noteCalls.foldl (fun w call => call.run ⟨0⟩ w) bareWorld).Lists ⟨0⟩ [⟨0⟩] := by
  have hexist : ObjectCall.AllExist ⟨0⟩ bareWorld noteCalls := by decide +kernel
  have hwritten : ((ObjectCall.allSteps ⟨0⟩ bareWorld noteCalls).foldl (ObjectStep.next ⟨0⟩)
      (bareWorld, [])).2 = [⟨0⟩] := by decide +kernel
  obtain ⟨-, -, hlists⟩ := listed_throughout_iff bareWorld ⟨0⟩ noteCalls (by decide) rfl hexist
  exact ⟨⟨hexist, rfl⟩, hwritten, hwritten ▸ hlists (by decide +kernel)⟩

/-- Two equal objects are written, and the one that is listed gets another id. -/
def twinCalls : List ObjectCall :=
  [.single (.make noteType "x"), .single (.make noteType "x"),
    .single (.set ⟨0⟩ "note" (.value (.text "1"))), .single (.set ⟨1⟩ "note" (.value (.text "2"))),
    .single (.rename ⟨0⟩ "y")]

/-- An object can be written and yet be equal to none that is listed. -/
theorem not_listed_of_twin :
    ¬ ∀ (w : World) (r : RegistryId) (calls : List ObjectCall), r.index < w.registries.size →
      (w.registry r).updated = .empty → ObjectCall.AllExist r w calls →
      (calls.foldl (fun w call => call.run r w) w).Lists r
        ((ObjectCall.allSteps r w calls).foldl (ObjectStep.next r) (w, [])).2 := by
  intro hclaim
  have hexist : ObjectCall.AllExist ⟨0⟩ bareWorld twinCalls := by decide +kernel
  exact absurd (hclaim bareWorld ⟨0⟩ twinCalls (by decide) rfl hexist) (by decide +kernel)

/-! ### Entries -/

namespace World

variable {r : RegistryId} {w : World} {written : List ObjectId}

/-- Every entry of what a registry lists stands under the name that its object has, no object is in two
entries, and each listed object was written. -/
structure Keyed (r : RegistryId) (w : World) (written : List ObjectId) : Prop where
  current : ∀ e ∈ (w.registry r).updated.entries, e.1 = w.nameOf e.2
  once : (w.registry r).updated.values.Nodup
  written : ∀ x ∈ (w.registry r).updated.values, x ∈ written

theorem Sound.keyed (h : w.Sound r written) : w.Keyed r written := by
  have hcurrent : ∀ e ∈ (w.registry r).updated.entries, e.1 = w.nameOf e.2 := fun e he =>
    h.current e.1 e.2 (OrderedMap.get?_eq_some_iff.mpr he)
  refine ⟨hcurrent, ?_, fun x hx => ?_⟩
  · -- an object in two entries would stand under its one name twice
    have hkeys : (w.registry r).updated.values.map w.nameOf = (w.registry r).updated.keys := by
      rw [OrderedMap.values, List.map_map, OrderedMap.keys]
      exact List.map_congr_left fun e he => (hcurrent e he).symm
    have hnodup : ((w.registry r).updated.values.map w.nameOf).Nodup :=
      hkeys ▸ (w.registry r).updated.nodup_keys
    exact (List.pairwise_map.mp hnodup).imp fun hne heq => hne (congrArg w.nameOf heq)
  · obtain ⟨name, hname⟩ := OrderedMap.exists_get?_of_mem_values hx
    exact h.held name x hname

end World

namespace ObjectStep

variable {r : RegistryId} {s : World × List ObjectId} {steps : List ObjectStep}

/-- The entries are right after a step. -/
abbrev Keying (r : RegistryId) (s : World × List ObjectId) (step : ObjectStep) : Prop :=
  (step.next r s).1.Keyed r (step.next r s).2

/-- Possible steps keep the account of what is listed all along a run, and so the entries are right. -/
theorem keyed_run (h : s.1.Sound r s.2) (hexists : All r Possible s steps) :
    All r (Keying r) s steps ∧ (steps.foldl (next r) s).1.Keyed r (steps.foldl (next r) s).2 := by
  induction steps generalizing s with
  | nil => exact ⟨trivial, h.keyed⟩
  | cons step steps ih =>
    have hnext := sound_next h hexists.1
    obtain ⟨hrest, hlast⟩ := ih hnext hexists.2
    exact ⟨⟨hnext.keyed, hrest⟩, hlast⟩

end ObjectStep

/-- Starting from a registry that lists nothing, each entry stands under the name that its object has,
no object is in two entries, and every listed object was written since the last reset: after each step
of a run of calls, and at its end. -/
theorem keyed_throughout (w : World) (r : RegistryId) (calls : List ObjectCall)
    (hr : r.index < w.registries.size) (hempty : (w.registry r).updated = .empty)
    (hexist : ObjectCall.AllExist r w calls) :
    ObjectStep.All r (ObjectStep.Keying r) (w, []) (ObjectCall.allSteps r w calls)
      ∧ (calls.foldl (fun w call => call.run r w) w).Keyed r
        ((ObjectCall.allSteps r w calls).foldl (ObjectStep.next r) (w, [])).2 := by
  obtain ⟨hrun, hpossible⟩ := ObjectCall.run_allSteps (s := (w, [])) hr hexist
  obtain ⟨hall, hlast⟩ := ObjectStep.keyed_run (s := (w, [])) (World.sound_nil hr hempty) hpossible
  rw [hrun] at hlast
  exact ⟨hall, hlast⟩

/-- Three objects are written, two of them equal.  The first one gets the name of the third, which then
gets another one, and the second is written once more. -/
def collidingCalls : List ObjectCall :=
  [.single (.make noteType "x"), .single (.make noteType "x"), .single (.make noteType "y"),
    .single (.set ⟨0⟩ "note" (.value (.text "1"))), .single (.set ⟨1⟩ "note" (.value (.text "2"))),
    .single (.set ⟨2⟩ "note" (.value (.text "3"))), .single (.rename ⟨0⟩ "y"),
    .single (.set ⟨2⟩ "id" (.value (.text "z"))), .copy ⟨1⟩ ⟨0⟩]

/-- The object that met the name of another one has lost its entry; the others have theirs under the
names they have got. -/
theorem keyed_throughout_collidingCalls :
    (ObjectCall.AllExist ⟨0⟩ bareWorld collidingCalls ∧ (bareWorld.registry ⟨0⟩).updated = .empty)
      ∧ ((collidingCalls.foldl (fun w call => call.run ⟨0⟩ w) bareWorld).registry ⟨0⟩).updated.entries
        = [("z@A", ⟨2⟩), ("x@A", ⟨1⟩)]
      ∧ (collidingCalls.foldl (fun w call => call.run ⟨0⟩ w) bareWorld).Keyed ⟨0⟩
        [⟨1⟩, ⟨2⟩, ⟨1⟩, ⟨0⟩] := by
  have hexist : ObjectCall.AllExist ⟨0⟩ bareWorld collidingCalls := by decide +kernel
  have hwritten : ((ObjectCall.allSteps ⟨0⟩ bareWorld collidingCalls).foldl (ObjectStep.next ⟨0⟩)
      (bareWorld, [])).2 = [⟨1⟩, ⟨2⟩, ⟨1⟩, ⟨0⟩] := by decide +kernel
  obtain ⟨-, hkeyed⟩ := keyed_throughout bareWorld ⟨0⟩ collidingCalls (by decide) rfl hexist
  exact ⟨⟨hexist, rfl⟩, by decide +kernel, hwritten ▸ hkeyed⟩

end RecordGraph
