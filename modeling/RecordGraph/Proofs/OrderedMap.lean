import RecordGraph.OrderedMap

/-!
Entries of ordered maps.  A key occurs once, so that an entry is what looking its key up gives, and
whatever holds of all entries that were written holds of all that is found.
-/

namespace RecordGraph

namespace OrderedMap

universe u v w

variable {κ : Type u} {ν : Type v} {μ : Type w}

theorem mapValues_mapValues {ξ : Type w} (f : κ → ν → μ) (g : κ → μ → ξ) (m : OrderedMap κ ν) :
    (m.mapValues f).mapValues g = m.mapValues fun k v => g k (f k v) := by
  apply ext
  simp [mapValues]

theorem mapValues_congr {f g : κ → ν → μ} {m : OrderedMap κ ν}
    (h : ∀ e ∈ m.entries, f e.1 e.2 = g e.1 e.2) : m.mapValues f = m.mapValues g := by
  apply ext
  exact List.map_congr_left fun e he => congrArg (Prod.mk e.1) (h e he)

theorem size_eq_length_keys (m : OrderedMap κ ν) : m.size = m.keys.length := by
  rw [size, keys, List.length_map]

@[simp] theorem size_mapValues (f : κ → ν → μ) (m : OrderedMap κ ν) :
    (m.mapValues f).size = m.size := by
  rw [size_eq_length_keys, keys_mapValues, size_eq_length_keys]

/-- Replacing values by themselves changes nothing, and nothing else does. -/
theorem mapValues_eq_self_iff {f : κ → ν → ν} {m : OrderedMap κ ν} :
    m.mapValues f = m ↔ ∀ e ∈ m.entries, f e.1 e.2 = e.2 := by
  have hmap : (m.entries.map fun e => (e.1, f e.1 e.2)) = m.entries.map id
      ↔ ∀ e ∈ m.entries, (e.1, f e.1 e.2) = e := List.map_inj_left
  rw [List.map_id] at hmap
  rw [ext_iff, mapValues, hmap]
  simp [Prod.ext_iff]

variable [DecidableEq κ] {m : OrderedMap κ ν} {k : κ} {v : ν}

theorem size_insert : (m.insert k v).size = if m.contains k then m.size else m.size + 1 := by
  rw [size_eq_length_keys, keys_insert]
  split
  · rw [size_eq_length_keys]
  · rw [List.length_append, List.length_singleton, size_eq_length_keys]

/-- Erasing a key that is present removes one entry. -/
theorem size_erase (h : m.contains k = true) : (m.erase k).size + 1 = m.size := by
  have hkeys : (m.erase k).keys = m.keys.erase k := by
    have hnodup : m.keys.Nodup := m.nodup_keys
    rw [keys_erase, hnodup.erase_eq_filter]
    refine List.filter_congr fun x _ => ?_
    simp [bne, Bool.beq_eq_decide_eq]
  have hmem : k ∈ m.keys := contains_iff_mem_keys.mp h
  rw [size_eq_length_keys, hkeys, List.length_erase_of_mem hmem, size_eq_length_keys]
  exact Nat.sub_add_cancel (List.length_pos_of_mem hmem)

theorem get?_eq_some_iff : m.get? k = some v ↔ (k, v) ∈ m.entries := by
  obtain ⟨entries, hnodup⟩ := m
  unfold get?
  simp only
  induction entries with
  | nil => simp
  | cons e es ih =>
    obtain ⟨hnew, hrest⟩ := List.nodup_cons.mp hnodup
    rw [List.find?_cons, List.mem_cons]
    by_cases hkey : e.1 = k
    · subst hkey
      simp only [decide_true, Option.map_some, Option.some.injEq]
      constructor
      · rintro rfl
        exact Or.inl rfl
      · rintro (heq | hmem)
        · exact (congrArg Prod.snd heq).symm
        · exact absurd (List.mem_map_of_mem (f := Prod.fst) hmem) hnew
    · simp only [hkey, decide_false, ih hrest]
      constructor
      · exact Or.inr
      · rintro (rfl | hmem)
        · exact absurd rfl hkey
        · exact hmem

theorem mem_values_of_get? (h : m.get? k = some v) : v ∈ m.values :=
  List.mem_map_of_mem (f := Prod.snd) (get?_eq_some_iff.mp h)

theorem exists_get?_of_mem_values (h : v ∈ m.values) : ∃ k, m.get? k = some v := by
  obtain ⟨⟨k, w⟩, hmem, rfl⟩ := List.mem_map.mp h
  exact ⟨k, get?_eq_some_iff.mpr hmem⟩

theorem mem_keys_iff : k ∈ m.keys ↔ ∃ v, m.get? k = some v := by
  rw [← contains_iff_mem_keys, ← get?_isSome, Option.isSome_iff_exists]

theorem contains_iff_exists_get? : m.contains k = true ↔ ∃ v, m.get? k = some v := by
  rw [contains_iff_mem_keys, mem_keys_iff]

/-- Writing to a key that is present changes nothing but its value. -/
theorem mapValues_insert_const {x : μ} (h : m.contains k = true) :
    (m.insert k v).mapValues (fun _ _ => x) = m.mapValues fun _ _ => x := by
  apply ext
  simp only [mapValues, insert, h, if_true, List.map_map]
  refine List.map_congr_left fun e _ => ?_
  by_cases he : e.1 = k <;> simp [he]

/-- What holds of every listed entry holds of what is found under its key. -/
theorem of_get?_ofList (P : κ → ν → Prop) {es : List (κ × ν)} (hes : ∀ e ∈ es, P e.1 e.2)
    (h : (ofList es).get? k = some v) : P k v := by
  suffices general : ∀ start : OrderedMap κ ν, (∀ k v, start.get? k = some v → P k v) →
      ∀ k v, (es.foldl (fun m e => m.insert e.1 e.2) start).get? k = some v → P k v from
    general empty (by simp) k v h
  clear h
  induction es with
  | nil => exact fun start hstart => hstart
  | cons e es ih =>
    intro start hstart
    refine ih (fun e' he' => hes e' (List.mem_cons_of_mem e he')) _ ?_
    intro k v hget
    rw [get?_insert] at hget
    split at hget
    · rename_i hkey
      cases hget
      exact hkey ▸ hes e List.mem_cons_self
    · exact hstart k v hget

theorem get?_insertNew_of_some {k' : κ} {x : ν} (h : m.get? k' = some x) :
    (m.insertNew k v).get? k' = some x := by
  rw [get?_insertNew]
  split
  · rename_i hkey
    rw [← hkey, h]
    rfl
  · exact h

theorem get?_insertNew_of_none (h : m.get? k = none) : (m.insertNew k v).get? k = some v := by
  rw [get?_insertNew, if_pos rfl, h]
  rfl

theorem of_get?_insertNew {k' : κ} {x : ν} (h : (m.insertNew k v).get? k' = some x) :
    m.get? k' = some x ∨ (k' = k ∧ x = v) := by
  rw [get?_insertNew] at h
  split at h
  · rename_i hkey
    cases hold : m.get? k with
    | none =>
      rw [hold] at h
      exact Or.inr ⟨hkey, (Option.some.inj h).symm⟩
    | some w =>
      rw [hold] at h
      exact Or.inl (hkey ▸ hold.trans h)
  · exact Or.inl h

/-- Adding items under new keys adds no entries but those of the items. -/
theorem of_get?_foldl_insertNew {α : Type w} {key : α → κ} {f : α → ν} {xs : List α} {x : ν}
    (h : (xs.foldl (fun m y => m.insertNew (key y) (f y)) m).get? k = some x) :
    m.get? k = some x ∨ ∃ y ∈ xs, key y = k ∧ f y = x := by
  induction xs generalizing m with
  | nil => exact Or.inl h
  | cons y ys ih =>
    rcases ih h with h | ⟨z, hz, hzx⟩
    · rcases of_get?_insertNew h with h | ⟨rfl, rfl⟩
      · exact Or.inl h
      · exact Or.inr ⟨y, List.mem_cons_self, rfl, rfl⟩
    · exact Or.inr ⟨z, List.mem_cons_of_mem y hz, hzx⟩

theorem mem_values_foldl_insertNew {α : Type w} {key : α → κ} {f : α → ν} {xs : List α} {x : ν}
    (h : x ∈ (xs.foldl (fun m y => m.insertNew (key y) (f y)) m).values) :
    x ∈ m.values ∨ ∃ y ∈ xs, f y = x := by
  obtain ⟨k, hget⟩ := exists_get?_of_mem_values h
  rcases of_get?_foldl_insertNew hget with hold | ⟨y, hy, -, rfl⟩
  · exact Or.inl (mem_values_of_get? hold)
  · exact Or.inr ⟨y, hy, rfl⟩

theorem contains_insertNew {k' : κ} :
    (m.insertNew k v).contains k' = true ↔ m.contains k' = true ∨ k = k' := by
  rw [← get?_isSome, ← get?_isSome, get?_insertNew]
  split
  · rename_i hkey
    simp [hkey]
  · rename_i hkey
    simp [Ne.symm hkey]

theorem contains_foldl_insertNew {α : Type w} {key : α → κ} {f : α → ν} {xs : List α} :
    (xs.foldl (fun m y => m.insertNew (key y) (f y)) m).contains k = true
      ↔ m.contains k = true ∨ ∃ y ∈ xs, key y = k := by
  induction xs generalizing m with
  | nil => simp
  | cons y ys ih => simp [ih, contains_insertNew, or_assoc]

/-- Every item has its key represented. -/
theorem exists_mem_distinctBy {α : Type w} (key : α → κ) {xs : List α} {x : α} (hx : x ∈ xs) :
    ∃ y ∈ distinctBy key xs, key y = key x := by
  have hkey : (xs.foldl (fun m x => m.insertNew (key x) x) (empty : OrderedMap κ α)).contains (key x)
      = true := contains_foldl_insertNew (f := fun y : α => y) |>.mpr (Or.inr ⟨x, hx, rfl⟩)
  obtain ⟨y, hy⟩ := contains_iff_exists_get?.mp hkey
  refine ⟨y, mem_values_of_get? hy, ?_⟩
  rcases of_get?_foldl_insertNew (f := fun y : α => y) hy with hnone | ⟨z, -, hz, rfl⟩
  · cases hnone
  · exact hz

theorem mem_of_mem_distinctBy {α : Type w} {key : α → κ} {xs : List α} {x : α}
    (h : x ∈ distinctBy key xs) : x ∈ xs := by
  rcases mem_values_foldl_insertNew (f := fun y : α => y) h with hnone | ⟨y, hy, rfl⟩
  · exact absurd hnone List.not_mem_nil
  · exact hy

/-- Of items that are added under new keys the first one with its key is found. -/
theorem get?_foldl_insertNew {α : Type w} {key : α → κ} {xs : List α} {m : OrderedMap κ α} :
    (xs.foldl (fun m x => m.insertNew (key x) x) m).get? k
      = (m.get? k).or (xs.find? fun x => key x = k) := by
  induction xs generalizing m with
  | nil => simp
  | cons x xs ih =>
    rw [List.foldl_cons, ih, get?_insertNew, List.find?_cons]
    by_cases hkey : k = key x
    · subst hkey
      cases m.get? (key x) <;> simp
    · rw [if_neg hkey, decide_eq_false (Ne.symm hkey)]

/-- Of the items with one key the first one is kept. -/
theorem mem_distinctBy_iff {α : Type w} {key : α → κ} {xs : List α} {x : α} :
    x ∈ distinctBy key xs ↔ xs.find? (fun y => key y = key x) = some x := by
  have hget : ∀ k, (xs.foldl (fun m x => m.insertNew (key x) x) (empty : OrderedMap κ α)).get? k
      = xs.find? fun y => key y = k := fun k => get?_foldl_insertNew.trans (Option.none_or ..)
  constructor
  · intro hx
    obtain ⟨k, hk⟩ := exists_get?_of_mem_values hx
    rw [hget] at hk
    obtain rfl : key x = k := by simpa using List.find?_some hk
    exact hk
  · intro hx
    exact mem_values_of_get? ((hget (key x)).trans hx)

theorem nodup_map_distinctBy {α : Type w} (key : α → κ) (xs : List α) :
    ((distinctBy key xs).map key).Nodup := by
  have hkeys : (distinctBy key xs).map key
      = (xs.foldl (fun m x => m.insertNew (key x) x) (empty : OrderedMap κ α)).keys := by
    unfold distinctBy values keys
    rw [List.map_map]
    refine List.map_congr_left fun e he => ?_
    have hfound := (get?_foldl_insertNew (m := empty)).symm.trans (get?_eq_some_iff.mpr he)
    simpa using List.find?_some ((Option.none_or ..).symm.trans hfound)
  rw [hkeys]
  exact nodup_keys _

end OrderedMap

end RecordGraph
