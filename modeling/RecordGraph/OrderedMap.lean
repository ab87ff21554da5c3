/-!
Finite maps that remember the order in which their keys arrived.  Writing to a key that is present
keeps its place, a new key goes to the end, and erasing keeps the order of the rest.  Each key
occurs once, and the type carries that fact.
-/

namespace RecordGraph

universe u v w

/-- A finite map listed in the order in which its keys arrived. -/
structure OrderedMap (κ : Type u) (ν : Type v) where
  entries : List (κ × ν) := []
  nodup_keys : (entries.map Prod.fst).Nodup := by simp

namespace OrderedMap

variable {κ : Type u} {ν : Type v} {μ : Type w}

/-- The map with no entry. -/
def empty : OrderedMap κ ν := {}

instance : EmptyCollection (OrderedMap κ ν) := ⟨empty⟩

instance : Inhabited (OrderedMap κ ν) := ⟨empty⟩

instance [Repr κ] [Repr ν] : Repr (OrderedMap κ ν) := ⟨fun m p => reprPrec m.entries p⟩

theorem ext {m n : OrderedMap κ ν} (h : m.entries = n.entries) : m = n := by
  cases m; cases n; cases h; rfl

theorem ext_iff {m n : OrderedMap κ ν} : m = n ↔ m.entries = n.entries :=
  ⟨fun h => h ▸ rfl, ext⟩

instance [DecidableEq κ] [DecidableEq ν] : DecidableEq (OrderedMap κ ν) := fun _ _ =>
  decidable_of_iff _ ext_iff.symm

/-- The keys, first arrived first. -/
def keys (m : OrderedMap κ ν) : List κ := m.entries.map Prod.fst

/-- The values, in the order of their keys. -/
def values (m : OrderedMap κ ν) : List ν := m.entries.map Prod.snd

def size (m : OrderedMap κ ν) : Nat := m.entries.length

def isEmpty (m : OrderedMap κ ν) : Bool := m.entries.isEmpty

/-- Replaces every value by a function of its key and itself. -/
def mapValues (f : κ → ν → μ) (m : OrderedMap κ ν) : OrderedMap κ μ where
  entries := m.entries.map fun e => (e.1, f e.1 e.2)
  nodup_keys := by
    have h : (m.entries.map fun e => (e.1, f e.1 e.2)).map Prod.fst = m.entries.map Prod.fst := by
      simp [List.map_map, Function.comp_def]
    exact h ▸ m.nodup_keys

theorem keys_mapValues (f : κ → ν → μ) (m : OrderedMap κ ν) :
    (m.mapValues f).keys = m.keys := by
  simp [mapValues, keys, List.map_map, Function.comp_def]

variable [DecidableEq κ]

/-- The value under a key. -/
def get? (m : OrderedMap κ ν) (k : κ) : Option ν :=
  (m.entries.find? fun e => e.1 = k).map Prod.snd

def contains (m : OrderedMap κ ν) (k : κ) : Bool := m.entries.any fun e => e.1 = k

theorem contains_iff_mem_keys {m : OrderedMap κ ν} {k : κ} : m.contains k = true ↔ k ∈ m.keys := by
  simp [contains, keys]

theorem get?_isSome (m : OrderedMap κ ν) (k : κ) : (m.get? k).isSome = m.contains k := by
  rw [Bool.eq_iff_iff]
  simp [get?, contains]

/-- Writes one entry: in place if the key is present, at the end otherwise. -/
def insert (m : OrderedMap κ ν) (k : κ) (v : ν) : OrderedMap κ ν where
  entries :=
    if m.contains k then m.entries.map fun e => if e.1 = k then (k, v) else e
    else m.entries ++ [(k, v)]
  nodup_keys := by
    split
    · have h : (m.entries.map fun e => if e.1 = k then (k, v) else e).map Prod.fst
          = m.entries.map Prod.fst := by
        rw [List.map_map]
        apply List.map_congr_left
        intro e _
        by_cases he : e.1 = k <;> simp [he]
      exact h ▸ m.nodup_keys
    · rename_i h
      rw [contains_iff_mem_keys] at h
      rw [List.map_append, List.nodup_append]
      refine ⟨m.nodup_keys, by simp, ?_⟩
      intro a ha b hb
      simp only [List.map_cons, List.map_nil, List.mem_singleton] at hb
      rintro rfl
      exact h (hb ▸ ha)

/-- Adds an entry only if its key is new. -/
def insertNew (m : OrderedMap κ ν) (k : κ) (v : ν) : OrderedMap κ ν :=
  if m.contains k then m else m.insert k v

/-- Removes the entry of a key; the others keep their order. -/
def erase (m : OrderedMap κ ν) (k : κ) : OrderedMap κ ν where
  entries := m.entries.filter fun e => e.1 ≠ k
  nodup_keys := (List.Sublist.map _ (List.filter_sublist)).nodup m.nodup_keys

/-- Changes the value under a key, if there is one. -/
def modify (m : OrderedMap κ ν) (k : κ) (f : ν → ν) : OrderedMap κ ν :=
  m.mapValues fun k' v => if k' = k then f v else v

/-- The entries of a list written one after the other. -/
def ofList (es : List (κ × ν)) : OrderedMap κ ν :=
  es.foldl (fun m e => m.insert e.1 e.2) empty

/-- The items of a list without those whose key an earlier item has. -/
def distinctBy {α : Type w} (key : α → κ) (xs : List α) : List α :=
  (xs.foldl (fun m x => m.insertNew (key x) x) (empty : OrderedMap κ α)).values

@[simp] theorem get?_empty (k : κ) : (empty : OrderedMap κ ν).get? k = none := rfl

theorem keys_insert (m : OrderedMap κ ν) (k : κ) (v : ν) :
    (m.insert k v).keys = if m.contains k then m.keys else m.keys ++ [k] := by
  unfold insert keys
  split
  · rw [List.map_map]
    apply List.map_congr_left
    intro e _
    by_cases he : e.1 = k <;> simp [he]
  · simp

theorem get?_insert (m : OrderedMap κ ν) (k k' : κ) (v : ν) :
    (m.insert k v).get? k' = if k' = k then some v else m.get? k' := by
  have aux : ∀ es : List (κ × ν),
      ((es.map fun e => if e.1 = k then (k, v) else e).find? fun e => e.1 = k').map Prod.snd
        = if k' = k then (if es.any (fun e => e.1 = k) then some v else none)
          else (es.find? fun e => e.1 = k').map Prod.snd := by
    intro es
    induction es with
    | nil => simp
    | cons e es ih =>
      simp only [List.map_cons, List.find?_cons, List.any_cons]
      by_cases hk : k' = k
      · subst hk
        by_cases he : e.1 = k'
        · simp [he]
        · simpa only [he, if_false, decide_false, Bool.false_or] using ih
      · simp only [hk, if_false] at ih ⊢
        by_cases he : e.1 = k
        · have h1 : ¬ k = k' := fun h => hk h.symm
          simpa only [he, h1, if_true, decide_false] using ih
        · by_cases he' : e.1 = k'
          · have h1 : ¬ k' = k := hk
            simp [he', h1]
          · simpa only [he, he', if_false, decide_false] using ih
  unfold insert get?
  by_cases hc : m.contains k = true
  · simp only [hc, if_true]
    rw [aux m.entries]
    simp only [contains] at hc
    simp [hc]
  · simp only [hc]
    rw [contains_iff_mem_keys] at hc
    simp only [Bool.false_eq_true, if_false, List.find?_append]
    by_cases hk : k' = k
    · subst hk
      have hn : m.entries.find? (fun e => e.1 = k') = none := by
        rw [List.find?_eq_none]
        intro e he
        simp only [decide_eq_true_eq]
        intro heq
        exact hc (heq ▸ List.mem_map_of_mem he)
      simp [hn]
    · have h1 : ¬ k = k' := fun h => hk h.symm
      simp [h1, hk]

theorem keys_erase (m : OrderedMap κ ν) (k : κ) : (m.erase k).keys = m.keys.filter (· ≠ k) := by
  unfold erase keys
  rw [List.filter_map]
  rfl

theorem get?_erase (m : OrderedMap κ ν) (k k' : κ) :
    (m.erase k).get? k' = if k' = k then none else m.get? k' := by
  unfold erase get?
  by_cases hk : k' = k
  · subst hk
    simp [List.find?_filter]
  · simp only [List.find?_filter, hk, if_false]
    congr 2
    funext e
    by_cases he : e.1 = k' <;> simp [he, hk]

theorem get?_mapValues (f : κ → ν → μ) (m : OrderedMap κ ν) (k : κ) :
    (m.mapValues f).get? k = (m.get? k).map (f k) := by
  unfold mapValues get?
  simp only
  induction m.entries with
  | nil => rfl
  | cons e es ih =>
    by_cases he : e.1 = k
    · subst he; simp
    · simpa [he] using ih

theorem contains_insert (m : OrderedMap κ ν) (k k' : κ) (v : ν) :
    (m.insert k v).contains k' = (decide (k' = k) || m.contains k') := by
  rw [← get?_isSome, ← get?_isSome, get?_insert]
  by_cases h : k' = k <;> simp [h]

theorem contains_erase (m : OrderedMap κ ν) (k k' : κ) :
    (m.erase k).contains k' = (!decide (k' = k) && m.contains k') := by
  rw [← get?_isSome, ← get?_isSome, get?_erase]
  by_cases h : k' = k <;> simp [h]

theorem get?_insertNew (m : OrderedMap κ ν) (k k' : κ) (v : ν) :
    (m.insertNew k v).get? k' = if k' = k then some ((m.get? k).getD v) else m.get? k' := by
  unfold insertNew
  split
  · rename_i hc
    by_cases h : k' = k
    · subst h
      rw [← get?_isSome, Option.isSome_iff_exists] at hc
      obtain ⟨w, hw⟩ := hc
      simp [hw]
    · simp [h]
  · rename_i hc
    rw [get?_insert]
    by_cases h : k' = k
    · subst h
      rw [← get?_isSome, Bool.not_eq_true, Option.isSome_eq_false_iff, Option.isNone_iff_eq_none] at hc
      simp [hc]
    · simp [h]

theorem get?_modify (m : OrderedMap κ ν) (k k' : κ) (f : ν → ν) :
    (m.modify k f).get? k' = if k' = k then (m.get? k).map f else m.get? k' := by
  unfold modify
  rw [get?_mapValues]
  by_cases h : k' = k
  · subst h; simp
  · simp [h]

theorem keys_modify (m : OrderedMap κ ν) (k : κ) (f : ν → ν) : (m.modify k f).keys = m.keys :=
  keys_mapValues _ m

end OrderedMap

end RecordGraph
