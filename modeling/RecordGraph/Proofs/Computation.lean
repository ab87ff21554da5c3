import RecordGraph.Error

/-!
Computations that keep a state and may fail, as stores, worlds and sessions run them.  Running a
composed computation is described by the runs of its parts, so that proofs take a run apart without
opening the monads, and loops over lists are followed by induction along what they did already.
-/

namespace RecordGraph

universe u

/-- A computation on a state that may fail.  What it changed before it failed stays. -/
abbrev Computation (σ : Type) (α : Type) := ExceptT Error (StateM σ) α

namespace Computation

variable {σ α β γ : Type}

/-- Two outcomes of runs are equal when result and state are. -/
@[simp] theorem outcome_eq_iff {x y : Except Error α} {s t : σ} :
    @Eq (Id (Except Error α × σ)) (x, s) (y, t) ↔ x = y ∧ s = t :=
  Iff.of_eq (Prod.mk.injEq x s y t)

theorem run_of_isOk {m : Computation σ α} {s : σ} (h : (m s).1.isOk = true) :
    ∃ a, m s = (.ok a, (m s).2) := by
  rcases hrun : m s with ⟨e | a, t⟩
  · simp [hrun, Except.isOk, Except.toBool] at h
  · exact ⟨a, rfl⟩

theorem run_of_not_isOk {m : Computation σ α} {s : σ} (h : (m s).1.isOk = false) :
    ∃ e, m s = (.error e, (m s).2) := by
  rcases hrun : m s with ⟨e | a, t⟩
  · exact ⟨e, rfl⟩
  · simp [hrun, Except.isOk, Except.toBool] at h

theorem run_of_toOption {m : Computation σ α} {s : σ} {a : α} (h : (m s).1.toOption = some a) :
    m s = (.ok a, (m s).2) := by
  rcases hrun : m s with ⟨e | b, t⟩
  · simp [hrun, Except.toOption] at h
  · simp only [hrun, Except.toOption, Option.some.injEq] at h
    rw [h]

/-! ### Single steps -/

@[simp] theorem pure_apply (a : α) (s : σ) : (pure a : Computation σ α) s = (.ok a, s) := rfl

@[simp] theorem throw_apply (e : Error) (s : σ) :
    (throw e : Computation σ α) s = (.error e, s) := rfl

@[simp] theorem get_apply (s : σ) : (get : Computation σ σ) s = (.ok s, s) := rfl

@[simp] theorem set_apply (t s : σ) : (set t : Computation σ PUnit) s = (.ok ⟨⟩, t) := rfl

@[simp] theorem modify_apply (f : σ → σ) (s : σ) :
    (modify f : Computation σ PUnit) s = (.ok ⟨⟩, f s) := rfl

@[simp] theorem ofExcept_apply (x : Except Error α) (s : σ) :
    (MonadExcept.ofExcept x : Computation σ α) s = (x, s) := by
  cases x <;> rfl

theorem bind_apply (m : Computation σ α) (f : α → Computation σ β) (s : σ) :
    (m >>= f) s = match m s with
      | (.ok a, t) => f a t
      | (.error e, t) => (.error e, t) := by
  rcases h : m s with ⟨e | a, t⟩
  · simp only [bind, ExceptT.bind, ExceptT.mk, ExceptT.bindCont, StateT.bind, h]
    rfl
  · simp only [bind, ExceptT.bind, ExceptT.mk, ExceptT.bindCont, StateT.bind, h]

theorem bind_of_ok {m : Computation σ α} {f : α → Computation σ β} {s t : σ} {a : α}
    (h : m s = (.ok a, t)) : (m >>= f) s = f a t := by
  rw [bind_apply, h]

theorem bind_of_error {m : Computation σ α} {f : α → Computation σ β} {s t : σ} {e : Error}
    (h : m s = (.error e, t)) : (m >>= f) s = (.error e, t) := by
  rw [bind_apply, h]

theorem map_apply (f : α → β) (m : Computation σ α) (s : σ) :
    (f <$> m) s = ((m s).1.map f, (m s).2) := by
  rcases h : m s with ⟨a | a, t⟩ <;>
    simp only [Functor.map, ExceptT.map, ExceptT.mk, bind, StateT.bind, h] <;> rfl

theorem tryCatch_apply (m : Computation σ α) (f : Error → Computation σ α) (s : σ) :
    (tryCatch m f) s = match m s with
      | (.ok a, t) => (.ok a, t)
      | (.error e, t) => f e t := by
  rcases h : m s with ⟨e | a, t⟩
  · simp only [tryCatch, tryCatchThe, MonadExceptOf.tryCatch, ExceptT.tryCatch, ExceptT.mk, bind,
      StateT.bind, h]
  · simp only [tryCatch, tryCatchThe, MonadExceptOf.tryCatch, ExceptT.tryCatch, ExceptT.mk, bind,
      StateT.bind, h]
    rfl

/-! ### Successful runs -/

theorem except_bind_eq_ok {x : Except Error α} {f : α → Except Error β} {b : β} :
    (x >>= f) = .ok b ↔ ∃ a, x = .ok a ∧ f a = .ok b := by
  cases x <;> simp [bind, Except.bind]

theorem mapM_isOk {f : α → Except Error β} {xs : List α} :
    (xs.mapM f).isOk = true ↔ ∀ x ∈ xs, (f x).isOk = true := by
  induction xs with
  | nil => simp [Except.isOk, Except.toBool, pure, Except.pure]
  | cons x xs ih =>
    rw [List.mapM_cons, List.forall_mem_cons, ← ih]
    cases f x <;> cases xs.mapM f <;>
      simp [bind, Except.bind, pure, Except.pure, Except.isOk, Except.toBool]

theorem except_mapM_eq_ok {f : α → Except Error β} {xs : List α} {ys : List β} :
    xs.mapM f = .ok ys ↔ xs.map f = ys.map .ok := by
  induction xs generalizing ys with
  | nil => cases ys <;> simp [pure, Except.pure]
  | cons x xs ih =>
    rw [List.mapM_cons, List.map_cons]
    cases ys with
    | nil => cases f x <;> cases xs.mapM f <;> simp [bind, Except.bind, pure, Except.pure]
    | cons y ys =>
      rw [List.map_cons, List.cons.injEq, ← ih]
      cases f x <;> cases xs.mapM f <;> simp [bind, Except.bind, pure, Except.pure]

theorem option_mapM_eq_some {f : α → Option β} {xs : List α} {ys : List β} :
    xs.mapM f = some ys ↔ xs.map f = ys.map some := by
  induction xs generalizing ys with
  | nil => cases ys <;> simp
  | cons x xs ih =>
    rw [List.mapM_cons, List.map_cons]
    cases ys with
    | nil => cases f x <;> cases xs.mapM f <;> simp
    | cons y ys =>
      rw [List.map_cons, List.cons.injEq, ← ih]
      cases f x <;> cases xs.mapM f <;> simp

theorem bind_eq_ok {m : Computation σ α} {f : α → Computation σ β} {s t : σ} {b : β} :
    (m >>= f) s = (.ok b, t) ↔ ∃ a u, m s = (.ok a, u) ∧ f a u = (.ok b, t) := by
  rw [bind_apply]
  rcases m s with ⟨a | a, u⟩ <;> simp [and_assoc]

theorem tryCatch_eq_ok {m : Computation σ α} {f : Error → Computation σ α} {s t : σ} {a : α} :
    (tryCatch m f) s = (.ok a, t)
      ↔ m s = (.ok a, t) ∨ ∃ e u, m s = (.error e, u) ∧ f e u = (.ok a, t) := by
  rw [tryCatch_apply]
  rcases m s with ⟨b | b, u⟩ <;> simp [and_assoc]

/-! ### Loops

What holds before a loop, and is kept by each of its steps along what was done already, holds of the
whole list afterwards. -/

theorem forM_run {f : α → Computation σ PUnit} (P : List α → σ → Prop) {xs : List α} {s t : σ}
    {u : PUnit} (h : xs.forM f s = (.ok u, t)) (start : P [] s)
    (step : ∀ done x a b, x ∈ xs → P done a → f x a = (.ok ⟨⟩, b) → P (done ++ [x]) b) :
    P xs t := by
  suffices general : ∀ done, P done s → P (done ++ xs) t from general [] start
  clear start
  induction xs generalizing s with
  | nil =>
    intro done hdone
    obtain ⟨-, rfl⟩ := Prod.mk.inj h
    simpa using hdone
  | cons x xs ih =>
    intro done hdone
    obtain ⟨_, a, hx, hxs⟩ := bind_eq_ok.mp h
    have hnext := step done x s a List.mem_cons_self hdone hx
    have hrest := ih hxs (fun done y a b hy => step done y a b (List.mem_cons_of_mem x hy))
    simpa using hrest (done ++ [x]) hnext

/-- The same for a list of items with keys that differ, none of which was done before its turn. -/
theorem forM_run_distinct {f : α → Computation σ PUnit} (key : α → β) (P : List α → σ → Prop)
    {xs : List α} {s t : σ} {u : PUnit} (hkeys : (xs.map key).Nodup)
    (h : xs.forM f s = (.ok u, t)) (start : P [] s)
    (step : ∀ done x a b, x ∈ xs → key x ∉ done.map key → P done a → f x a = (.ok ⟨⟩, b) →
      P (done ++ [x]) b) :
    P xs t := by
  suffices general : ∀ done, ((done ++ xs).map key).Nodup → P done s → P (done ++ xs) t from
    general [] hkeys start
  clear start hkeys
  induction xs generalizing s with
  | nil =>
    intro done _ hdone
    obtain ⟨-, rfl⟩ := Prod.mk.inj h
    simpa using hdone
  | cons x xs ih =>
    intro done hkeys hdone
    obtain ⟨_, a, hx, hxs⟩ := bind_eq_ok.mp h
    have hnew : key x ∉ done.map key := by
      rw [List.map_append, List.nodup_append] at hkeys
      exact fun hmem => hkeys.2.2 _ hmem _ List.mem_cons_self rfl
    have hnext := step done x s a List.mem_cons_self hnew hdone hx
    have hrest := ih hxs (fun done y a b hy => step done y a b (List.mem_cons_of_mem x hy))
    simpa using hrest (done ++ [x]) (by simpa using hkeys) hnext

theorem mapM_run {f : α → Computation σ β} (P : List α → List β → σ → Prop) {xs : List α}
    {ys : List β} {s t : σ} (h : xs.mapM f s = (.ok ys, t)) (start : P [] [] s)
    (step : ∀ done results x y a b, x ∈ xs → P done results a → f x a = (.ok y, b) →
      P (done ++ [x]) (results ++ [y]) b) :
    P xs ys t := by
  suffices general : ∀ done results, P done results s → P (done ++ xs) (results ++ ys) t from
    general [] [] start
  clear start
  induction xs generalizing s ys with
  | nil =>
    intro done results hdone
    obtain ⟨hys, rfl⟩ := Prod.mk.inj h
    cases hys
    simpa using hdone
  | cons x xs ih =>
    intro done results hdone
    rw [List.mapM_cons] at h
    obtain ⟨y, a, hx, h⟩ := bind_eq_ok.mp h
    obtain ⟨zs, b, hxs, h⟩ := bind_eq_ok.mp h
    obtain ⟨hys, rfl⟩ := Prod.mk.inj h
    cases hys
    have hnext := step done results x y s a List.mem_cons_self hdone hx
    have hrest := ih hxs fun done results z w a b hz =>
      step done results z w a b (List.mem_cons_of_mem x hz)
    simpa using hrest (done ++ [x]) (results ++ [y]) hnext

theorem foldlM_run {f : β → α → Computation σ β} (P : List α → β → σ → Prop) {xs : List α}
    {start result : β} {s t : σ} (h : xs.foldlM f start s = (.ok result, t)) (first : P [] start s)
    (step : ∀ done acc x next a b, x ∈ xs → P done acc a → f acc x a = (.ok next, b) →
      P (done ++ [x]) next b) :
    P xs result t := by
  suffices general : ∀ done, P done start s → P (done ++ xs) result t from general [] first
  clear first
  induction xs generalizing s start with
  | nil =>
    intro done hdone
    obtain ⟨hresult, rfl⟩ := Prod.mk.inj h
    cases hresult
    simpa using hdone
  | cons x xs ih =>
    intro done hdone
    rw [List.foldlM_cons] at h
    obtain ⟨next, a, hx, hxs⟩ := bind_eq_ok.mp h
    have hnext := step done start x next s a List.mem_cons_self hdone hx
    have hrest := ih hxs fun done acc y next a b hy =>
      step done acc y next a b (List.mem_cons_of_mem x hy)
    simpa using hrest (done ++ [x]) hnext

/-! ### Loops that never fail -/

theorem forM_ok {f : α → Computation σ PUnit} (P : σ → Prop) {xs : List α} {s : σ} (start : P s)
    (step : ∀ x a, x ∈ xs → P a → ∃ b, f x a = (.ok ⟨⟩, b) ∧ P b) :
    ∃ t, xs.forM f s = (.ok ⟨⟩, t) ∧ P t := by
  induction xs generalizing s with
  | nil => exact ⟨s, rfl, start⟩
  | cons x xs ih =>
    obtain ⟨a, hx, ha⟩ := step x s List.mem_cons_self start
    obtain ⟨t, hxs, ht⟩ := ih ha fun y b hy => step y b (List.mem_cons_of_mem x hy)
    exact ⟨t, (bind_of_ok hx).trans hxs, ht⟩

theorem mapM_ok {f : α → Computation σ β} (P : σ → Prop) {xs : List α} {s : σ} (start : P s)
    (step : ∀ x a, x ∈ xs → P a → ∃ y b, f x a = (.ok y, b) ∧ P b) :
    ∃ ys t, xs.mapM f s = (.ok ys, t) ∧ P t := by
  induction xs generalizing s with
  | nil => exact ⟨[], s, rfl, start⟩
  | cons x xs ih =>
    obtain ⟨y, a, hx, ha⟩ := step x s List.mem_cons_self start
    obtain ⟨ys, t, hxs, ht⟩ := ih ha fun z b hz => step z b (List.mem_cons_of_mem x hz)
    refine ⟨y :: ys, t, ?_, ht⟩
    rw [List.mapM_cons, bind_of_ok hx, bind_of_ok hxs, pure_apply]

/-! ### Loops that fail where a condition does not hold -/

section Conditions

variable {I J : σ → Prop} {P Q : Prop} {s : σ}

/-- From a state a computation succeeds exactly if a condition holds, and comes to a state of a kind
where it succeeds. -/
structure SucceedsIff (I : σ → Prop) (P : Prop) (m : Computation σ α) (s : σ) : Prop where
  ok_iff : (∃ a t, m s = (.ok a, t)) ↔ P
  next : ∀ a t, m s = (.ok a, t) → I t

namespace SucceedsIff

theorem congr {m : Computation σ α} (h : SucceedsIff I P m s) (hPQ : P ↔ Q) : SucceedsIff I Q m s :=
  ⟨h.ok_iff.trans hPQ, h.next⟩

theorem of_eq {m n : Computation σ α} {t : σ} (h : m s = n t) (hn : SucceedsIff I P n t) :
    SucceedsIff I P m s := by
  refine ⟨?_, fun a u hrun => hn.next a u (h ▸ hrun)⟩
  rw [h]
  exact hn.ok_iff

theorem of_ok {m : Computation σ α} {a : α} {t : σ} (hrun : m s = (.ok a, t)) (ht : I t) :
    SucceedsIff I True m s := by
  refine ⟨⟨fun _ => trivial, fun _ => ⟨a, t, hrun⟩⟩, fun b u hother => ?_⟩
  rw [hrun] at hother
  cases hother
  exact ht

theorem bind {m : Computation σ α} {f : α → Computation σ β} (hm : SucceedsIff I P m s)
    (hf : ∀ a t, m s = (.ok a, t) → I t → SucceedsIff J Q (f a) t) :
    SucceedsIff J (P ∧ Q) (m >>= f) s := by
  constructor
  · constructor
    · rintro ⟨b, u, hrun⟩
      obtain ⟨a, t, hfirst, hrest⟩ := bind_eq_ok.mp hrun
      exact ⟨hm.ok_iff.mp ⟨a, t, hfirst⟩,
        (hf a t hfirst (hm.next a t hfirst)).ok_iff.mp ⟨b, u, hrest⟩⟩
    · rintro ⟨hP, hQ⟩
      obtain ⟨a, t, hfirst⟩ := hm.ok_iff.mpr hP
      obtain ⟨b, u, hrest⟩ := (hf a t hfirst (hm.next a t hfirst)).ok_iff.mpr hQ
      exact ⟨b, u, bind_eq_ok.mpr ⟨a, t, hfirst, hrest⟩⟩
  · intro b u hrun
    obtain ⟨a, t, hfirst, hrest⟩ := bind_eq_ok.mp hrun
    exact (hf a t hfirst (hm.next a t hfirst)).next b u hrest

/-- A loop succeeds exactly if each of its steps does, from whatever state it starts. -/
theorem forM {f : α → Computation σ PUnit} {P : α → Prop} {xs : List α} (hs : I s)
    (step : ∀ x ∈ xs, ∀ t, I t → SucceedsIff I (P x) (f x) t) :
    SucceedsIff I (∀ x ∈ xs, P x) (xs.forM f) s := by
  induction xs generalizing s with
  | nil => exact (of_ok (a := PUnit.unit) rfl hs).congr (by simp)
  | cons x xs ih =>
    have hfirst := step x List.mem_cons_self s hs
    have hrest := hfirst.bind fun _ t _ ht =>
      ih ht fun y hy => step y (List.mem_cons_of_mem x hy)
    exact hrest.congr List.forall_mem_cons.symm

theorem mapM {f : α → Computation σ β} {P : α → Prop} {xs : List α} (hs : I s)
    (step : ∀ x ∈ xs, ∀ t, I t → SucceedsIff I (P x) (f x) t) :
    SucceedsIff I (∀ x ∈ xs, P x) (xs.mapM f) s := by
  induction xs generalizing s with
  | nil => exact (of_ok (a := []) rfl hs).congr (by simp)
  | cons x xs ih =>
    rw [List.mapM_cons]
    have hfirst := step x List.mem_cons_self s hs
    have hrest := hfirst.bind fun y t _ ht =>
      (ih ht fun y hy => step y (List.mem_cons_of_mem x hy)).bind (J := I) fun ys u _ hu =>
        of_ok (m := pure (y :: ys)) rfl hu
    exact hrest.congr (by simp)

end SucceedsIff

end Conditions

/-! ### Failing runs

A computation that checks before it changes is atomic: it changes nothing where it fails. -/

section Failing

variable {m : Computation σ α} {f : α → Computation σ β}

/-- A computation that leaves every state as it is. -/
def Reads (m : Computation σ α) : Prop := ∀ s, (m s).2 = s

/-- A computation that leaves the state as it is where it fails. -/
def Atomic (m : Computation σ α) : Prop := ∀ s e t, m s = (.error e, t) → t = s

/-- A computation that never fails. -/
def Succeeds (m : Computation σ α) : Prop := ∀ s, ∃ a t, m s = (.ok a, t)

theorem bind_eq_error {s t : σ} {e : Error} :
    (m >>= f) s = (.error e, t)
      ↔ m s = (.error e, t) ∨ ∃ a u, m s = (.ok a, u) ∧ f a u = (.error e, t) := by
  rw [bind_apply]
  rcases m s with ⟨e' | a, u⟩ <;> simp [and_assoc]

theorem reads_get : Reads (get : Computation σ σ) := fun _ => rfl

theorem reads_throw (e : Error) : Reads (throw e : Computation σ α) := fun _ => rfl

theorem reads_ofExcept (x : Except Error α) : Reads (MonadExcept.ofExcept x : Computation σ α) := by
  intro s
  rw [ofExcept_apply]

theorem Reads.bind (hm : Reads m) (hf : ∀ a, Reads (f a)) : Reads (m >>= f) := by
  intro s
  have hs := hm s
  rcases hrun : m s with ⟨e | a, t⟩
  · rw [bind_of_error hrun]
    rwa [hrun] at hs
  · rw [bind_of_ok hrun, hf a t]
    rwa [hrun] at hs

/-- What only reads may stand after what changes. -/
theorem state_bind_of_reads (hf : ∀ a, Reads (f a)) (s : σ) : ((m >>= f) s).2 = (m s).2 := by
  rcases hrun : m s with ⟨e | a, t⟩
  · rw [bind_of_error hrun]
  · rw [bind_of_ok hrun, hf a t]

theorem Reads.forM {f : α → Computation σ PUnit} (hf : ∀ a, Reads (f a)) (xs : List α) :
    Reads (xs.forM f) := by
  induction xs with
  | nil => exact fun _ => rfl
  | cons x xs ih => exact (hf x).bind fun _ => ih

theorem Reads.atomic (hm : Reads m) : Atomic m := by
  intro s e t hrun
  have hs := hm s
  rwa [hrun] at hs

theorem Succeeds.atomic (hm : Succeeds m) : Atomic m := by
  intro s e t hrun
  obtain ⟨a, u, hok⟩ := hm s
  simp [hok] at hrun

/-- What only reads may stand before what changes. -/
theorem Reads.bind_atomic (hm : Reads m) (hf : ∀ a, Atomic (f a)) : Atomic (m >>= f) := by
  intro s e t hrun
  have hs := hm s
  rcases hm' : m s with ⟨e' | a, u⟩
  · rw [bind_of_error hm'] at hrun
    obtain ⟨-, rfl⟩ := Prod.mk.inj hrun
    rwa [hm'] at hs
  · rw [bind_of_ok hm'] at hrun
    rw [hf a u e t hrun]
    rwa [hm'] at hs

/-- What never fails may stand after what changes. -/
theorem Atomic.bind_succeeds (hm : Atomic m) (hf : ∀ a, Succeeds (f a)) : Atomic (m >>= f) := by
  intro s e t hrun
  rcases hm' : m s with ⟨e' | a, u⟩
  · rw [bind_of_error hm'] at hrun
    obtain ⟨-, rfl⟩ := Prod.mk.inj hrun
    exact hm s e' u hm'
  · obtain ⟨b, v, hok⟩ := hf a u
    rw [bind_of_ok hm', hok] at hrun
    simp at hrun

theorem succeeds_pure (a : α) : Succeeds (pure a : Computation σ α) := fun s => ⟨a, s, rfl⟩

theorem succeeds_modify (f : σ → σ) : Succeeds (modify f : Computation σ PUnit) :=
  fun s => ⟨⟨⟩, f s, rfl⟩

theorem Succeeds.bind (hm : Succeeds m) (hf : ∀ a, Succeeds (f a)) : Succeeds (m >>= f) := by
  intro s
  obtain ⟨a, t, hok⟩ := hm s
  rw [bind_of_ok hok]
  exact hf a t

end Failing

/-! ### Invariants of all runs

What a computation preserves holds of the state after it whether it succeeds or fails. -/

section Invariants

variable {P : σ → Prop} {m : Computation σ α} {f : α → Computation σ β}

/-- A computation keeps what holds of the state. -/
def Preserves (P : σ → Prop) (m : Computation σ α) : Prop := ∀ s, P s → P (m s).2

theorem Preserves.run {x : Except Error α} {s t : σ} (hm : Preserves P m) (hs : P s)
    (hrun : m s = (x, t)) : P t := by
  have hnext := hm s hs
  rwa [hrun] at hnext

theorem Reads.preserves (hm : Reads m) : Preserves P m := by
  intro s hs
  rwa [hm s]

theorem preserves_pure (a : α) : Preserves P (pure a) := fun _ hs => hs

theorem preserves_modify {g : σ → σ} (h : ∀ s, P s → P (g s)) :
    Preserves P (modify g : Computation σ PUnit) := h

theorem Preserves.bind (hm : Preserves P m) (hf : ∀ a, Preserves P (f a)) :
    Preserves P (m >>= f) := by
  intro s hs
  have hnext := hm s hs
  rcases hrun : m s with ⟨e | a, t⟩
  · rw [bind_of_error hrun]
    rwa [hrun] at hnext
  · rw [bind_of_ok hrun]
    exact hf a t (by rwa [hrun] at hnext)

theorem Preserves.tryCatch {handler : Error → Computation σ α} (hm : Preserves P m)
    (hhandler : ∀ e, Preserves P (handler e)) : Preserves P (tryCatch m handler) := by
  intro s hs
  have hnext := hm s hs
  rw [tryCatch_apply]
  rcases hrun : m s with ⟨e | a, t⟩
  · exact hhandler e t (by rwa [hrun] at hnext)
  · rwa [hrun] at hnext

theorem Preserves.forM {g : α → Computation σ PUnit} {xs : List α}
    (hg : ∀ x ∈ xs, Preserves P (g x)) : Preserves P (xs.forM g) := by
  induction xs with
  | nil => exact preserves_pure _
  | cons x xs ih =>
    exact (hg x List.mem_cons_self).bind fun _ => ih fun y hy => hg y (List.mem_cons_of_mem x hy)

theorem Preserves.mapM {xs : List α} (hf : ∀ x ∈ xs, Preserves P (f x)) :
    Preserves P (xs.mapM f) := by
  induction xs with
  | nil => exact preserves_pure _
  | cons x xs ih =>
    rw [List.mapM_cons]
    exact (hf x List.mem_cons_self).bind fun _ =>
      (ih fun y hy => hf y (List.mem_cons_of_mem x hy)).bind fun _ => preserves_pure _

theorem Preserves.foldlM {g : β → α → Computation σ β} {xs : List α}
    (hg : ∀ acc, ∀ x ∈ xs, Preserves P (g acc x)) (start : β) : Preserves P (xs.foldlM g start) := by
  induction xs generalizing start with
  | nil => exact preserves_pure _
  | cons x xs ih =>
    rw [List.foldlM_cons]
    exact (hg start x List.mem_cons_self).bind fun next =>
      ih (fun acc y hy => hg acc y (List.mem_cons_of_mem x hy)) next

end Invariants

/-! ### Runs along an order of states -/

section Leading

variable {R : σ → σ → Prop} {Q : α → σ → Prop} {s : σ}

/-- From a state a computation leads to one that comes after it, whether it succeeds or fails, and what
it gives back is right in that state. -/
structure Yields (R : σ → σ → Prop) (Q : α → σ → Prop) (m : Computation σ α) (s : σ) : Prop where
  after : R s (m s).2
  gives : ∀ a t, m s = (.ok a, t) → Q a t

namespace Yields

theorem of_eq {m : Computation σ α} {x : Except Error α} {t : σ} (hrun : m s = (x, t)) (ht : R s t)
    (hQ : ∀ a, x = .ok a → Q a t) : Yields R Q m s := by
  constructor
  · rwa [hrun]
  · intro a u h
    obtain ⟨rfl, rfl⟩ := Prod.mk.inj (hrun.symm.trans h)
    exact hQ a rfl

theorem congr {m n : Computation σ α} (h : m s = n s) (hn : Yields R Q n s) : Yields R Q m s :=
  ⟨h ▸ hn.after, fun a t hrun => hn.gives a t (h ▸ hrun)⟩

theorem bind {T : β → σ → Prop} {m : Computation σ α} {f : α → Computation σ β}
    (trans : ∀ {a b c}, R a b → R b c → R a c) (hm : Yields R Q m s)
    (hf : ∀ a t, m s = (.ok a, t) → R s t → Q a t → Yields R T (f a) t) : Yields R T (m >>= f) s := by
  have hafter := hm.after
  rcases hrun : m s with ⟨e | a, t⟩
  all_goals rw [hrun] at hafter
  · exact of_eq (bind_of_error hrun) hafter fun _ h => by cases h
  · have hnext := hf a t hrun hafter (hm.gives a t hrun)
    constructor
    · rw [bind_of_ok hrun]
      exact trans hafter hnext.after
    · intro b u h
      rw [bind_of_ok hrun] at h
      exact hnext.gives b u h

theorem mapM {Q : β → σ → Prop} {f : α → Computation σ β} {xs : List α}
    (trans : ∀ {a b c}, R a b → R b c → R a c) (stable : ∀ {b s t}, Q b s → R s t → Q b t)
    (self : ∀ {s t}, R s t → R t t) (hs : R s s)
    (step : ∀ x ∈ xs, ∀ t, R s t → Yields R Q (f x) t) :
    Yields R (fun bs t => ∀ b ∈ bs, Q b t) (xs.mapM f) s := by
  induction xs generalizing s with
  | nil => exact of_eq (pure_apply [] s) hs fun bs h b hb => by cases h; cases hb
  | cons x xs ih =>
    rw [List.mapM_cons]
    refine (step x List.mem_cons_self s hs).bind trans fun b t _ hst hb => ?_
    have hrest := ih (self hst) fun y hy u hu => step y (List.mem_cons_of_mem x hy) u (trans hst hu)
    refine hrest.bind trans fun bs u _ htu hbs => of_eq (pure_apply _ u) (self htu) fun cs h => ?_
    cases h
    exact List.forall_mem_cons.mpr ⟨stable hb htu, hbs⟩

end Yields

end Leading

end Computation

end RecordGraph
