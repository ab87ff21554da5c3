import RecordGraph.Proofs.Number.Rounding
import RecordGraph.Proofs.Schema.Acceptance
import RecordGraph.Proofs.Schema.Items

/-!
Narrowing.  A float of 32 bits is narrowed only after its range was checked, so it may leave the range:
what lies inside an end of the range may be narrowed to the same number as the end, and the end may be
narrowed to a number outside.  This is the only way; a range that keeps its own ends keeps everything.
-/

namespace RecordGraph

open BinaryFormat

/-! ### Numbers of 32 bits -/

namespace Binary

variable {x b : Binary .double} {y : Binary .single}

/-- The greatest number of 32 bits. -/
def greatestSingle : Binary .single := .finite false (Nat.pow 2 24 - 1) 104 (by decide)

theorem greatest_single : greatest .single = greatestSingle := rfl

theorem real_single_bounds (h : y.isFinite = true) :
    -greatestSingle.real ≤ y.real ∧ y.real ≤ greatestSingle.real := by
  have hsize : y.size ≤ greatestSingle.real := size_le_greatest h
  exact ⟨(EReal.neg_le_neg_iff.mpr hsize).trans (neg_size_le_real y), (real_le_size y).trans hsize⟩

/-- The extended real number to which a number is narrowed. -/
noncomputable def narrowed (x : Binary .double) : EReal := (x.convert .single).real

theorem real_widened (y : Binary .single) : (y.convert .double).real = y.real :=
  real_convert_within double_proper single_within_double y

@[simp] theorem narrow_widen (y : Binary .single) : (y.convert .double).convert .single = y :=
  convert_convert single_proper double_proper single_within_double y

theorem narrowed_widened (y : Binary .single) : narrowed (y.convert .double) = y.real := by
  rw [narrowed, narrow_widen]

theorem narrowed_mono (hx : x ≠ .nan) (hb : b ≠ .nan) (h : x.real ≤ b.real) :
    narrowed x ≤ narrowed b :=
  real_convert_mono single_proper hx hb h

theorem widened_ne_nan (hy : y ≠ .nan) : y.convert .double ≠ .nan := convert_ne_nan double_proper hy

/-- What lies between a number and what it is narrowed to is narrowed to the same. -/
theorem narrowed_eq_of_between (hx : x ≠ .nan) (hb : b ≠ .nan)
    (h : narrowed x ≤ b.real ∧ b.real ≤ x.real ∨ x.real ≤ b.real ∧ b.real ≤ narrowed x) :
    narrowed b = narrowed x := by
  -- what `x` is narrowed to is narrowed to itself, so both sides of `b` go to the same number
  have hagain : narrowed ((x.convert .single).convert .double) = narrowed x := narrowed_widened _
  have hreal : ((x.convert .single).convert .double).real = narrowed x := real_widened _
  have hnarrow : (x.convert .single).convert .double ≠ .nan :=
    widened_ne_nan (convert_ne_nan single_proper hx)
  rcases h with ⟨hlow, hhigh⟩ | ⟨hlow, hhigh⟩
  · apply le_antisymm (narrowed_mono hb hx hhigh)
    rw [← hagain]
    exact narrowed_mono hnarrow hb (hreal.trans_le hlow)
  · apply le_antisymm _ (narrowed_mono hx hb hlow)
    rw [← hagain]
    exact narrowed_mono hb hnarrow (hhigh.trans_eq hreal.symm)

end Binary

namespace Attribute

open Binary

variable {x b : Binary .double} {y : Binary .single}

/-- A finite number is refused when it is larger than the greatest number of 32 bits. -/
theorem exceedsSingle_iff (hx : x ≠ .nan) : exceedsSingle x = true ↔ x.isFinite = true
    ∧ (greatestSingle.real < x.real ∨ x.real < -greatestSingle.real) := by
  have hgreatest : greatestSingle.convert .double ≠ .nan := widened_ne_nan (by simp [greatestSingle])
  have hnegate : (greatestSingle.convert .double).negate ≠ .nan := negate_ne_nan hgreatest
  simp only [exceedsSingle, greatest_single, Bool.and_eq_true, Bool.or_eq_true, lt_iff, real_widened,
    real_negate]
  simp [hx, hgreatest, hnegate]

/-- What was widened is never too large. -/
theorem exceedsSingle_widened (y : Binary .single) : exceedsSingle (y.convert .double) = false := by
  cases y with
  | nan => rfl
  | infinite s => rfl
  | finite s m e h =>
    obtain ⟨hlow, hhigh⟩ := real_single_bounds (y := .finite s m e h) rfl
    rw [Bool.eq_false_iff, ne_eq, exceedsSingle_iff (widened_ne_nan (by simp)), real_widened]
    rintro ⟨-, hlarge | hlarge⟩
    · exact absurd hhigh (not_le.mpr hlarge)
    · exact absurd hlow (not_le.mpr hlarge)

theorem real_bounds (hx : x ≠ .nan) (hsmall : exceedsSingle x = false) (hfinite : x.isFinite = true) :
    -greatestSingle.real ≤ x.real ∧ x.real ≤ greatestSingle.real := by
  rw [Bool.eq_false_iff, ne_eq, exceedsSingle_iff hx, not_and_or, not_or] at hsmall
  obtain ⟨hhigh, hlow⟩ := hsmall.resolve_left (not_not.mpr hfinite)
  exact ⟨not_lt.mp hlow, not_lt.mp hhigh⟩

/-- Narrowing keeps to the bounds of 32 bits, which are numbers of 32 bits. -/
theorem narrowed_bounds (hx : x ≠ .nan)
    (h : -greatestSingle.real ≤ x.real ∧ x.real ≤ greatestSingle.real) :
    -greatestSingle.real ≤ narrowed x ∧ narrowed x ≤ greatestSingle.real := by
  have hgreatest : greatestSingle ≠ .nan := by simp [greatestSingle]
  constructor
  · rw [← real_negate, ← narrowed_widened]
    apply narrowed_mono (widened_ne_nan (negate_ne_nan hgreatest)) hx
    rw [real_widened, real_negate]
    exact h.1
  · rw [← narrowed_widened]
    apply narrowed_mono hx (widened_ne_nan hgreatest)
    rw [real_widened]
    exact h.2

/-- What lies between an accepted number and what it is narrowed to is accepted. -/
theorem exceedsSingle_of_between (hx : x ≠ .nan) (hb : b ≠ .nan) (hsmall : exceedsSingle x = false)
    (h : narrowed x ≤ b.real ∧ b.real ≤ x.real ∨ x.real ≤ b.real ∧ b.real ≤ narrowed x) :
    exceedsSingle b = false := by
  rw [Bool.eq_false_iff, ne_eq, exceedsSingle_iff hb]
  rintro ⟨hfinite, hlarge⟩
  cases x with
  | nan => exact hx rfl
  | infinite s =>
    -- an infinite number stays infinite, and nothing finite is between it and itself
    have hsame : narrowed (.infinite s) = (Binary.infinite s : Binary .double).real := by
      cases s <;> rfl
    have heq : b.real = (Binary.infinite s : Binary .double).real := by
      rw [hsame] at h
      rcases h with h | h
      · exact le_antisymm h.2 h.1
      · exact le_antisymm h.2 h.1
    cases b with
    | finite t n d hn => cases s <;> simp [real_finite] at heq
    | _ => cases hfinite
  | finite s m e hm =>
    have hbounds := real_bounds hx hsmall rfl
    obtain ⟨hlow, hhigh⟩ := narrowed_bounds hx hbounds
    rcases h with h | h <;> rcases hlarge with hlarge | hlarge
    · exact absurd (h.2.trans hbounds.2) (not_le.mpr hlarge)
    · exact absurd (hlow.trans h.1) (not_le.mpr hlarge)
    · exact absurd (h.2.trans hhigh) (not_le.mpr hlarge)
    · exact absurd (hbounds.1.trans h.1) (not_le.mpr hlarge)

end Attribute

/-! ### Ranges -/

/-- A number of a member is narrowed into the member, or to the same number as one of its ends. -/
theorem RangeItem.narrowed_cases {item : RangeItem (Binary .double)} {x : Binary .double}
    (hsmall : Attribute.exceedsSingle x = false) (h : item.containsFloat x = true) :
    item.SpansReal x.narrowed ∨ ∃ b ∈ item.ends, item.containsFloat b = true
      ∧ Attribute.exceedsSingle b = false ∧ b.narrowed = x.narrowed := by
  obtain ⟨hx, hspans⟩ := containsFloat_iff.mp h
  have hend : ∀ b ∈ item.ends, item.containsFloat b = true →
      x.narrowed ≤ b.real ∧ b.real ≤ x.real ∨ x.real ≤ b.real ∧ b.real ≤ x.narrowed →
      ∃ b ∈ item.ends, item.containsFloat b = true ∧ Attribute.exceedsSingle b = false
        ∧ b.narrowed = x.narrowed := by
    intro b hb hcontains hbetween
    have hnan : b ≠ .nan := (containsFloat_iff.mp hcontains).1
    exact ⟨b, hb, hcontains, Attribute.exceedsSingle_of_between hx hnan hsmall hbetween,
      Binary.narrowed_eq_of_between hx hnan hbetween⟩
  cases item with
  | point v =>
    obtain ⟨hv, heq⟩ := hspans
    refine Or.inr (hend v (by simp [ends]) (containsFloat_iff.mpr ⟨hv, hv, rfl⟩) ?_)
    rw [← heq]
    exact (le_total _ _).imp (fun hle => ⟨hle, le_rfl⟩) fun hle => ⟨le_rfl, hle⟩
  | interval lo hi =>
    obtain ⟨hlo, hhi, hlow, hhigh⟩ := hspans
    by_cases hbelow : x.narrowed < lo.real
    · refine Or.inr (hend lo (by simp [ends]) ?_ (Or.inl ⟨hbelow.le, hlow⟩))
      exact containsFloat_iff.mpr ⟨hlo, hlo, hhi, le_rfl, hlow.trans hhigh⟩
    · by_cases habove : hi.real < x.narrowed
      · refine Or.inr (hend hi (by simp [ends]) ?_ (Or.inr ⟨hhigh, habove.le⟩))
        exact containsFloat_iff.mpr ⟨hhi, hlo, hhi, hlow.trans hhigh, le_rfl⟩
      · exact Or.inl ⟨hlo, hhi, not_lt.mp hbelow, not_lt.mp habove⟩

namespace Range

open Binary Attribute

variable {range : Range} {x : Binary .double}

/-- A range is checked as one of real numbers. -/
theorem Suits.containsFloat_widened_iff (h : range.Suits .float) (y : Binary .single) :
    range.containsFloat (y.convert .double) = true ↔ range.AdmitsReal y := by
  cases range with
  | unbounded => simp [containsFloat, AdmitsReal]
  | floats items =>
    have hnan : y.convert .double ≠ .nan ↔ y ≠ .nan := by
      refine ⟨?_, widened_ne_nan⟩
      rintro h rfl
      exact h rfl
    rw [Range.containsFloat_iff]
    simp only [AdmitsReal, real_widened, hnan]
  | _ => exact h.elim

/-- A range keeps its ends: each end that is itself accepted is in the range after narrowing. -/
def KeepsEnds (range : Range) : Prop :=
  match range with
  | .floats items => ∀ item ∈ items, ∀ b ∈ item.ends, item.containsFloat b = true →
      exceedsSingle b = false → range.containsFloat ((b.convert .single).convert .double) = true
  | _ => True

/-- A range that keeps its ends keeps every number it has. -/
theorem KeepsEnds.containsFloat (h : range.KeepsEnds) (hsmall : exceedsSingle x = false)
    (hx : range.containsFloat x = true) :
    range.containsFloat ((x.convert .single).convert .double) = true := by
  cases range with
  | floats items =>
    have hnan : x ≠ .nan := (containsFloat_iff.mp hx).1
    have hnarrow : (x.convert .single).convert .double ≠ .nan :=
      widened_ne_nan (convert_ne_nan single_proper hnan)
    obtain ⟨item, hitem, hcontains⟩ := List.any_eq_true.mp hx
    rw [containsFloat_iff]
    refine ⟨hnarrow, ?_⟩
    rw [real_widened]
    rcases item.narrowed_cases hsmall hcontains with hspans | ⟨b, hb, hb', hsmall', heq⟩
    · exact ⟨item, hitem, hspans⟩
    · change ∃ item ∈ items, item.SpansReal x.narrowed
      rw [← heq]
      obtain ⟨-, item', hitem', hspans⟩ := containsFloat_iff.mp (h item hitem b hb hb' hsmall')
      rw [real_widened] at hspans
      exact ⟨item', hitem', hspans⟩
  | _ => rfl

theorem keepsEnds_of_containsFloat (h : ∀ x, exceedsSingle x = false → range.containsFloat x = true →
    range.containsFloat ((x.convert .single).convert .double) = true) : range.KeepsEnds := by
  cases range with
  | floats items =>
    intro item hitem b hb hcontains hsmall
    exact h b hsmall (List.any_eq_true.mpr ⟨item, hitem, hcontains⟩)
  | _ => trivial

end Range

/-! ### Coercion -/

/-- A value has a number of 32 bits, alone or in a list. -/
def Value.Has (w : Value) (y : Binary .single) : Prop :=
  w = .float y ∨ ∃ items, w = .list items ∧ Value.float y ∈ items

namespace Attribute

open Binary

variable {a : Attribute} {owner : String} {known : String → Bool} {v w : Value}

/-- A float is narrowed after its range was checked. -/
theorem convert_float (htype : a.type = .float) : a.convert known v = .ok w ↔
    ∃ x, toFloat? ((greatest .single).convert .double) v = some x ∧ exceedsSingle x = false
      ∧ a.range.containsFloat x = true ∧ w = .float (x.convert .single) := by
  unfold convert
  simp only [htype]
  cases hread : toFloat? ((greatest .single).convert .double) v with
  | none => simp
  | some x =>
    dsimp only
    constructor
    · intro h
      split at h
      · cases h
      · rename_i hsmall
        split at h
        · rename_i hcontains
          cases h
          exact ⟨x, rfl, Bool.eq_false_of_not_eq_true hsmall, hcontains, rfl⟩
        · cases h
    · rintro ⟨x', hx', hsmall, hcontains, rfl⟩
      obtain rfl := Option.some.inj hx'
      simp [hsmall, hcontains]

/-- A number of 32 bits is left as it is when it lies in the range. -/
theorem convert_float_self (htype : a.type = .float) (hsuits : a.range.Suits a.type)
    (y : Binary .single) : a.convert known (.float y) = .ok (.float y) ↔ a.range.AdmitsReal y := by
  rw [htype] at hsuits
  rw [convert_float htype, ← hsuits.containsFloat_widened_iff]
  constructor
  · rintro ⟨x, hx, -, hcontains, -⟩
    obtain rfl : y.convert .double = x := Option.some.inj hx
    exact hcontains
  · intro hcontains
    exact ⟨y.convert .double, rfl, exceedsSingle_widened y, hcontains, by rw [narrow_widen]⟩

/-- What a conversion gives lies in the range of an attribute that keeps its ends. -/
theorem admitsReal_of_convert (htype : a.type = .float) (hsuits : a.range.Suits a.type)
    (hkeeps : a.range.KeepsEnds) (h : a.convert known v = .ok w) :
    ∃ y, w = .float y ∧ a.range.AdmitsReal y := by
  rw [htype] at hsuits
  obtain ⟨x, -, hsmall, hcontains, rfl⟩ := (convert_float htype).mp h
  exact ⟨_, rfl, hsuits.containsFloat_widened_iff _ |>.mp (hkeeps.containsFloat hsmall hcontains)⟩

theorem coerce_single_iff {y : Binary .single} (hsingle : a.multivalue = false) :
    a.coerce owner known (.float y) = .ok w ↔ a.convert known (.float y) = .ok w := by
  rw [coerce_eq_ok]
  simp [hsingle, Value.isNull, Value.isList]

theorem coerce_list_iff {items results : List Value} (hmulti : a.multivalue = true) :
    a.coerce owner known (.list items) = .ok (.list results)
      ↔ items.map (a.convert known) = results.map .ok := by
  rw [coerce_eq_ok]
  simp [hmulti]

/-- What coercion gives consists of numbers of 32 bits, if it is not unset. -/
theorem coerce_float (htype : a.type = .float) (h : a.coerce owner known v = .ok w) :
    (a.multivalue = false ∧ w = .null)
    ∨ (a.multivalue = false ∧ ∃ y, w = .float y ∧ a.convert known v = .ok (.float y))
    ∨ (a.multivalue = true ∧ ∃ items results, v = .list items ∧ w = .list results
        ∧ ∀ r ∈ results, ∃ u y, r = .float y ∧ a.convert known u = .ok (.float y)) := by
  have hfloat : ∀ u r, a.convert known u = .ok r → ∃ y, r = .float y := by
    intro u r hr
    obtain ⟨x, -, -, -, rfl⟩ := (convert_float htype).mp hr
    exact ⟨_, rfl⟩
  rcases coerce_eq_ok.mp h with ⟨hsingle, -, rfl⟩ | ⟨hsingle, -, -, hconvert⟩
    | ⟨hmulti, items, results, rfl, rfl, hitems⟩
  · exact Or.inl ⟨hsingle, rfl⟩
  · obtain ⟨y, rfl⟩ := hfloat v w hconvert
    exact Or.inr (Or.inl ⟨hsingle, y, rfl, hconvert⟩)
  · refine Or.inr (Or.inr ⟨hmulti, items, results, rfl, rfl, fun r hr => ?_⟩)
    have hok : (.ok r : Except Rejection Value) ∈ items.map (a.convert known) := by
      rw [hitems]
      exact List.mem_map_of_mem hr
    obtain ⟨u, -, hu⟩ := List.mem_map.mp hok
    obtain ⟨y, rfl⟩ := hfloat u r hu
    exact ⟨u, y, rfl, hu⟩

/-- A coerced value is left as it is when all its numbers lie in the range. -/
theorem coerce_again_iff {owner' : String} {known' : String → Bool} (htype : a.type = .float)
    (hsuits : a.range.Suits a.type) (h : a.coerce owner known v = .ok w) :
    a.coerce owner' known' w = .ok w ↔ ∀ y, w.Has y → a.range.AdmitsReal y := by
  rcases coerce_float htype h with ⟨hsingle, rfl⟩ | ⟨hsingle, y, rfl, -⟩
    | ⟨hmulti, items, results, rfl, rfl, hresults⟩
  · have hnull : a.coerce owner' known' .null = .ok .null := coerce_eq_ok.mpr (Or.inl ⟨hsingle, rfl, rfl⟩)
    simp [hnull, Value.Has]
  · rw [coerce_single_iff hsingle, convert_float_self htype hsuits]
    simp [Value.Has]
  · have hhas : ∀ y, (Value.list results).Has y ↔ Value.float y ∈ results := by simp [Value.Has]
    rw [coerce_list_iff hmulti, List.map_inj_left]
    simp only [hhas]
    constructor
    · intro hself y hy
      exact (convert_float_self htype hsuits y).mp (hself _ hy)
    · intro hadmits r hr
      obtain ⟨u, y, rfl, -⟩ := hresults r hr
      exact (convert_float_self htype hsuits y).mpr (hadmits y hr)

/-- Whatever an attribute that keeps its ends gives lies in its range. -/
theorem admitsReal_of_coerce (htype : a.type = .float) (hsuits : a.range.Suits a.type)
    (hkeeps : a.range.KeepsEnds) (h : a.coerce owner known v = .ok w) {y : Binary .single}
    (hy : w.Has y) : a.range.AdmitsReal y := by
  have hconvert : ∀ u y, a.convert known u = .ok (.float y) → a.range.AdmitsReal y := by
    intro u y hu
    obtain ⟨y', heq, hadmits⟩ := admitsReal_of_convert htype hsuits hkeeps hu
    cases heq
    exact hadmits
  rcases coerce_float htype h with ⟨-, rfl⟩ | ⟨-, y', rfl, hu⟩ | ⟨-, items, results, -, rfl, hresults⟩
  · simp [Value.Has] at hy
  · obtain rfl : y' = y := by simpa [Value.Has] using hy
    exact hconvert v y' hu
  · have hmem : Value.float y ∈ results := by simpa [Value.Has] using hy
    obtain ⟨u, y', heq, hu⟩ := hresults _ hmem
    cases heq
    exact hconvert u y hu

/-- Each accepted number comes out of the coercion of some value. -/
theorem exists_coerce (htype : a.type = .float) {x : Binary .double} (hsmall : exceedsSingle x = false)
    (hx : a.range.containsFloat x = true) (owner : String) (known : String → Bool) :
    ∃ v w, a.coerce owner known v = .ok w ∧ w.Has (x.convert .single) := by
  have hconvert : a.convert known (.double x) = .ok (.float (x.convert .single)) :=
    (convert_float htype).mpr ⟨x, rfl, hsmall, hx, rfl⟩
  cases hmulti : a.multivalue with
  | false =>
    refine ⟨.double x, .float (x.convert .single), coerce_eq_ok.mpr (Or.inr (Or.inl ?_)), Or.inl rfl⟩
    exact ⟨hmulti, rfl, rfl, hconvert⟩
  | true =>
    refine ⟨.list [.double x], .list [.float (x.convert .single)], ?_, Or.inr ⟨_, rfl, by simp⟩⟩
    exact (coerce_list_iff hmulti).mpr (by simp [hconvert])

/-- Coercion for a float attribute of 32 bits keeps to the range, and what it gives is left as it is,
exactly when the range keeps its ends.  A single value that was coerced is left as it is exactly when its
numbers lie in the range. -/
theorem BoundFrom.coerce_narrows_iff {d : AttributeDeclaration} {className : String}
    (hbound : BoundFrom d className a) (htype : a.type = .float) :
    ((∀ owner known v w, a.coerce owner known v = .ok w →
        (∀ y, w.Has y → a.range.AdmitsReal y)
        ∧ ∀ owner' known', a.coerce owner' known' w = .ok w) ↔ a.range.KeepsEnds)
    ∧ ∀ owner known v w, a.coerce owner known v = .ok w → ∀ owner' known',
        (a.coerce owner' known' w = .ok w ↔ ∀ y, w.Has y → a.range.AdmitsReal y) := by
  have hsuits := hbound.suits
  refine ⟨⟨fun hall => ?_, fun hkeeps owner known v w h => ?_⟩,
    fun owner known v w h owner' known' => coerce_again_iff htype hsuits h⟩
  · apply Range.keepsEnds_of_containsFloat
    intro x hsmall hx
    obtain ⟨v, w, h, hy⟩ := exists_coerce htype hsmall hx "" fun _ => false
    rw [htype] at hsuits
    exact (hsuits.containsFloat_widened_iff _).mpr ((hall _ _ v w h).1 _ hy)
  · have hadmits : ∀ y, w.Has y → a.range.AdmitsReal y :=
      fun y hy => admitsReal_of_coerce htype hsuits hkeeps h hy
    exact ⟨hadmits, fun owner' known' => (coerce_again_iff htype hsuits h).mpr hadmits⟩

/-! ### Two ranges -/

/-- An attribute of 32 bits for one number of a range. -/
def ofRange (name source : String) (items : List (RangeItem (Binary .double))) : Attribute :=
  ranged name .float source (.floats items)

/-- Zero and one. -/
def unitItems : List (RangeItem (Binary .double)) :=
  [.interval (.finite false 0 (-1074) (by decide)) (.finite false (Nat.pow 2 52) (-52) (by decide))]

/-- Zero and a tenth, which 32 bits only hold as a greater number. -/
def tenthItems : List (RangeItem (Binary .double)) :=
  [.interval (.finite false 0 (-1074) (by decide)) (.finite false 0x1999999999999a (-56) (by decide))]

theorem compile_unit : Range.compile .float (some "0..1") = .ok (.floats unitItems) := by
  decide +kernel

theorem compile_tenth : Range.compile .float (some "0..0.1") = .ok (.floats tenthItems) := by
  decide +kernel

theorem keepsEnds_unit : (Range.floats unitItems).KeepsEnds := by
  intro item hitem b hb _ _
  obtain rfl := List.mem_singleton.mp hitem
  simp only [RangeItem.ends, List.mem_cons, List.not_mem_nil, or_false] at hb
  rcases hb with rfl | rfl
  · decide +kernel
  · decide +kernel

/-- Numbers up to one stay in their range. -/
theorem BoundFrom.coerce_narrows_unit :
    BoundFrom { name := "weight", type := "float", range := some "0..1" } "Crate"
      (ofRange "weight" "0..1" unitItems)
    ∧ (ofRange "weight" "0..1" unitItems).type = .float
    ∧ ∀ owner known v w, (ofRange "weight" "0..1" unitItems).coerce owner known v = .ok w →
        (∀ y, w.Has y → (Range.floats unitItems).AdmitsReal y)
        ∧ ∀ owner' known', (ofRange "weight" "0..1" unitItems).coerce owner' known' w = .ok w := by
  have hbound := boundFrom_ranged "weight" "Crate" compile_unit
  exact ⟨hbound, rfl, (BoundFrom.coerce_narrows_iff hbound rfl).1.mpr keepsEnds_unit⟩

/-- A tenth is accepted for a range that ends there, and what it is narrowed to is refused. -/
theorem not_coerce_narrows_of_tenth : ¬ ∀ (d : AttributeDeclaration) (className : String) (a : Attribute),
    BoundFrom d className a → a.type = .float → d.range.isSome = true →
      ∀ owner known v w, a.coerce owner known v = .ok w →
        (∀ y, w.Has y → a.range.AdmitsReal y) ∧ a.coerce owner known w = .ok w := by
  intro hall
  let a := ofRange "share" "0..0.1" tenthItems
  let tenth : Binary .double := .finite false 0x1999999999999a (-56) (by decide)
  have hconvert : a.convert (fun _ => false) (.double tenth) = .ok (.float (tenth.convert .single)) :=
    (convert_float rfl).mpr ⟨tenth, rfl, rfl, rfl, rfl⟩
  have hcoerce : a.coerce "Crate" (fun _ => false) (.double tenth) = .ok (.float (tenth.convert .single)) :=
    coerce_eq_ok.mpr (Or.inr (Or.inl ⟨rfl, rfl, rfl, hconvert⟩))
  have hbound := boundFrom_ranged "share" "Crate" compile_tenth
  have hagain := (hall _ _ a hbound rfl rfl _ _ _ _ hcoerce).2
  obtain ⟨x, hx, -, hcontains, -⟩ := (convert_float rfl).mp ((coerce_single_iff rfl).mp hagain)
  obtain rfl : (tenth.convert .single).convert .double = x := Option.some.inj hx
  exact absurd hcontains (by decide)

end Attribute

end RecordGraph
