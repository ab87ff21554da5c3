import RecordGraph.Proofs.Number.Rounding
import RecordGraph.Proofs.Schema.Coercion
import RecordGraph.Proofs.Text.Matching

/-!
What coercion accepts.  A value belongs to an attribute when it has the form of the type, keeps to the
rule of the type and lies in the compiled range.  Conversion only gives values that belong to the
attribute, and these are exactly the values it leaves as they are.
-/

namespace RecordGraph

open RecordGraph.Computation

/-! ### Ranges -/

/-- The integers that a member of a range stands for. -/
def RangeItem.Spans (n : Int) : RangeItem Int → Prop
  | .point v => n = v
  | .interval lo hi => lo ≤ n ∧ n ≤ hi

/-- The real numbers that a member of a range stands for. -/
def RangeItem.SpansReal (r : EReal) : RangeItem (Binary .double) → Prop
  | .point v => v ≠ .nan ∧ r = v.real
  | .interval lo hi => lo ≠ .nan ∧ hi ≠ .nan ∧ lo.real ≤ r ∧ r ≤ hi.real

theorem RangeItem.containsFloat_iff {item : RangeItem (Binary .double)} {x : Binary .double} :
    item.containsFloat x = true ↔ x ≠ .nan ∧ item.SpansReal x.real := by
  cases item with
  | point v => simp [containsFloat, SpansReal, Binary.equal_iff]
  | interval lo hi =>
    simp only [containsFloat, SpansReal, Bool.and_eq_true, Binary.le_iff]
    tauto

namespace Range

variable {range : Range} {type : AttributeType}

/-- The numbers that lie in a range as real numbers. -/
def AdmitsReal {f : BinaryFormat} : Range → Binary f → Prop
  | .unbounded, _ => True
  | .floats items, x => x ≠ .nan ∧ ∃ item ∈ items, item.SpansReal x.real
  | _, _ => False

/-- The values that a range admits.  A range admits only values of the kind it is about. -/
def Admits : Range → Value → Prop
  | .unbounded, _ => True
  | .integers items, .integer _ n _ => ∃ item ∈ items, item.Spans n
  | .floats items, .double x => (floats items).AdmitsReal x
  | .pattern p, .text s => p.Matches s
  | .enumerators items, .text s => s ∈ items
  | _, _ => False

/-- The shape of the ranges of a type.  Only integer types are always bounded. -/
def Suits : Range → AttributeType → Prop
  | .unbounded, .integer _ => False
  | .unbounded, _ => True
  | .integers _, .integer _ => True
  | .floats _, .float => True
  | .floats _, .double => True
  | .pattern _, .text .string => True
  | .enumerators _, .text k => k ≠ .string
  | _, _ => False

theorem default_suits (type : AttributeType) : (default type).Suits type := by
  cases type <;> trivial

theorem compile_suits {source : Option String} (h : compile type source = .ok range) :
    range.Suits type := by
  unfold compile at h
  split at h
  · cases h
    exact default_suits type
  · cases type with
    | bool =>
      cases h
      trivial
    | integer t =>
      obtain ⟨items, -, heq⟩ := except_bind_eq_ok.mp h
      cases heq
      trivial
    | float =>
      obtain ⟨items, -, heq⟩ := except_bind_eq_ok.mp h
      cases heq
      trivial
    | double =>
      obtain ⟨items, -, heq⟩ := except_bind_eq_ok.mp h
      cases heq
      trivial
    | text k =>
      cases k with
      | string =>
        dsimp only at h
        split at h <;> cases h
        trivial
      | _ =>
        cases h
        exact TextKind.noConfusion

theorem containsInt_iff {items : List (RangeItem Int)} {n : Int} :
    (integers items).containsInt n = true ↔ ∃ item ∈ items, item.Spans n := by
  have hitem : ∀ item : RangeItem Int, item.containsInt n = true ↔ item.Spans n := by
    intro item
    cases item with
    | point v => exact beq_iff_eq
    | interval lo hi => simp [RangeItem.containsInt, RangeItem.Spans]
  simp [containsInt, hitem]

/-- A range that suits an integer type admits the integers it contains. -/
theorem Suits.containsInt_iff {t u : IntegerType} {n : Int} {holds : u.Holds n}
    (h : range.Suits (.integer t)) :
    range.containsInt n = true ↔ range.Admits (.integer u n holds) := by
  cases range with
  | integers items => exact Range.containsInt_iff
  | _ => exact h.elim

theorem containsFloat_iff {items : List (RangeItem (Binary .double))} {x : Binary .double} :
    (floats items).containsFloat x = true ↔ (floats items).AdmitsReal x := by
  simp only [containsFloat, List.any_eq_true, RangeItem.containsFloat_iff, AdmitsReal]
  constructor
  · rintro ⟨item, hitem, hx, hspans⟩
    exact ⟨hx, item, hitem, hspans⟩
  · rintro ⟨hx, item, hitem, hspans⟩
    exact ⟨item, hitem, hx, hspans⟩

/-- A range that suits numbers of 64 bits admits those it contains. -/
theorem Suits.containsFloat_iff {x : Binary .double} (h : range.Suits .double) :
    range.containsFloat x = true ↔ range.Admits (.double x) := by
  cases range with
  | unbounded => simp [containsFloat, Admits]
  | floats items => exact Range.containsFloat_iff
  | _ => exact h.elim

theorem Suits.containsText_iff {k : TextKind} {s : String} (h : range.Suits (.text k)) :
    range.containsText s = true ↔ range.Admits (.text s) := by
  cases range with
  | unbounded => simp [containsText, Admits]
  | pattern p => exact Pattern.isMatch_iff
  | enumerators items => simp [containsText, Admits]
  | _ => cases k <;> exact h.elim

theorem Suits.admits_bool {b : Bool} (h : range.Suits .bool) : range.Admits (.bool b) := by
  cases range with
  | unbounded => trivial
  | _ => exact h.elim

end Range

/-! ### Single values -/

/-- The texts of a kind.  What a class is depends on the classes that are known. -/
def TextKind.Accepts (known : String → Bool) : TextKind → String → Prop
  | .date, s => Calendar.isDate s = true
  | .time, s => Calendar.isTime s = true
  | .className, s => known s = true
  | _, _ => True

/-- The values of a type. -/
def AttributeType.Accepts (known : String → Bool) : AttributeType → Value → Prop
  | .bool, .bool _ => True
  | .integer t, .integer u n _ => u = t ∧ t.least ≤ n ∧ n ≤ t.greatest
  | .float, .float _ => True
  | .double, .double _ => True
  | .text k, .text s => k.Accepts known s
  | _, _ => False

theorem AttributeType.Accepts.form {known : String → Bool} {type : AttributeType} {v : Value}
    (h : type.Accepts known v) : type.Form v := by
  cases type <;> cases v <;> first | exact h.1 | exact h | trivial

namespace Attribute

variable {a : Attribute} {owner : String} {known : String → Bool} {v w : Value}

/-- The single values that belong to an attribute. -/
def Holds (a : Attribute) (known : String → Bool) (v : Value) : Prop :=
  a.type.Accepts known v ∧ a.range.Admits v

/-- An integer that lies in the width and in the range is always narrowed. -/
theorem convert_integer {t : IntegerType} (htype : a.type = .integer t)
    (hsuits : a.range.Suits a.type) :
    a.convert known v = .ok w ↔ a.Holds known w ∧
      ∃ n holds, toInteger? t.greatest v = some n ∧ w = .integer t n holds := by
  rw [htype] at hsuits
  unfold convert Holds
  simp only [htype]
  cases hread : toInteger? t.greatest v with
  | none => simp
  | some n =>
    dsimp only
    constructor
    · intro h
      split at h
      · cases h
      · rename_i hbounds
        have holds : t.Holds n := by unfold IntegerType.Holds; omega
        rw [IntegerType.narrow?_of_holds holds] at h
        split at h
        · cases h
        · rename_i hcontains
          cases h
          refine ⟨⟨⟨rfl, holds⟩, ?_⟩, n, holds, rfl, rfl⟩
          exact hsuits.containsInt_iff.mp (by simpa using hcontains)
    · rintro ⟨⟨-, hadmits⟩, m, holds, hm, rfl⟩
      obtain rfl := Option.some.inj hm
      have hcontains := hsuits.containsInt_iff.mpr hadmits
      have hbounds : ¬ (n < t.least ∨ t.greatest < n) := by
        unfold IntegerType.Holds at holds
        omega
      rw [if_neg hbounds, hcontains, IntegerType.narrow?_of_holds holds]
      rfl

theorem convert_double (htype : a.type = .double) (hsuits : a.range.Suits a.type) :
    a.convert known v = .ok w ↔ a.Holds known w ∧
      ∃ x, toFloat? (Binary.greatest .double) v = some x ∧ w = .double x := by
  rw [htype] at hsuits
  unfold convert Holds
  simp only [htype]
  cases hread : toFloat? (Binary.greatest .double) v with
  | none => simp
  | some x =>
    dsimp only
    constructor
    · intro h
      split at h <;> cases h
      exact ⟨⟨trivial, hsuits.containsFloat_iff.mp ‹_›⟩, x, rfl, rfl⟩
    · rintro ⟨⟨-, hadmits⟩, y, hy, rfl⟩
      obtain rfl := Option.some.inj hy
      rw [if_pos (hsuits.containsFloat_iff.mpr hadmits)]

theorem convert_bool (htype : a.type = .bool) (hsuits : a.range.Suits a.type) :
    a.convert known v = .ok w ↔ a.Holds known w ∧
      ∃ b, toBool? v = some b ∧ w = .bool b := by
  rw [htype] at hsuits
  unfold convert Holds
  simp only [htype]
  cases hread : toBool? v with
  | none => simp
  | some b =>
    dsimp only
    constructor
    · intro h
      cases h
      exact ⟨⟨trivial, hsuits.admits_bool⟩, b, rfl, rfl⟩
    · rintro ⟨-, b', hb, rfl⟩
      obtain rfl := Option.some.inj hb
      rfl

theorem convert_text {k : TextKind} (htype : a.type = .text k) (hsuits : a.range.Suits a.type) :
    a.convert known v = .ok w ↔ a.Holds known w ∧ w = v := by
  rw [htype] at hsuits
  unfold convert Holds
  simp only [htype]
  constructor
  · intro h
    split at h
    · rename_i s
      split at h
      · cases h
      split at h
      · cases h
      split at h
      · cases h
      rename_i hdate htime hclass
      split at h <;> cases h
      refine ⟨⟨?_, hsuits.containsText_iff.mp ‹_›⟩, rfl⟩
      cases k <;> simp_all [AttributeType.Accepts, TextKind.Accepts]
    · cases h
  · rintro ⟨⟨haccepts, hadmits⟩, rfl⟩
    cases w with
    | text s =>
      have hcontains := hsuits.containsText_iff.mpr hadmits
      cases k <;> simp_all [AttributeType.Accepts, TextKind.Accepts]
    | _ => exact haccepts.elim

/-- Conversion gives values that belong to the attribute. -/
theorem convert_holds (hfloat : a.type ≠ .float) (hsuits : a.range.Suits a.type)
    (h : a.convert known v = .ok w) : a.Holds known w := by
  cases htype : a.type with
  | bool => exact ((convert_bool htype hsuits).mp h).1
  | integer t => exact ((convert_integer htype hsuits).mp h).1
  | float => exact absurd htype hfloat
  | double => exact ((convert_double htype hsuits).mp h).1
  | text k => exact ((convert_text htype hsuits).mp h).1

/-- The values that conversion leaves as they are are those that belong to the attribute. -/
theorem convert_eq_self_iff (hfloat : a.type ≠ .float) (hsuits : a.range.Suits a.type) :
    a.convert known v = .ok v ↔ a.Holds known v := by
  refine ⟨convert_holds hfloat hsuits, fun h => ?_⟩
  have hform := h.1.form
  cases htype : a.type with
  | bool =>
    rw [htype] at hform
    cases v with
    | bool b => exact (convert_bool htype hsuits).mpr ⟨h, b, rfl, rfl⟩
    | _ => exact hform.elim
  | integer t =>
    rw [htype] at hform
    cases v with
    | integer u n holds =>
      obtain rfl : u = t := hform
      exact (convert_integer htype hsuits).mpr ⟨h, n, holds, rfl, rfl⟩
    | _ => exact hform.elim
  | float => exact absurd htype hfloat
  | double =>
    rw [htype] at hform
    cases v with
    | double x => exact (convert_double htype hsuits).mpr ⟨h, x, rfl, rfl⟩
    | _ => exact hform.elim
  | text k => exact (convert_text htype hsuits).mpr ⟨h, rfl⟩

/-- An integer attribute refuses as unconvertible only what stands for no integer. -/
theorem convert_unconvertible {t : IntegerType} (htype : a.type = .integer t) :
    a.convert known v = .error (.coercion t.tag) ↔ toInteger? t.greatest v = none := by
  unfold convert
  simp only [htype]
  cases toInteger? t.greatest v with
  | none => simp [AttributeType.tag]
  | some n =>
    dsimp only
    split
    · simp
    · rename_i hbounds
      have holds : t.Holds n := by unfold IntegerType.Holds; omega
      rw [IntegerType.narrow?_of_holds holds]
      split <;> simp

/-! ### What is known -/

theorem Holds.mono {known' : String → Bool} (hknown : ∀ c, known c = true → known' c = true)
    (h : a.Holds known v) : a.Holds known' v := by
  refine ⟨?_, h.2⟩
  have haccepts := h.1
  cases htype : a.type with
  | text k =>
    rw [htype] at haccepts
    cases v with
    | text s =>
      cases k with
      | className => exact hknown s haccepts
      | _ => exact haccepts
    | _ => exact haccepts.elim
  | _ =>
    rw [htype] at haccepts
    cases v <;> exact haccepts

/-- Only for references to classes it matters which classes are known. -/
theorem convert_known (hclass : a.type ≠ .text .className) (known known' : String → Bool) :
    a.convert known v = a.convert known' v := by
  unfold convert
  cases htype : a.type with
  | text k =>
    have hk : k ≠ .className := by
      rintro rfl
      exact hclass htype
    simp [hk]
  | _ => rfl

/-! ### Whole values -/

/-- What coercion makes of a value: it unsets the attribute, or it gives values that belong to it, as
many as there were. -/
inductive Coerced (a : Attribute) (known : String → Bool) : Value → Value → Prop
  | unset (hsingle : a.multivalue = false) : Coerced a known .null .null
  | single {v w : Value} (hsingle : a.multivalue = false) (hw : a.Holds known w) :
      Coerced a known v w
  | several {items results : List Value} (hmulti : a.multivalue = true)
      (hlength : results.length = items.length) (hresults : ∀ w ∈ results, a.Holds known w) :
      Coerced a known (.list items) (.list results)

theorem mapM_coerceOne_eq_ok {items results : List Value} :
    items.mapM (a.coerceOne owner known) = .ok results
      ↔ items.map (a.convert known) = results.map .ok := by
  rw [except_mapM_eq_ok]
  induction items generalizing results with
  | nil => cases results <;> simp
  | cons v items ih =>
    cases results with
    | nil => simp
    | cons w results => simp [coerceOne_eq_ok, ih]

/-- The three ways to coerce a value.  The owner only matters for what is refused. -/
theorem coerce_eq_ok :
    a.coerce owner known v = .ok w ↔
      (a.multivalue = false ∧ v = .null ∧ w = .null)
      ∨ (a.multivalue = false ∧ v.isNull = false ∧ v.isList = false ∧ a.convert known v = .ok w)
      ∨ (a.multivalue = true ∧ ∃ items results, v = .list items ∧ w = .list results
          ∧ items.map (a.convert known) = results.map .ok) := by
  unfold coerce
  cases hmulti : a.multivalue with
  | false =>
    cases v with
    | null => simp [Value.isNull, @eq_comm _ w]
    | list items => simp [Value.isNull, Value.isList]
    | _ => simp [Value.isNull, Value.isList, coerceOne_eq_ok]
  | true =>
    cases v with
    | list items =>
      simp only [Value.isNull, Value.isList, Bool.not_true, Bool.and_false, Bool.false_eq_true,
        if_false, bne_self_eq_false, except_bind_eq_ok, mapM_coerceOne_eq_ok]
      simp [pure, Except.pure, and_comm, @eq_comm _ w]
    | _ => simp [Value.isNull, Value.isList]

theorem map_convert_holds {items results : List Value} (hfloat : a.type ≠ .float)
    (hsuits : a.range.Suits a.type) (h : items.map (a.convert known) = results.map .ok) :
    ∀ w ∈ results, a.Holds known w := by
  intro w hw
  have hmem : (.ok w : Except Rejection Value) ∈ items.map (a.convert known) := by
    rw [h]
    exact List.mem_map_of_mem hw
  obtain ⟨v, -, hconvert⟩ := List.mem_map.mp hmem
  exact convert_holds hfloat hsuits hconvert

theorem coerce_coerced (hfloat : a.type ≠ .float) (hsuits : a.range.Suits a.type)
    (h : a.coerce owner known v = .ok w) : a.Coerced known v w := by
  rcases coerce_eq_ok.mp h with ⟨hsingle, rfl, rfl⟩ | ⟨hsingle, -, -, hconvert⟩
    | ⟨hmulti, items, results, rfl, rfl, hitems⟩
  · exact .unset hsingle
  · exact .single hsingle (convert_holds hfloat hsuits hconvert)
  · refine .several hmulti ?_ (map_convert_holds hfloat hsuits hitems)
    simpa using (congrArg List.length hitems).symm

/-- What coercion gives is left as it is when it is coerced once more, for whatever owner. -/
theorem Coerced.coerce_eq (hfloat : a.type ≠ .float) (hsuits : a.range.Suits a.type)
    (h : a.Coerced known v w) : a.coerce owner known w = .ok w := by
  apply coerce_eq_ok.mpr
  cases h with
  | unset hsingle => exact Or.inl ⟨hsingle, rfl, rfl⟩
  | single hsingle hw =>
    have hform := hw.1.form
    refine Or.inr (Or.inl ⟨hsingle, ?_, ?_, (convert_eq_self_iff hfloat hsuits).mpr hw⟩)
    · cases w with
      | null => exact absurd hform (form_not_null _)
      | _ => rfl
    · cases w with
      | list items => exact absurd hform (form_not_list _)
      | _ => rfl
  | several hmulti hlength hresults =>
    refine Or.inr (Or.inr ⟨hmulti, _, _, rfl, rfl, List.map_congr_left fun w hw => ?_⟩)
    exact (convert_eq_self_iff hfloat hsuits).mpr (hresults w hw)

theorem Coerced.mono {known' : String → Bool} (hknown : ∀ c, known c = true → known' c = true)
    (h : a.Coerced known v w) : a.Coerced known' v w := by
  cases h with
  | unset hsingle => exact .unset hsingle
  | single hsingle hw => exact .single hsingle (hw.mono hknown)
  | several hmulti hlength hresults =>
    exact .several hmulti hlength fun w hw => (hresults w hw).mono hknown

/-- A value that coercion leaves as it is stays so when more classes are known, for whatever owner. -/
theorem coerce_self_mono {owner' : String} {known' : String → Bool} (hfloat : a.type ≠ .float)
    (hsuits : a.range.Suits a.type) (hknown : ∀ c, known c = true → known' c = true)
    (h : a.coerce owner known v = .ok v) : a.coerce owner' known' v = .ok v :=
  ((coerce_coerced hfloat hsuits h).mono hknown).coerce_eq hfloat hsuits

/-- Only for references to classes it matters which classes are known. -/
theorem coerce_known (hclass : a.type ≠ .text .className) (known known' : String → Bool)
    (h : a.coerce owner known v = .ok w) : a.coerce owner known' v = .ok w := by
  have hconvert : a.convert known = a.convert known' := funext fun _ => convert_known hclass ..
  rw [coerce_eq_ok] at h ⊢
  rwa [hconvert] at h

/-! ### Bound attributes -/

theorem BoundFrom.suits {d : AttributeDeclaration} {className : String}
    (h : BoundFrom d className a) : a.range.Suits a.type := Range.compile_suits h.parts.1

/-- The initial value is left as it is by coercion that takes all classes to be known. -/
theorem BoundFrom.coerce_initial {d : AttributeDeclaration} {className : String}
    (h : BoundFrom d className a) (hfloat : a.type ≠ .float) (hv : a.initial? = some v) :
    a.coerce owner (fun _ => true) v = .ok v := by
  obtain ⟨raw, -, hcoerce⟩ := h.parts.2 v hv
  exact (coerce_coerced hfloat h.suits hcoerce).coerce_eq hfloat h.suits

/-- Coercion for a bound attribute only gives what belongs to it, and leaves that as it is.  An integer
that passes the checks of the width and of the range is never refused after them. -/
theorem BoundFrom.coerce_sound {d : AttributeDeclaration} {className : String}
    (hbound : BoundFrom d className a) (hfloat : a.type ≠ .float) :
    Range.compile a.type d.range = .ok a.range ∧
    ∀ owner known v,
      (∀ w, a.coerce owner known v = .ok w →
        a.Coerced known v w ∧ ∀ owner', a.coerce owner' known w = .ok w)
      ∧ ∀ t, a.type = .integer t →
        (a.convert known v = .error (.coercion t.tag) ↔ toInteger? t.greatest v = none) := by
  have hsuits := hbound.suits
  refine ⟨hbound.parts.1, fun owner known v => ⟨fun w hw => ?_, fun t => convert_unconvertible⟩⟩
  have hcoerced := coerce_coerced hfloat hsuits hw
  exact ⟨hcoerced, fun owner' => hcoerced.coerce_eq hfloat hsuits⟩

/-! ### Three ranges -/

/-- An attribute for one value of a type, with a range. -/
def ranged (name : String) (type : AttributeType) (source : String) (range : Range) : Attribute :=
  { name, type, multivalue := false, notNull := false, rangeSource := some source
    initialSource := none, description := "", binding := some { range } }

theorem boundFrom_ranged {type : AttributeType} {source : String} {range : Range}
    (name className : String) (h : Range.compile type (some source) = .ok range) :
    BoundFrom { name, type := type.tag, range := some source } className
      (ranged name type source range) := by
  refine ⟨{ ranged name type source range with binding := none }, [], ?_, ?_⟩
  · simp only [ofDeclaration, AttributeType.ofTag?_tag]
    rfl
  · simp only [bind, ranged, h]
    rfl

/-- The levels of a shelf: small numbers, or twenty. -/
def level : Attribute :=
  ranged "level" (.integer .u8) "1..10, 0x14" (.integers [.interval 1 10, .point 20])

/-- A letter and digits after it. -/
def codePattern : Pattern where
  source := "^(?:[A-C][0-9]+)$"
  node := .seq (.look .textStart) (.seq
    (.seq (.one (.range 65 67)) (.seq (.repeated (.one (.range 48 57)) 1 none) .empty))
    (.seq (.look .textEnd) .empty))

def code : Attribute := ranged "code" (.text .string) "[A-C][0-9]+" (.pattern codePattern)

def quarter : Binary .double := .finite false (Nat.pow 2 52) (-54) (by decide)

def threeQuarters : Binary .double := .finite false (3 * Nat.pow 2 51) (-53) (by decide)

def fiveEighths : Binary .double := .finite false (5 * Nat.pow 2 50) (-53) (by decide)

def load : Attribute :=
  ranged "load" .double "0.25..0.75" (.floats [.interval quarter threeQuarters])

theorem compile_levels : Range.compile (.integer .u8) (some "1..10, 0x14") = .ok level.range :=
  rfl

theorem compile_codes : Range.compile (.text .string) (some "[A-C][0-9]+") = .ok code.range :=
  rfl

theorem compile_loads : Range.compile .double (some "0.25..0.75") = .ok load.range :=
  rfl

/-- A number in a range of integers, a text that a pattern matches and a number between real numbers. -/
theorem BoundFrom.coerce_sound_shelf :
    (BoundFrom { name := "level", type := "u8", range := some "1..10, 0x14" } "Shelf" level
      ∧ level.coerce "3@Shelf" (fun _ => false) (.text "0x14") = .ok (.integer .u8 20 (by decide))
      ∧ level.Coerced (fun _ => false) (.text "0x14") (.integer .u8 20 (by decide))
      ∧ level.coerce "Shelf" (fun _ => false) (.integer .u8 20 (by decide))
          = .ok (.integer .u8 20 (by decide)))
    ∧ (BoundFrom { name := "code", type := "string", range := some "[A-C][0-9]+" } "Shelf" code
      ∧ code.coerce "3@Shelf" (fun _ => false) (.text "B12") = .ok (.text "B12")
      ∧ codePattern.Matches "B12")
    ∧ BoundFrom { name := "load", type := "double", range := some "0.25..0.75" } "Shelf" load
      ∧ load.coerce "3@Shelf" (fun _ => false) (.text "0.625") = .ok (.double fiveEighths)
      ∧ quarter.real ≤ fiveEighths.real ∧ fiveEighths.real ≤ threeQuarters.real
      ∧ load.coerce "Shelf" (fun _ => false) (.double fiveEighths) = .ok (.double fiveEighths) := by
  have hlevel := boundFrom_ranged "level" "Shelf" compile_levels
  have hcode := boundFrom_ranged "code" "Shelf" compile_codes
  have hload := boundFrom_ranged "load" "Shelf" compile_loads
  have htwenty : level.coerce "3@Shelf" (fun _ => false) (.text "0x14")
      = .ok (.integer .u8 20 (by decide)) := rfl
  have htext : code.coerce "3@Shelf" (fun _ => false) (.text "B12") = .ok (.text "B12") := rfl
  have hbetween : load.coerce "3@Shelf" (fun _ => false) (.text "0.625") = .ok (.double fiveEighths) :=
    rfl
  obtain ⟨hlevel', hagain⟩ :=
    ((BoundFrom.coerce_sound hlevel AttributeType.noConfusion).2 _ _ _).1 _ htwenty
  obtain ⟨hcode', -⟩ := ((BoundFrom.coerce_sound hcode AttributeType.noConfusion).2 _ _ _).1 _ htext
  obtain ⟨hload', hagain'⟩ :=
    ((BoundFrom.coerce_sound hload AttributeType.noConfusion).2 _ _ _).1 _ hbetween
  have hmatches : codePattern.Matches "B12" := by
    cases hcode' with
    | single _ hholds => exact hholds.2
  have hspans : quarter.real ≤ fiveEighths.real ∧ fiveEighths.real ≤ threeQuarters.real := by
    cases hload' with
    | single _ hholds =>
      obtain ⟨-, item, hitem, hspans⟩ := hholds.2
      obtain rfl := List.mem_singleton.mp hitem
      exact hspans.2.2
  exact ⟨⟨hlevel, htwenty, hlevel', hagain _⟩, ⟨hcode, htext, hmatches⟩,
    hload, hbetween, hspans.1, hspans.2, hagain' _⟩

end Attribute

/-! ### Loaded schemas -/

namespace ClassSchema

variable {s : ClassSchema} {name : String} {a : Attribute}

/-- A schema that was loaded from some hierarchy. -/
def Loaded (s : ClassSchema) : Prop := ∃ h c, LoadedFrom h c s

theorem Loaded.suits (hs : s.Loaded) (ha : s.attribute? name = some a) : a.range.Suits a.type := by
  obtain ⟨h, c, hs⟩ := hs
  obtain ⟨d, hbound⟩ := hs.boundFrom ha
  exact hbound.suits

theorem Loaded.initialSettled (hs : s.Loaded) (ha : s.attribute? name = some a) :
    a.InitialSettled := by
  obtain ⟨h, c, hs⟩ := hs
  exact hs.initialSettled ha

/-- The initial value of an attribute belongs to it, but for references to classes. -/
theorem Loaded.coerce_initial {owner : String} {known : String → Bool} {v : Value} (hs : s.Loaded)
    (ha : s.attribute? name = some a) (hfloat : a.type ≠ .float)
    (hclass : a.type ≠ .text .className) (hv : a.initial? = some v) :
    a.coerce owner known v = .ok v := by
  obtain ⟨h, c, hs⟩ := hs
  obtain ⟨d, hbound⟩ := hs.boundFrom ha
  exact Attribute.coerce_known hclass _ known (hbound.coerce_initial hfloat hv)

end ClassSchema

end RecordGraph
