import RecordGraph.Proofs.Computation
import RecordGraph.Proofs.Number.Decimal
import RecordGraph.Proofs.Text.RunTable
import RecordGraph.Schema.Range

/-!
Items of numeric ranges.  The literal of one number is an item of its own, but for one kind: where an
exponent has a minus and nothing but digits stands before it, these digits and the letter of the
exponent look like a hexadecimal bound, and the literal is taken for an interval.
-/

namespace RecordGraph

open Text RecordGraph.Computation

/-- The numbers that an item names. -/
def RangeItem.ends {α : Type} : RangeItem α → List α
  | .point v => [v]
  | .interval lo hi => [lo, hi]

namespace Range

open Literal

variable {α : Type} {cs lo hi : List Char} {c : Char} {s : String}

/-! ### The text of a range -/

theorem trimmed_isEmpty (s : String) : (trimmed s).isEmpty = (trim s.toList).isEmpty := by
  rw [trimmed, Bool.eq_iff_iff, String.isEmpty_iff, List.isEmpty_iff, ← String.toList_inj,
    String.toList_ofList]
  rfl

theorem source_of_blank (h : trim s.toList = []) :
    ((some s).map trimmed).filter (fun s => !s.isEmpty) = none := by
  rw [Option.map_some, Option.filter_some, trimmed_isEmpty, h]
  rfl

theorem source_of_not_blank (h : trim s.toList ≠ []) :
    ((some s).map trimmed).filter (fun s => !s.isEmpty) = some (trimmed s) := by
  rw [Option.map_some, Option.filter_some, trimmed_isEmpty, List.isEmpty_eq_false_iff.mpr h]
  rfl

theorem compile_of_blank {type : AttributeType} (h : trim s.toList = []) :
    compile type (some s) = .ok (default type) := by
  rw [compile, source_of_blank h]

theorem readItems_trimmed (read : String → Except Error α) (s : String) :
    readItems read (trimmed s) = readItems read s := by
  rw [readItems, commaItems_trimmed, readItems]

theorem compile_integer {t : IntegerType} (h : trim s.toList ≠ []) :
    compile (.integer t) (some s)
      = .integers <$> readItems (readBound (.integer t) fun s => integer? s t.greatest) s := by
  simp only [compile, source_of_not_blank h, readItems_trimmed, map_eq_pure_bind]

theorem compile_float {type : AttributeType} {greatest : Binary .double}
    (htype : type.greatestFloat? = some greatest) (h : trim s.toList ≠ []) :
    compile type (some s)
      = .floats <$> readItems (readBound type fun s => float? s greatest) s := by
  cases type with
  | float | double =>
    simp only [compile, source_of_not_blank h, htype, Option.getD_some, readItems_trimmed,
      map_eq_pure_bind]
  | _ => simp [AttributeType.greatestFloat?] at htype

theorem compile_text {k : TextKind} (hk : k ≠ .string) (h : trim s.toList ≠ []) :
    compile (.text k) (some s) = .ok (.enumerators (commaItems s)) := by
  rw [compile, source_of_not_blank h]
  cases k with
  | string => exact absurd rfl hk
  | _ => simp only [commaItems_trimmed]

/-- A text without a comma is one item. -/
theorem readItems_of_not_mem {read : String → Except Error α} (h : ',' ∉ trim s.toList) :
    readItems read s = (fun item => [item]) <$> readItem read (trim s.toList) := by
  have hcomma : ',' ∉ (trimmed s).toList := by rwa [trimmed, String.toList_ofList]
  rw [← readItems_trimmed, readItems, commaItems_of_not_mem hcomma, trimmed, trimmed,
    String.toList_ofList, trim_trim, List.mapM_cons, List.mapM_nil, String.toList_ofList]
  cases readItem read (trim s.toList) <;> rfl

theorem readBound_of_some {type : AttributeType} {read : String → Option α} {v : α}
    (h : read s = some v) : readBound type read s = .ok v := by
  rw [readBound, h]

/-- What a bound is refused with. -/
def boundError (type : AttributeType) (bound : List Char) : Error :=
  .invalidSchema ("range bound `" ++ String.ofList bound ++ "` is not a valid " ++ type.tag ++ " value")

theorem readBound_of_none {type : AttributeType} {read : String → Option α}
    (h : read (String.ofList cs) = none) :
    readBound type read (String.ofList cs) = .error (boundError type cs) := by
  rw [readBound, h]
  rfl

/-- A text that nothing divides is the point of its number. -/
theorem readItems_point (type : AttributeType) (read : String → Option α) {v : α}
    (hcomma : ',' ∉ trim s.toList) (hdots : cutAt? ['.', '.'] (trim s.toList) = none)
    (hhyphen : hyphenated? (trim s.toList) = none)
    (hread : read (String.ofList (trim s.toList)) = some v) :
    readItems (readBound type read) s = .ok [.point v] := by
  rw [readItems_of_not_mem hcomma]
  simp only [readItem, hdots, hhyphen, readBound_of_some hread]
  rfl

/-- The first bound of an interval is read first. -/
theorem readItems_hyphenated (type : AttributeType) (read : String → Option α)
    (hcomma : ',' ∉ trim s.toList) (hdots : cutAt? ['.', '.'] (trim s.toList) = none)
    (hhyphen : hyphenated? (trim s.toList) = some (lo, hi))
    (hread : read (String.ofList lo) = none) :
    readItems (readBound type read) s = .error (boundError type lo) := by
  rw [readItems_of_not_mem hcomma]
  simp only [readItem, hdots, hhyphen, readBound_of_none hread]
  rfl

/-! ### Bounds and hyphens -/

/-- A digit of a bound: a hexadecimal one, or a decimal one of some script. -/
def isBoundDigit (c : Char) : Bool := isDecimalDigit c || (hexDigit? c).isSome

theorem isBoundDigit_of_isDigit (h : c.isDigit = true) : isBoundDigit c = true := by
  have hsome : hexDigit? c = some (c.toNat - '0'.toNat) := if_pos (between_of_isDigit h)
  simp [isBoundDigit, hsome]

theorem not_isBoundDigit_mark (hc : c = '+' ∨ c = '.') : isBoundDigit c = false := by
  rcases hc with rfl | rfl
  · have hdigit : isDecimalDigit '+' = false := isDecimalDigit_mark (by simp)
    rw [isBoundDigit, hdigit]
    rfl
  · have hdigit : isDecimalDigit '.' = false := isDecimalDigit_mark (by simp)
    rw [isBoundDigit, hdigit]
    rfl

/-- What may follow the digits of a bound. -/
def isBoundEnd : List Char → Bool
  | [] => true
  | '.' :: part => !part.isEmpty && part.all isDecimalDigit
  | _ => false

theorem isBoundBody_of_span {whole rest : List Char} (hspan : cs.span isBoundDigit = (whole, rest)) :
    isBoundBody cs = (!whole.isEmpty && isBoundEnd rest) := by
  unfold isBoundDigit at hspan
  simp only [isBoundBody, hspan]
  rfl

/-- Digits alone are the body of a bound. -/
theorem isBoundBody_of_digits (hsome : cs ≠ []) (h : ∀ c ∈ cs, isBoundDigit c = true) :
    isBoundBody cs = true := by
  have hspan := span_append cs [] h (by simp)
  rw [List.append_nil] at hspan
  simp [isBoundBody_of_span hspan, isBoundEnd, hsome]

/-- After a point only decimal digits belong to a bound. -/
theorem isBoundBody_point {whole part : List Char} (hwhole : ∀ c ∈ whole, isBoundDigit c = true)
    (hc : c ∈ part) (hnot : isDecimalDigit c = false) : isBoundBody (whole ++ '.' :: part) = false := by
  have hpoint : ∀ c, ('.' :: part).head? = some c → isBoundDigit c = false := by
    rintro c ⟨⟩
    exact not_isBoundDigit_mark (Or.inr rfl)
  have hpart : part.all isDecimalDigit = false := by
    rw [List.all_eq_false]
    exact ⟨c, hc, by simp [hnot]⟩
  simp [isBoundBody_of_span (span_append whole _ hwhole hpoint), isBoundEnd, hpart]

theorem isBoundBody_plus (cs : List Char) : isBoundBody ('+' :: cs) = false := by
  have hplus : ∀ c, ('+' :: cs).head? = some c → isBoundDigit c = false := by
    rintro c ⟨⟩
    exact not_isBoundDigit_mark (Or.inl rfl)
  have hbody := isBoundBody_of_span (span_append [] ('+' :: cs) (by simp) hplus)
  simpa only [List.nil_append, List.isEmpty_nil, Bool.not_true, Bool.false_and] using hbody

theorem isBound_of_not_mem (h : 'x' ∉ cs) : isBound cs = isBoundBody cs := by
  unfold isBound
  split
  · simp at h
  · simp at h
  · rfl

theorem takeMinus_of_head (h : cs.head? ≠ some '-') : takeMinus cs = ([], cs) := by
  unfold takeMinus
  split
  · exact absurd rfl h
  · rfl

theorem takeMinus_of_not_mem (h : '-' ∉ cs) : takeMinus cs = ([], cs) :=
  takeMinus_of_head fun hhead => h (List.mem_of_head? hhead)

/-- Without a minus behind its sign a text is no interval. -/
theorem hyphenated?_of_not_mem {sign : List Char} {negative : Bool} (hsign : Sign sign negative)
    (h : '-' ∉ cs) : hyphenated? (sign ++ cs) = none := by
  have htake : ∃ minus rest, takeMinus (sign ++ cs) = (minus, rest) ∧ '-' ∉ rest := by
    cases hsign with
    | none => exact ⟨_, _, takeMinus_of_not_mem h, h⟩
    | plus => exact ⟨_, _, rfl, by simpa using h⟩
    | minus => exact ⟨_, _, rfl, h⟩
  obtain ⟨minus, rest, htake, hrest⟩ := htake
  simp only [hyphenated?, htake, cutAt?_of_not_mem hrest]

/-! ### Divided literals -/

/-- A literal whose exponent has a minus, with nothing but digits and perhaps a minus in front of the
exponent, and the two parts on the sides of the minus. -/
inductive Divided : List Char → List Char → List Char → Prop
  | exponent {minus whole digits : List Char} {mark : Char} (hminus : minus = [] ∨ minus = ['-'])
      (hwhole : AreDigits whole) (hmark : mark = 'e' ∨ mark = 'E') (hsome : digits ≠ [])
      (hdigits : AreDigits digits) :
      Divided (minus ++ (whole ++ [mark] ++ '-' :: digits)) (minus ++ (whole ++ [mark])) digits

theorem isBound_of_digits (hsome : cs ≠ []) (h : ∀ c ∈ cs, c.isDigit = true ∨ c = 'e' ∨ c = 'E') :
    isBound cs = true := by
  have hx : 'x' ∉ cs := by
    intro hmem
    rcases h 'x' hmem with h | h | h <;> simp at h
  rw [isBound_of_not_mem hx]
  refine isBoundBody_of_digits hsome fun c hc => ?_
  rcases h c hc with h | rfl | rfl
  · exact isBoundDigit_of_isDigit h
  · simp [isBoundDigit, hexDigit?]
  · simp [isBoundDigit, hexDigit?]

/-- A text is divided at the first minus behind its first character, if it is divided at all. -/
theorem hyphenated?_append {minus : List Char} (hminus : minus = [] ∨ minus = ['-']) (hsome : lo ≠ [])
    (hlo : '-' ∉ lo) (hi : List Char) : hyphenated? (minus ++ (lo ++ '-' :: hi))
      = if isBound lo && isBound (takeMinus hi).2 then some (minus ++ lo, hi) else none := by
  have htake : takeMinus (minus ++ (lo ++ '-' :: hi)) = (minus, lo ++ '-' :: hi) := by
    rcases hminus with rfl | rfl
    · apply takeMinus_of_head
      intro hhead
      cases lo with
      | nil => exact hsome rfl
      | cons c lo => exact hlo (List.mem_of_head? hhead)
    · rfl
  have hcut : cutAt? ['-'] (lo ++ ['-'] ++ hi) = some (lo, hi) := cutAt?_append hlo
  rw [List.append_assoc, List.singleton_append] at hcut
  simp only [hyphenated?, htake, hcut]

/-- A plus in front keeps a literal from being divided. -/
theorem Divided.head?_ne_plus (h : Divided cs lo hi) : cs.head? ≠ some '+' := by
  obtain ⟨hminus, hwhole, hmark, hsome, hdigits⟩ := h
  rename_i minus whole mark
  rcases hminus with rfl | rfl
  · cases whole with
    | nil =>
      rintro ⟨⟩
      simp at hmark
    | cons d whole =>
      rintro ⟨⟩
      exact absurd (hwhole '+' List.mem_cons_self) (by decide)
  · simp

/-- A divided literal is taken for an interval. -/
theorem Divided.hyphenated?_eq (h : Divided cs lo hi) : hyphenated? cs = some (lo, hi) := by
  obtain ⟨hminus, hwhole, hmark, hsome, hdigits⟩ := h
  rename_i minus whole mark
  have hlo : '-' ∉ whole ++ [mark] := by
    have hdigit : '-' ∉ whole := hwhole.not_mem rfl
    rcases hmark with rfl | rfl <;> simpa
  have hboundLo : isBound (whole ++ [mark]) = true := by
    refine isBound_of_digits (by simp) fun c hc => ?_
    rcases List.mem_append.mp hc with hc | hc
    · exact Or.inl (hwhole c hc)
    · rw [List.mem_singleton.mp hc]
      exact Or.inr hmark
  have hboundHi : isBound (takeMinus hi).2 = true := by
    rw [takeMinus_of_not_mem (hdigits.not_mem rfl)]
    exact isBound_of_digits hsome fun c hc => Or.inl (hdigits c hc)
  rw [hyphenated?_append hminus (by simp) hlo hi, hboundLo, hboundHi]
  rfl

/-- In front of the minus of an exponent, only digits make a bound. -/
theorem fraction_of_isBound {whole fraction : List Char} {mark : Char} (hwhole : AreDigits whole)
    (hfraction : Fraction fraction) (hmark : mark = 'e' ∨ mark = 'E')
    (hx : 'x' ∉ whole ++ fraction ++ [mark]) (hbound : isBound (whole ++ fraction ++ [mark]) = true) :
    fraction = [] := by
  cases hfraction with
  | none => rfl
  | point hdigits =>
    rename_i digits
    have hnot : isDecimalDigit mark = false := by
      apply isDecimalDigit_mark
      rcases hmark with rfl | rfl <;> simp
    have hdigit : ∀ c ∈ whole, isBoundDigit c = true := fun c hc => isBoundDigit_of_isDigit (hwhole c hc)
    have hpoint : isBoundBody (whole ++ '.' :: (digits ++ [mark])) = false :=
      isBoundBody_point hdigit (by simp) hnot
    rw [isBound_of_not_mem hx, List.append_assoc, List.cons_append, hpoint] at hbound
    cases hbound

/-- The finite literals that are taken for an interval are the divided ones. -/
theorem divided_of_hyphenated? {sign whole fraction exponent : List Char} {negative : Bool}
    (hsign : Sign sign negative) (hdecimal : IsDecimal whole fraction exponent)
    (h : hyphenated? (sign ++ (whole ++ fraction ++ exponent)) = some (lo, hi)) :
    Divided (sign ++ (whole ++ fraction ++ exponent)) lo hi := by
  obtain ⟨hwhole, hfraction, hexponent⟩ := hdecimal
  have hother : ∀ c ∈ ['-', 'x'], c ∉ whole ++ fraction := by
    intro c hc hmem
    have hnot : ∀ c ∈ ['-', 'x'], c.isDigit = false ∧ c ≠ '.' := by simp
    rcases List.mem_append.mp hmem with hmem | hmem
    · exact hwhole.not_mem (hnot c hc).1 hmem
    · exact hfraction.not_mem (hnot c hc).1 (hnot c hc).2 hmem
  have hminus : '-' ∉ whole ++ fraction := hother '-' (by simp)
  -- Only an exponent can have a minus, and only in front of its digits.
  cases hexponent with
  | none =>
    rw [List.append_nil, hyphenated?_of_not_mem hsign hminus] at h
    cases h
  | power hmark hsign' hsome hdigits =>
    rename_i mark sign' digits negative'
    have hmark' : ∀ c ∈ ['-', 'x'], c ≠ mark := by
      rcases hmark with rfl | rfl <;> simp
    have hdigits' : '-' ∉ digits := hdigits.not_mem rfl
    have hfront : ∀ c ∈ ['-', 'x'], c ∉ whole ++ fraction ++ [mark] := by
      intro c hc hmem
      rcases List.mem_append.mp hmem with hmem | hmem
      · exact hother c hc hmem
      · exact hmark' c hc (List.mem_singleton.mp hmem)
    cases hsign' with
    | none | plus =>
      rw [hyphenated?_of_not_mem hsign (by simp_all)] at h
      cases h
    | minus =>
      have hcs : whole ++ fraction ++ mark :: (['-'] ++ digits)
          = whole ++ fraction ++ [mark] ++ '-' :: digits := by simp
      have hsigns : sign = ['+'] ∨ sign = [] ∨ sign = ['-'] := by cases hsign <;> simp
      rw [hcs] at h ⊢
      rcases hsigns with rfl | hsigns
      · have hplus : isBound ('+' :: (whole ++ fraction ++ [mark])) = false := by
          rw [isBound_of_not_mem (by simpa using hfront 'x' (by simp)), isBoundBody_plus]
        have hhyphen := hyphenated?_append (Or.inl rfl)
          (List.cons_ne_nil '+' (whole ++ fraction ++ [mark])) (by simpa using hfront '-' (by simp))
          digits
        rw [hplus] at hhyphen
        cases hhyphen.symm.trans h
      · rw [hyphenated?_append hsigns (by simp) (hfront '-' (by simp))] at h
        split at h
        · rename_i hbounds
          obtain ⟨hbound, -⟩ := Bool.and_eq_true_iff.mp hbounds
          obtain rfl := fraction_of_isBound hwhole hfraction hmark (hfront 'x' (by simp)) hbound
          cases h
          rw [List.append_nil]
          exact .exponent hsigns hwhole hmark hsome hdigits
        · cases h

/-! ### Literals as items -/

/-- At most one point is not enough for two bounds. -/
theorem cutAt?_dots (h : cs.count '.' ≤ 1) : cutAt? ['.', '.'] cs = none := by
  cases hcut : cutAt? ['.', '.'] cs with
  | none => rfl
  | some parts =>
    rw [eq_of_cutAt? hcut, List.count_append, List.count_append] at h
    simp at h
    omega

/-- What stands in front of the minus of an exponent is no number. -/
theorem Divided.float?_eq_none {max : Binary .double} (h : Divided cs lo hi) :
    float? (String.ofList lo) max = none := by
  obtain ⟨hminus, hwhole, hmark, hsome, hdigits⟩ := h
  rename_i minus whole mark
  have hsign : ∃ negative, Sign minus negative := by
    rcases hminus with rfl | rfl
    · exact ⟨_, .none⟩
    · exact ⟨_, .minus⟩
  have hblank : ∀ c ∈ minus ++ (whole ++ [mark]), isBlank c = false ∧ c ≠ '*' := by
    have hother : ∀ c ∈ ['-', 'e', 'E'], isBlank c = false ∧ c ≠ '*' := by simp [isBlank]
    intro c hc
    rcases List.mem_append.mp hc with hc | hc
    · rcases hminus with rfl | rfl
      · cases hc
      · exact hother c (by simp_all)
    · rcases List.mem_append.mp hc with hc | hc
      · refine ⟨isBlank_of_isDigit (hwhole c hc), ?_⟩
        rintro rfl
        exact absurd (hwhole '*' hc) (by decide)
      · exact hother c (by simp_all)
  obtain ⟨negative, hsign⟩ := hsign
  unfold float?
  rw [String.toList_ofList, trim_of_not_blank fun c hc => (hblank c hc).1]
  split
  · rename_i heq
    exact absurd rfl (hblank '*' (by simp [heq])).2
  · exact binary?_mark hsign hwhole hmark

/-- What is read as an integer is one item without a hyphen. -/
theorem item_of_integer? {max n : Int} (hstar : trim s.toList ≠ ['*']) (h : integer? s max = some n) :
    trim s.toList ≠ [] ∧ ',' ∉ trim s.toList ∧ cutAt? ['.', '.'] (trim s.toList) = none
      ∧ hyphenated? (trim s.toList) = none := by
  have hsome : trim s.toList ≠ [] := by
    intro hnil
    rw [integer?, hnil] at h
    cases h
  have hreads := integer?_eq_some.mp h
  generalize trim s.toList = cs at hstar hsome hreads
  cases hreads with
  | greatest => exact absurd rfl hstar
  | number hsign hread =>
    refine ⟨hsome, ?_, cutAt?_of_not_mem ?_, hyphenated?_of_not_mem hsign (hread.not_mem (by simp))⟩
    · exact List.not_mem_append (hsign.not_mem (by decide) (by decide)) (hread.not_mem (by simp))
    · exact List.not_mem_append (hsign.not_mem (by decide) (by decide)) (hread.not_mem (by simp))

/-- What is read as a finite number is one item, which a hyphen divides only if it is divided. -/
theorem item_of_float? {max x : Binary .double} (hstar : trim s.toList ≠ ['*'])
    (h : float? s max = some x) (hfinite : x.isFinite = true) :
    trim s.toList ≠ [] ∧ ',' ∉ trim s.toList ∧ cutAt? ['.', '.'] (trim s.toList) = none
      ∧ ∀ lo hi, hyphenated? (trim s.toList) = some (lo, hi) → Divided (trim s.toList) lo hi := by
  have hbinary : binary? .double (trim s.toList) = some x := by
    unfold float? at h
    split at h
    · rename_i heq
      exact absurd heq hstar
    · exact h
  generalize trim s.toList = cs at hbinary
  obtain ⟨sign, negative, whole, fraction, exponent, hsign, hdecimal, rfl⟩ :=
    isDecimal_of_binary? hbinary hfinite
  refine ⟨?_, ?_, cutAt?_dots (hdecimal.count_point hsign), fun lo hi => divided_of_hyphenated? hsign hdecimal⟩
  · intro hnil
    rw [hnil] at hbinary
    cases hbinary
  · exact hdecimal.not_mem hsign rfl (by decide)

/-- A literal of one number, and the range that is the point of this number. -/
inductive PointOf (s : String) : AttributeType → Range → Prop
  | integer {t : IntegerType} {n : Int} (hread : integer? s t.greatest = some n) :
      PointOf s (.integer t) (.integers [.point n])
  | float {type : AttributeType} {greatest x : Binary .double}
      (htype : type.greatestFloat? = some greatest) (hread : float? s greatest = some x)
      (hfinite : x.isFinite = true) : PointOf s type (.floats [.point x])

/-- Only trimmed texts are read. -/
theorem integer?_trim (s : String) (max : Int) :
    integer? (String.ofList (trim s.toList)) max = integer? s max := by
  simp only [integer?, String.toList_ofList, trim_trim]

theorem float?_trim (s : String) (max : Binary .double) :
    float? (String.ofList (trim s.toList)) max = float? s max := by
  simp only [float?, String.toList_ofList, trim_trim]

theorem compile_pointOf {type : AttributeType} {range : Range} (hstar : trim s.toList ≠ ['*'])
    (h : PointOf s type range) :
    (hyphenated? (trim s.toList) = none ∧ compile type (some s) = .ok range)
    ∨ ∃ lo hi, hyphenated? (trim s.toList) = some (lo, hi) ∧ Divided (trim s.toList) lo hi
      ∧ compile type (some s) = .error (boundError type lo) := by
  cases h with
  | @integer t n hread =>
    obtain ⟨hsome, hcomma, hdots, hhyphen⟩ := item_of_integer? hstar hread
    rw [← integer?_trim] at hread
    have hitems := readItems_point (.integer t) (fun s => integer? s t.greatest) hcomma hdots
      hhyphen hread
    exact Or.inl ⟨hhyphen, by rw [compile_integer hsome, hitems]; rfl⟩
  | @float _ greatest x htype hread hfinite =>
    obtain ⟨hsome, hcomma, hdots, hdivided⟩ := item_of_float? hstar hread hfinite
    rw [← float?_trim] at hread
    rw [compile_float htype hsome]
    cases hhyphen : hyphenated? (trim s.toList) with
    | none =>
      have hitems := readItems_point type (fun s => float? s greatest) hcomma hdots hhyphen hread
      exact Or.inl ⟨rfl, by rw [hitems]; rfl⟩
    | some bounds =>
      have hdivided := hdivided bounds.1 bounds.2 hhyphen
      have hitems := readItems_hyphenated type (fun s => float? s greatest) hcomma hdots hhyphen
        hdivided.float?_eq_none
      exact Or.inr ⟨bounds.1, bounds.2, rfl, hdivided, by rw [hitems]; rfl⟩

/-- A literal of one number is the range of this number, unless it is divided.  A divided literal is
taken for an interval, whose first bound is no number. -/
theorem compile_literal_iff {type : AttributeType} {range : Range} (hstar : trim s.toList ≠ ['*'])
    (h : PointOf s type range) :
    (compile type (some s) = .ok range ↔ ¬ ∃ lo hi, Divided (trim s.toList) lo hi)
    ∧ ∀ lo hi, Divided (trim s.toList) lo hi → compile type (some s) = .error (boundError type lo) := by
  rcases compile_pointOf hstar h with ⟨hhyphen, hcompile⟩ | ⟨lo, hi, hhyphen, hdivided, hcompile⟩
  · have hnot : ∀ lo hi, ¬ Divided (trim s.toList) lo hi := by
      intro lo hi hdivided
      rw [hdivided.hyphenated?_eq] at hhyphen
      cases hhyphen
    exact ⟨iff_of_true hcompile fun ⟨lo, hi, h⟩ => hnot lo hi h, fun lo hi h => absurd h (hnot lo hi)⟩
  · refine ⟨iff_of_false ?_ fun h => h ⟨lo, hi, hdivided⟩, fun lo' hi' hdivided' => ?_⟩
    · simp [hcompile]
    · rw [hdivided'.hyphenated?_eq] at hhyphen
      cases hhyphen
      exact hcompile

/-- One half. -/
def half : Binary .double := .finite false (Nat.pow 2 52) (-53) (by decide)

theorem pointOf_half : ∀ s ∈ ["5e-1", "+5e-1"],
    trim s.toList ≠ ['*'] ∧ PointOf s .double (.floats [.point half]) := by
  have hread : ∀ s ∈ ["5e-1", "+5e-1"], trim s.toList ≠ ['*']
      ∧ float? s (Binary.greatest .double) = some half := by
    decide +kernel
  exact fun s hs => ⟨(hread s hs).1, .float rfl (hread s hs).2 rfl⟩

theorem divided_half : Divided (trim "5e-1".toList) ['5', 'e'] ['1'] := by
  have htrim : trim "5e-1".toList = [] ++ (['5'] ++ ['e'] ++ '-' :: ['1']) := by decide +kernel
  have hdigit : ∀ c ∈ ['5', '1'], c.isDigit = true := by simp
  rw [htrim]
  exact .exponent (Or.inl rfl) (fun c hc => hdigit c (by simp_all)) (Or.inl rfl) (by simp)
    fun c hc => hdigit c (by simp_all)

/-- One half is a point when it has a sign, and else an interval from `5e`. -/
theorem compile_literal_half :
    compile .double (some "+5e-1") = .ok (.floats [.point half])
    ∧ compile .double (some "5e-1") = .error (boundError .double ['5', 'e']) := by
  obtain ⟨hstar, hpoint⟩ := pointOf_half "+5e-1" (by simp)
  obtain ⟨hstar', hpoint'⟩ := pointOf_half "5e-1" (by simp)
  have hplus : ¬ ∃ lo hi, Divided (trim "+5e-1".toList) lo hi := by
    rintro ⟨lo, hi, h⟩
    exact h.head?_ne_plus (by decide +kernel)
  exact ⟨(compile_literal_iff hstar hpoint).1.mpr hplus,
    (compile_literal_iff hstar' hpoint').2 _ _ divided_half⟩

/-- Not every literal of one number is its point. -/
theorem not_compile_literal : ¬ ∀ (type : AttributeType) (s : String) (range : Range),
    trim s.toList ≠ ['*'] → PointOf s type range → compile type (some s) = .ok range := by
  intro h
  obtain ⟨hstar, hpoint⟩ := pointOf_half "5e-1" (by simp)
  have hcompile := h _ _ _ hstar hpoint
  rcases compile_pointOf hstar hpoint with ⟨hhyphen, -⟩ | ⟨_, _, -, -, herror⟩
  · rw [divided_half.hyphenated?_eq] at hhyphen
    cases hhyphen
  · rw [herror] at hcompile
    cases hcompile

end Range

end RecordGraph
