import RecordGraph.Proofs.Number.Literal

/-!
The grammar of decimal literals: digits, perhaps a point among or around them, perhaps an exponent.
What is read as a finite number is a sign and a decimal literal.
-/

namespace RecordGraph.Literal

open Text

variable {f : BinaryFormat} {cs : List Char}

/-- Digits of the base ten. -/
def AreDigits (cs : List Char) : Prop := ∀ c ∈ cs, c.isDigit = true

theorem AreDigits.not_mem {c : Char} (h : AreDigits cs) (hc : c.isDigit = false) : c ∉ cs := by
  intro hmem
  rw [h c hmem] at hc
  cases hc

/-- The part of a literal from the point on. -/
inductive Fraction : List Char → Prop
  | none : Fraction []
  | point {digits : List Char} (hdigits : AreDigits digits) : Fraction ('.' :: digits)

/-- The power of ten that ends a literal. -/
inductive Exponent : List Char → Prop
  | none : Exponent []
  | power {mark : Char} {sign digits : List Char} {negative : Bool} (hmark : mark = 'e' ∨ mark = 'E')
      (hsign : Sign sign negative) (hsome : digits ≠ []) (hdigits : AreDigits digits) :
      Exponent (mark :: (sign ++ digits))

/-- A decimal literal without a sign. -/
structure IsDecimal (whole fraction exponent : List Char) : Prop where
  whole : AreDigits whole
  fraction : Fraction fraction
  exponent : Exponent exponent

theorem Fraction.not_mem {c : Char} (h : Fraction cs) (hc : c.isDigit = false) (hpoint : c ≠ '.') :
    c ∉ cs := by
  cases h with
  | none => exact List.not_mem_nil
  | point hdigits => exact List.not_mem_cons_of_ne_of_not_mem hpoint (hdigits.not_mem hc)

theorem Exponent.not_mem {c : Char} (h : Exponent cs) (hc : c.isDigit = false)
    (hother : c ∉ ['e', 'E', '+', '-']) : c ∉ cs := by
  simp only [List.mem_cons, List.not_mem_nil, or_false, not_or] at hother
  obtain ⟨he, hE, hplus, hminus⟩ := hother
  cases h with
  | none => exact List.not_mem_nil
  | power hmark hsign hsome hdigits =>
    have hdigit := hdigits.not_mem hc
    have hsign' := hsign.not_mem hplus hminus
    rcases hmark with rfl | rfl <;> simp_all

/-- What may stand in a decimal literal besides digits. -/
theorem IsDecimal.not_mem {sign whole fraction exponent : List Char} {negative : Bool} {c : Char}
    (hsign : Sign sign negative) (h : IsDecimal whole fraction exponent) (hc : c.isDigit = false)
    (hother : c ∉ ['.', 'e', 'E', '+', '-']) : c ∉ sign ++ (whole ++ fraction ++ exponent) := by
  have hpoint : c ≠ '.' := List.ne_of_not_mem_cons hother
  have hmark : c ∉ ['e', 'E', '+', '-'] := List.not_mem_of_not_mem_cons hother
  have hsign' : c ∉ sign := hsign.not_mem (by simp_all) (by simp_all)
  simp [hsign', h.whole.not_mem hc, h.fraction.not_mem hc hpoint, h.exponent.not_mem hc hmark]

/-- At most one point stands in a decimal literal. -/
theorem IsDecimal.count_point {sign whole fraction exponent : List Char} {negative : Bool}
    (hsign : Sign sign negative) (h : IsDecimal whole fraction exponent) :
    (sign ++ (whole ++ fraction ++ exponent)).count '.' ≤ 1 := by
  have hsign' := List.count_eq_zero.mpr (hsign.not_mem (c := '.') (by decide) (by decide))
  have hwhole := List.count_eq_zero.mpr (h.whole.not_mem (c := '.') rfl)
  have hexponent := List.count_eq_zero.mpr (h.exponent.not_mem (c := '.') rfl (by decide))
  have hfraction : fraction.count '.' ≤ 1 := by
    cases h.fraction with
    | none => simp
    | point hdigits =>
      have hdigits' := List.count_eq_zero.mpr (hdigits.not_mem (c := '.') rfl)
      simp [hdigits']
  simp only [List.count_append]
  omega

theorem exponent_of_exponent? {e : Int} (h : exponent? cs = some e) : Exponent cs := by
  cases cs with
  | nil => exact .none
  | cons c cs =>
    simp only [exponent?] at h
    split at h
    · rename_i hmark
      obtain ⟨sign, negative, digits, hsign, rfl, htake⟩ := takeSign_cases cs
      rw [htake] at h
      dsimp only at h
      split at h
      · cases h
      · rename_i hdigits
        simp only [Bool.or_eq_true, List.isEmpty_iff, Bool.not_eq_true', not_or,
          Bool.not_eq_false, List.all_eq_true] at hdigits
        exact .power hmark hsign hdigits.1 hdigits.2
    · cases h

theorem spanDigits_cases (cs : List Char) : ∃ digits rest, AreDigits digits
    ∧ cs = digits ++ rest ∧ spanDigits cs = (digits, rest) :=
  ⟨cs.takeWhile Char.isDigit, cs.dropWhile Char.isDigit,
    fun c hc => List.all_eq_true.mp List.all_takeWhile c hc,
    List.takeWhile_append_dropWhile.symm, List.span_eq_takeWhile_dropWhile _ cs⟩

/-- What is read as an unsigned decimal number is a decimal literal. -/
theorem isDecimal_of_decimal? {d : Nat × Int} (h : decimal? cs = some d) :
    ∃ whole fraction exponent, IsDecimal whole fraction exponent
      ∧ cs = whole ++ fraction ++ exponent := by
  obtain ⟨whole, rest, hwhole, rfl, hspan⟩ := spanDigits_cases cs
  unfold decimal? at h
  rw [hspan] at h
  dsimp only at h
  split at h
  · rename_i tail
    obtain ⟨digits, exponent, hdigits, rfl, hspan'⟩ := spanDigits_cases tail
    rw [hspan'] at h
    dsimp only at h
    split at h
    · cases h
    · obtain ⟨e, he, -⟩ := Option.map_eq_some_iff.mp h
      exact ⟨whole, '.' :: digits, exponent,
        ⟨hwhole, .point hdigits, exponent_of_exponent? he⟩, by simp⟩
  · dsimp only at h
    split at h
    · cases h
    · obtain ⟨e, he, -⟩ := Option.map_eq_some_iff.mp h
      exact ⟨whole, [], rest, ⟨hwhole, .none, exponent_of_exponent? he⟩, by simp⟩

/-- What is read as a finite number is a decimal literal behind a sign. -/
theorem isDecimal_of_binary? {x : Binary f} (h : binary? f cs = some x) (hfinite : x.isFinite = true) :
    ∃ sign negative whole fraction exponent, Sign sign negative
      ∧ IsDecimal whole fraction exponent ∧ cs = sign ++ (whole ++ fraction ++ exponent) := by
  obtain ⟨sign, negative, body, hsign, rfl, htake⟩ := takeSign_cases cs
  unfold binary? at h
  rw [htake] at h
  dsimp only at h
  split at h
  · cases h
    cases hfinite
  · split at h
    · cases h
      cases hfinite
    · obtain ⟨d, hd, -⟩ := Option.map_eq_some_iff.mp h
      obtain ⟨whole, fraction, exponent, hdecimal, rfl⟩ := isDecimal_of_decimal? hd
      exact ⟨sign, negative, whole, fraction, exponent, hsign, hdecimal, rfl⟩

/-- Digits are followed by their exponent or by nothing; the letter of an exponent alone is none. -/
theorem decimal?_mark {whole : List Char} {mark : Char} (hwhole : AreDigits whole)
    (hmark : mark = 'e' ∨ mark = 'E') : decimal? (whole ++ [mark]) = none := by
  have hspan : spanDigits (whole ++ [mark]) = (whole, [mark]) := by
    apply span_append whole [mark] hwhole
    rintro c ⟨⟩
    rcases hmark with rfl | rfl <;> rfl
  have hexponent : exponent? [mark] = none := by
    rcases hmark with rfl | rfl <;> rfl
  unfold decimal?
  rw [hspan]
  dsimp only
  split
  · rename_i heq
    cases heq
    simp at hmark
  · simp [hexponent]

theorem getLast?_of_equalIgnoringCase {word : String} {c : Char}
    (h : equalIgnoringCase (cs ++ [c]) word = true) : word.toList.getLast? = some c.toLower := by
  rw [equalIgnoringCase, beq_iff_eq, List.map_append, List.map_singleton] at h
  rw [← h, List.getLast?_concat]

/-- The letter of an exponent is not the end of a number. -/
theorem binary?_mark {sign whole : List Char} {mark : Char} {negative : Bool}
    (hsign : Sign sign negative) (hwhole : AreDigits whole) (hmark : mark = 'e' ∨ mark = 'E') :
    binary? f (sign ++ (whole ++ [mark])) = none := by
  have hnot : ∀ c ∈ ['+', '-'], c ∉ whole ++ [mark] := by
    intro c hc hmem
    have hdigit : ∀ c ∈ ['+', '-'], c.isDigit = false ∧ c ≠ 'e' ∧ c ≠ 'E' := by simp
    obtain ⟨hdigit, he, hE⟩ := hdigit c hc
    rcases List.mem_append.mp hmem with hmem | hmem
    · exact hwhole.not_mem hdigit hmem
    · rcases List.mem_singleton.mp hmem ▸ hmark with h | h
      · exact he h
      · exact hE h
  have hword : ∀ word ∈ ["inf", "infinity", "nan"],
      equalIgnoringCase (whole ++ [mark]) word = false := by
    intro word hword
    by_contra hequal
    have hlast := getLast?_of_equalIgnoringCase (Bool.not_eq_false _ ▸ hequal)
    have hother : ∀ word ∈ ["inf", "infinity", "nan"], word.toList.getLast? ≠ some 'e' := by decide
    have hlower : mark.toLower = 'e' := by
      rcases hmark with rfl | rfl <;> rfl
    rw [hlower] at hlast
    exact hother word hword hlast
  unfold binary?
  rw [hsign.takeSign_append (hnot '+' (by simp)) (hnot '-' (by simp))]
  simp [hword, decimal?_mark hwhole hmark]

end RecordGraph.Literal
