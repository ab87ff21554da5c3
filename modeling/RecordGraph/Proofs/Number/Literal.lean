import Mathlib.Data.Nat.Digits.Defs
import RecordGraph.Number.Literal
import RecordGraph.Proofs.Text.Cutting

/-!
Integer literals against their grammar.  A literal has one preferred base, and only digits that are not
of that base make it hexadecimal; how large the number is plays no part in this, since the same digits
write no smaller number in a larger base.
-/

namespace RecordGraph.Literal

open Text

variable {base : Nat} {c : Char} {cs ds : List Char} {n : Nat}

/-! ### Numerals -/

/-- The value of a digit; what is no digit counts as zero. -/
def digitValue (c : Char) : Nat := (digit? c).getD 0

/-- The number that digits of a base write, the most significant first. -/
def numeral (base : Nat) (cs : List Char) : Nat := Nat.ofDigits base (cs.map digitValue).reverse

/-- A character is a digit of a base. -/
def IsDigit (base : Nat) (c : Char) : Prop := ∃ d, digit? c = some d ∧ d < base

/-- At least one digit, and nothing but digits of a base. -/
def IsNumeral (base : Nat) (cs : List Char) : Prop := cs ≠ [] ∧ ∀ c ∈ cs, IsDigit base c

theorem numeral_append : numeral base (cs ++ ds) = numeral base cs * base ^ ds.length + numeral base ds := by
  simp only [numeral, List.map_append, List.reverse_append, Nat.ofDigits_append, List.length_reverse,
    List.length_map]
  rw [Nat.add_comm, Nat.mul_comm]

@[simp] theorem numeral_nil : numeral base [] = 0 := rfl

@[simp] theorem numeral_singleton : numeral base [c] = digitValue c := by
  simp [numeral]

theorem numeral_cons : numeral base (c :: cs) = digitValue c * base ^ cs.length + numeral base cs := by
  rw [← List.singleton_append, numeral_append, numeral_singleton]

/-- The same digits write no smaller number in a larger base. -/
theorem numeral_mono {base' : Nat} (h : base ≤ base') (cs : List Char) :
    numeral base cs ≤ numeral base' cs :=
  Nat.ofDigits_monotone _ h

theorem IsDigit.digitValue_lt (h : IsDigit base c) : digitValue c < base := by
  obtain ⟨d, hd, hlt⟩ := h
  simpa [digitValue, hd] using hlt

theorem numeral_lt (hbase : 1 < base) (h : ∀ c ∈ cs, IsDigit base c) :
    numeral base cs < base ^ cs.length := by
  have hlt : ∀ d ∈ (cs.map digitValue).reverse, d < base := by
    intro d hd
    obtain ⟨c, hc, rfl⟩ := List.mem_map.mp (List.mem_reverse.mp hd)
    exact (h c hc).digitValue_lt
  simpa [numeral] using Nat.ofDigits_lt_base_pow_length hbase hlt

theorem digitOf?_eq_some {d : Nat} : digitOf? base c = some d ↔ digit? c = some d ∧ d < base := by
  simp [digitOf?, Option.filter_eq_some_iff]

theorem digitsFrom?_eq_some {acc : Nat} : digitsFrom? base acc cs = some n ↔
    (∀ c ∈ cs, IsDigit base c) ∧ n = acc * base ^ cs.length + numeral base cs := by
  induction cs generalizing acc with
  | nil => simp [digitsFrom?, eq_comm]
  | cons c cs ih =>
    rw [digitsFrom?, Option.bind_eq_bind, Option.bind_eq_some_iff]
    simp only [digitOf?_eq_some, ih, List.forall_mem_cons, numeral_cons, List.length_cons]
    constructor
    · rintro ⟨d, ⟨hd, hlt⟩, hcs, rfl⟩
      refine ⟨⟨⟨d, hd, hlt⟩, hcs⟩, ?_⟩
      simp only [digitValue, hd, Option.getD_some]
      ring
    · rintro ⟨⟨⟨d, hd, hlt⟩, hcs⟩, rfl⟩
      refine ⟨d, ⟨hd, hlt⟩, hcs, ?_⟩
      simp only [digitValue, hd, Option.getD_some]
      ring

theorem greatestMagnitude_eq : greatestMagnitude = 2 ^ 127 - 1 := rfl

theorem magnitude?_eq_some :
    magnitude? base cs = some n ↔ IsNumeral base cs ∧ n = numeral base cs ∧ n < 2 ^ 127 := by
  have hgreatest : n ≤ greatestMagnitude ↔ n < 2 ^ 127 := by
    rw [greatestMagnitude_eq]
    omega
  cases cs with
  | nil => simp [magnitude?, IsNumeral]
  | cons c cs =>
    simp only [magnitude?, List.isEmpty_cons, Bool.false_eq_true, if_false,
      Option.filter_eq_some_iff, digitsFrom?_eq_some, decide_eq_true_eq, hgreatest]
    simp [IsNumeral, and_assoc]

theorem magnitude?_eq_none :
    magnitude? base cs = none ↔ (IsNumeral base cs → 2 ^ 127 ≤ numeral base cs) := by
  rw [Option.eq_none_iff_forall_ne_some]
  simp only [ne_eq, magnitude?_eq_some, not_and]
  constructor
  · intro h hcs
    exact not_lt.mp (h _ hcs rfl)
  · rintro h n hcs rfl
    exact not_lt.mpr (h hcs)

/-! ### Bases -/

/-- A hexadecimal literal and its digits, which `0x` or `0X` may mark. -/
inductive Marked : List Char → List Char → Prop
  | plain (cs : List Char) : Marked cs cs
  | lower (cs : List Char) : Marked ('0' :: 'x' :: cs) cs
  | upper (cs : List Char) : Marked ('0' :: 'X' :: cs) cs

/-- The base that the beginning of a literal announces, and the digits for it: a `0` in front of more
characters announces an octal number. -/
inductive Announced : List Char → Nat → List Char → Prop
  | octal {cs : List Char} (hmore : cs ≠ []) : Announced ('0' :: cs) 8 cs
  | decimal {cs : List Char} (hzero : ∀ ds, cs = '0' :: ds → ds = []) : Announced cs 10 cs

/-- The base in which a literal is read, and the digits that are read: those of the announced base, or
else hexadecimal ones. -/
inductive ReadAs : List Char → Nat → List Char → Prop
  | announced {cs digits : List Char} {base : Nat} (h : Announced cs base digits)
      (hdigits : IsNumeral base digits) : ReadAs cs base digits
  | hexadecimal {cs rest digits : List Char} {base : Nat} (h : Announced cs base rest)
      (hnot : ¬ IsNumeral base rest) (hmark : Marked cs digits) (hdigits : IsNumeral 16 digits) :
      ReadAs cs 16 digits

theorem exists_announced (cs : List Char) : ∃ base digits, Announced cs base digits := by
  by_cases h : ∀ ds, cs = '0' :: ds → ds = []
  · exact ⟨10, cs, .decimal h⟩
  · push Not at h
    obtain ⟨ds, rfl, hne⟩ := h
    exact ⟨8, ds, .octal hne⟩

theorem Announced.unique {base' : Nat} {digits digits' : List Char} (h : Announced cs base digits)
    (h' : Announced cs base' digits') : base = base' ∧ digits = digits' := by
  cases h with
  | octal hmore =>
    cases h' with
    | octal => exact ⟨rfl, rfl⟩
    | decimal hzero => exact absurd (hzero _ rfl) hmore
  | decimal hzero =>
    cases h' with
    | octal hmore => exact absurd (hzero _ rfl) hmore
    | decimal => exact ⟨rfl, rfl⟩

/-- The letter of a mark is no digit. -/
theorem not_isDigit_letter {x : Char} (hx : x = 'x' ∨ x = 'X') (hbase : base ≤ 16) : ¬ IsDigit base x := by
  have hvalue : digit? x = some 33 := by rcases hx with rfl | rfl <;> rfl
  rintro ⟨d, hd, hlt⟩
  rw [hvalue] at hd
  cases hd
  omega

theorem Marked.plain_or_letter (h : Marked cs ds) :
    ds = cs ∨ ∃ x, (x = 'x' ∨ x = 'X') ∧ cs = '0' :: x :: ds := by
  cases h with
  | plain => exact Or.inl rfl
  | lower => exact Or.inr ⟨'x', Or.inl rfl, rfl⟩
  | upper => exact Or.inr ⟨'X', Or.inr rfl, rfl⟩

/-- Digits have no mark in front. -/
theorem Marked.eq_of_isNumeral (h : Marked cs ds) (hcs : IsNumeral 16 cs) : ds = cs := by
  rcases h.plain_or_letter with rfl | ⟨x, hx, rfl⟩
  · rfl
  · exact absurd (hcs.2 x (by simp)) (not_isDigit_letter hx le_rfl)

theorem Marked.unique {ds' : List Char} (h : Marked cs ds) (hds : IsNumeral 16 ds)
    (h' : Marked cs ds') (hds' : IsNumeral 16 ds') : ds = ds' := by
  rcases h.plain_or_letter with rfl | ⟨x, hx, hcs⟩
  · exact (h'.eq_of_isNumeral hds).symm
  · rcases h'.plain_or_letter with rfl | ⟨x', hx', hcs'⟩
    · exact h.eq_of_isNumeral hds'
    · rw [hcs] at hcs'
      injection hcs' with _ htail
      injection htail

/-- A literal is read in one way. -/
theorem ReadAs.unique {base' : Nat} {ds' : List Char} (h : ReadAs cs base ds)
    (h' : ReadAs cs base' ds') : base = base' ∧ ds = ds' := by
  cases h with
  | announced h hdigits =>
    cases h' with
    | announced h' => exact h.unique h'
    | hexadecimal h' hnot =>
      obtain ⟨rfl, rfl⟩ := h.unique h'
      exact absurd hdigits hnot
  | hexadecimal h hnot hmark hdigits =>
    cases h' with
    | announced h' hdigits' =>
      obtain ⟨rfl, rfl⟩ := h.unique h'
      exact absurd hdigits' hnot
    | hexadecimal _ _ hmark' hdigits' => exact ⟨rfl, hmark.unique hdigits hmark' hdigits'⟩

/-- Digits of the announced base write no smaller number when they are read as hexadecimal. -/
theorem Announced.numeral_le {digits : List Char} (h : Announced cs base ds)
    (hds : IsNumeral base ds) (hmark : Marked cs digits) :
    numeral base ds ≤ numeral 16 digits := by
  cases h with
  | octal hmore =>
    rcases hmark.plain_or_letter with rfl | ⟨x, hx, hcs⟩
    · calc numeral 8 ds ≤ numeral 16 ds := numeral_mono (by decide) ds
        _ ≤ numeral 16 ('0' :: ds) := by rw [numeral_cons]; exact Nat.le_add_left ..
    · obtain rfl : ds = x :: digits := List.tail_eq_of_cons_eq hcs
      exact absurd (hds.2 x (by simp)) (not_isDigit_letter hx (by decide))
  | decimal hzero =>
    rcases hmark.plain_or_letter with rfl | ⟨x, hx, rfl⟩
    · exact numeral_mono (by decide) digits
    · exact absurd (hds.2 x (by simp)) (not_isDigit_letter hx (by decide))

/-! ### Unsigned literals -/

theorem exists_marked (cs : List Char) :
    ∃ digits, Marked cs digits ∧ hexMagnitude? cs = magnitude? 16 digits := by
  unfold hexMagnitude?
  split
  · exact ⟨_, .lower _, rfl⟩
  · exact ⟨_, .upper _, rfl⟩
  · exact ⟨cs, .plain cs, rfl⟩

theorem Marked.hexMagnitude?_eq (h : Marked cs ds) (hds : IsNumeral 16 ds) :
    hexMagnitude? cs = magnitude? 16 ds := by
  obtain ⟨digits, hmark, heq⟩ := exists_marked cs
  cases h with
  | plain => rw [heq, hmark.eq_of_isNumeral hds]
  | lower => rfl
  | upper => rfl

theorem hexMagnitude?_eq_some : hexMagnitude? cs = some n ↔
    ∃ digits, Marked cs digits ∧ IsNumeral 16 digits ∧ n = numeral 16 digits ∧ n < 2 ^ 127 := by
  constructor
  · intro h
    obtain ⟨digits, hmark, heq⟩ := exists_marked cs
    rw [heq, magnitude?_eq_some] at h
    exact ⟨digits, hmark, h⟩
  · rintro ⟨digits, hmark, hdigits, hn, hlt⟩
    rw [hmark.hexMagnitude?_eq hdigits]
    exact magnitude?_eq_some.mpr ⟨hdigits, hn, hlt⟩

theorem unsigned?_of_announced (h : Announced cs base ds) :
    unsigned? cs = (magnitude? base ds).or (hexMagnitude? cs) := by
  cases h with
  | octal hmore =>
    cases ds with
    | nil => exact absurd rfl hmore
    | cons c cs => rfl
  | decimal hzero =>
    unfold unsigned?
    split
    · exact absurd (hzero _ rfl) (by simp)
    · rfl

/-- The digits of a literal write its number exactly, unless that is too large.  A number that is too
large in the announced base is too large as a hexadecimal one, so that no literal changes its base. -/
theorem unsigned?_eq_some : unsigned? cs = some n ↔
    ∃ base digits, ReadAs cs base digits ∧ n = numeral base digits ∧ n < 2 ^ 127 := by
  obtain ⟨base, ds, hannounced⟩ := exists_announced cs
  rw [unsigned?_of_announced hannounced, Option.or_eq_some_iff]
  constructor
  · rintro (h | ⟨hnone, h⟩)
    · obtain ⟨hds, hn, hlt⟩ := magnitude?_eq_some.mp h
      exact ⟨base, ds, .announced hannounced hds, hn, hlt⟩
    · obtain ⟨digits, hmark, hdigits, hn, hlt⟩ := hexMagnitude?_eq_some.mp h
      refine ⟨16, digits, .hexadecimal hannounced (fun hds => ?_) hmark hdigits, hn, hlt⟩
      -- digits that are too large in their base would only be larger as hexadecimal ones
      have hlarge := magnitude?_eq_none.mp hnone hds
      have hle := hannounced.numeral_le hds hmark
      omega
  · rintro ⟨base', digits, hread, hn, hlt⟩
    cases hread with
    | announced h hdigits =>
      obtain ⟨rfl, rfl⟩ := hannounced.unique h
      exact Or.inl (magnitude?_eq_some.mpr ⟨hdigits, hn, hlt⟩)
    | hexadecimal h hnot hmark hdigits =>
      obtain ⟨rfl, rfl⟩ := hannounced.unique h
      exact Or.inr ⟨magnitude?_eq_none.mpr fun hds => absurd hds hnot,
        hexMagnitude?_eq_some.mpr ⟨digits, hmark, hdigits, hn, hlt⟩⟩

/-! ### Signs -/

/-- At most one sign, and whether it is a minus. -/
inductive Sign : List Char → Bool → Prop
  | none : Sign [] false
  | plus : Sign ['+'] false
  | minus : Sign ['-'] true

/-- The integers that a trimmed text is read as. -/
inductive Reads (max : Int) : List Char → Int → Prop
  | greatest : Reads max ['*'] max
  | number {sign cs digits : List Char} {negative : Bool} {base : Nat} (hsign : Sign sign negative)
      (h : ReadAs cs base digits) (hsmall : numeral base digits < 2 ^ 127) :
      Reads max (sign ++ cs)
        (if negative then -(numeral base digits : Int) else (numeral base digits : Int))

theorem IsDigit.mono {base' : Nat} (h : IsDigit base c) (hle : base ≤ base') : IsDigit base' c := by
  obtain ⟨d, hd, hlt⟩ := h
  exact ⟨d, hd, Nat.lt_of_lt_of_le hlt hle⟩

/-- What may stand in a literal besides its sign. -/
theorem ReadAs.digit_or_mark (h : ReadAs cs base ds) (hc : c ∈ cs) :
    IsDigit 16 c ∨ c = 'x' ∨ c = 'X' := by
  have hzero : IsDigit 16 '0' := ⟨0, by decide, by decide⟩
  cases h with
  | announced h hdigits =>
    cases h with
    | octal =>
      rcases List.mem_cons.mp hc with rfl | hc
      · exact Or.inl hzero
      · exact Or.inl ((hdigits.2 c hc).mono (by decide))
    | decimal => exact Or.inl ((hdigits.2 c hc).mono (by decide))
  | hexadecimal _ _ hmark hdigits =>
    rcases hmark.plain_or_letter with rfl | ⟨x, hx, rfl⟩
    · exact Or.inl (hdigits.2 c hc)
    · rcases List.mem_cons.mp hc with rfl | hc
      · exact Or.inl hzero
      · rcases List.mem_cons.mp hc with rfl | hc
        · exact Or.inr hx
        · exact Or.inl (hdigits.2 c hc)

/-- The characters that mean something else in literals or in ranges are not among the digits. -/
theorem ReadAs.not_mem (h : ReadAs cs base ds)
    (hc : c ∈ ['+', '-', '*', '.', ',']) : c ∉ cs := by
  intro hmem
  have hdigit : ∀ c ∈ ['+', '-', '*', '.', ','], digit? c = none ∧ c ≠ 'x' ∧ c ≠ 'X' := by
    simp [digit?]
  obtain ⟨hnone, hx, hX⟩ := hdigit c hc
  rcases h.digit_or_mark hmem with ⟨d, hd, -⟩ | rfl | rfl
  · rw [hnone] at hd
    cases hd
  · exact hx rfl
  · exact hX rfl

theorem Sign.not_mem {sign : List Char} {negative : Bool} (h : Sign sign negative) (hplus : c ≠ '+')
    (hminus : c ≠ '-') : c ∉ sign := by
  cases h with
  | none => exact List.not_mem_nil
  | plus => simpa using hplus
  | minus => simpa using hminus

theorem takeSign_cases (cs : List Char) : ∃ sign negative rest, Sign sign negative
    ∧ cs = sign ++ rest ∧ takeSign cs = (negative, rest) := by
  unfold takeSign
  split
  · exact ⟨_, _, _, .minus, rfl, rfl⟩
  · exact ⟨_, _, _, .plus, rfl, rfl⟩
  · exact ⟨_, _, _, .none, rfl, rfl⟩

theorem Sign.takeSign_append {sign : List Char} {negative : Bool} (h : Sign sign negative)
    (hplus : '+' ∉ cs) (hminus : '-' ∉ cs) : takeSign (sign ++ cs) = (negative, cs) := by
  cases h with
  | none =>
    cases cs with
    | nil => rfl
    | cons c cs =>
      have hc : c ≠ '-' ∧ c ≠ '+' := by
        constructor
        · rintro rfl
          simp at hminus
        · rintro rfl
          simp at hplus
      simp [takeSign, hc]
  | plus => rfl
  | minus => rfl

theorem not_star {sign : List Char} {negative : Bool}
    (hsign : Sign sign negative) (h : ReadAs cs base ds) : sign ++ cs ≠ ['*'] := by
  intro heq
  have hstar : '*' ∉ cs := h.not_mem (by simp)
  cases hsign with
  | none => exact hstar (by rw [List.nil_append] at heq; simp [heq])
  | plus => simp at heq
  | minus => simp at heq

/-- What is read of a text that is no wildcard: after a sign there is no other one. -/
theorem integer?_of_takeSign {s : String} {max : Int} {negative : Bool}
    (hstar : trim s.toList ≠ ['*']) (htake : takeSign (trim s.toList) = (negative, cs)) :
    integer? s max = if cs.any fun c => c == '+' || c == '-' then none
      else (unsigned? cs).map fun n : Nat => if negative then -(n : Int) else n := by
  unfold integer?
  split
  · exact absurd ‹_› hstar
  · rw [htake]
    dsimp only
    cases unsigned? cs <;> rfl

/-- An integer is read from a text when the text is a literal of that integer. -/
theorem integer?_eq_some {s : String} {max n : Int} :
    integer? s max = some n ↔ Reads max (trim s.toList) n := by
  by_cases hstar : trim s.toList = ['*']
  · unfold integer?
    rw [hstar]
    constructor
    · rintro ⟨⟩
      exact .greatest
    · intro h
      generalize hcs : ['*'] = cs at h
      cases h with
      | greatest => rfl
      | number hsign h => exact absurd hcs.symm (not_star hsign h)
  · obtain ⟨sign, negative, rest, hsign, htext, htake⟩ := takeSign_cases (trim s.toList)
    rw [integer?_of_takeSign hstar htake]
    constructor
    · intro h
      split at h
      · cases h
      · obtain ⟨m, hm, rfl⟩ := Option.map_eq_some_iff.mp h
        obtain ⟨base, digits, hread, rfl, hsmall⟩ := unsigned?_eq_some.mp hm
        rw [htext]
        exact .number hsign hread hsmall
    · intro h
      generalize trim s.toList = cs at h hstar htake
      cases h with
      | greatest => exact absurd rfl hstar
      | number hsign' hread hsmall =>
        have hplus := hread.not_mem (c := '+') (by simp)
        have hminus := hread.not_mem (c := '-') (by simp)
        rw [hsign'.takeSign_append hplus hminus] at htake
        cases htake
        have hnone : (rest.any fun c => c == '+' || c == '-') = false := by
          rw [List.any_eq_false]
          intro c hc
          have hne : c ≠ '+' ∧ c ≠ '-' := ⟨fun e => hplus (e ▸ hc), fun e => hminus (e ▸ hc)⟩
          simpa using hne
        simp only [hnone, Bool.false_eq_true, if_false]
        rw [unsigned?_eq_some.mpr ⟨_, _, hread, rfl, hsmall⟩]
        rfl

/-- A text is refused when it is no literal, or one of a number that is too large. -/
theorem integer?_eq_none {s : String} {max : Int} : integer? s max = none ↔
    trim s.toList ≠ ['*'] ∧ ∀ sign negative cs base digits, Sign sign negative →
      trim s.toList = sign ++ cs → ReadAs cs base digits → 2 ^ 127 ≤ numeral base digits := by
  rw [Option.eq_none_iff_forall_ne_some]
  simp only [ne_eq, integer?_eq_some]
  constructor
  · intro h
    refine ⟨fun hstar => h max (hstar ▸ .greatest), ?_⟩
    intro sign negative cs base digits hsign heq hread
    by_contra hlarge
    have hreads := @Reads.number max _ _ _ _ _ hsign hread (Nat.lt_of_not_le hlarge)
    rw [← heq] at hreads
    exact h _ hreads
  · rintro ⟨hstar, hlarge⟩ n h
    generalize hcs : trim s.toList = cs at h
    cases h with
    | greatest => exact hstar hcs
    | number hsign hread hsmall => exact absurd (hlarge _ _ _ _ _ hsign hcs hread) (Nat.not_le.mpr hsmall)

/-- But for the wildcard, no integer that is read is too large for its sign to be turned. -/
theorem natAbs_lt_of_integer? {s : String} {max n : Int} (hstar : trim s.toList ≠ ['*'])
    (h : integer? s max = some n) : n.natAbs < 2 ^ 127 := by
  have hreads := integer?_eq_some.mp h
  generalize hcs : trim s.toList = cs at hreads hstar
  cases hreads with
  | greatest => exact absurd rfl hstar
  | number hsign hread hsmall => split <;> simpa using hsmall

/-! ### Decimal texts -/

theorem between_of_isDigit (h : c.isDigit = true) : '0' ≤ c ∧ c ≤ '9' := by
  simpa [Char.isDigit, Char.le_def, UInt32.le_iff_toNat_le] using h

theorem isDigit_of_isDigit (h : c.isDigit = true) : IsDigit 10 c := by
  obtain ⟨hlow, hhigh⟩ := Char.isDigit_iff_toNat.mp h
  refine ⟨c.toNat - '0'.toNat, if_pos (between_of_isDigit h), ?_⟩
  have hnine : '9'.toNat = '0'.toNat + 9 := rfl
  omega

theorem numeral_toDigits (n : Nat) : numeral 10 (Nat.toDigits 10 n) = n := by
  induction n using Nat.strong_induction_on with
  | h n ih =>
    have hdigit : ∀ d, d < 10 → digitValue d.digitChar = d := by decide
    by_cases hn : n < 10
    · rw [Nat.toDigits_of_lt_base hn, numeral_singleton, hdigit n hn]
    · rw [Nat.toDigits_of_base_le (by decide) (by omega), numeral_append, ih (n / 10) (by omega),
        numeral_singleton, hdigit _ (Nat.mod_lt _ (by decide))]
      simpa using Nat.div_add_mod' n 10

theorem isNumeral_toDigits (n : Nat) : IsNumeral 10 (Nat.toDigits 10 n) :=
  ⟨Nat.toDigits_ne_nil, fun _ hc =>
    isDigit_of_isDigit (Nat.isDigit_of_mem_toDigits (by decide) (by decide) hc)⟩

/-- The decimal text of a number has no `0` in front. -/
theorem announced_toDigits (n : Nat) : Announced (Nat.toDigits 10 n) 10 (Nat.toDigits 10 n) := by
  refine .decimal fun ds hds => ?_
  by_contra hne
  have hdigits : ∀ c ∈ ds, IsDigit 10 c := fun c hc =>
    (isNumeral_toDigits n).2 c (by rw [hds]; exact List.mem_cons_of_mem '0' hc)
  have hvalue : numeral 10 ds = n := by
    have hzero : digitValue '0' = 0 := rfl
    rw [← numeral_toDigits n, hds, numeral_cons, hzero, Nat.zero_mul, Nat.zero_add]
  have hlt := numeral_lt (by decide) hdigits
  rw [hvalue, ← Nat.length_toDigits_le_iff (by decide) (List.length_pos_iff.mpr hne), hds,
    List.length_cons] at hlt
  omega

theorem readAs_toDigits (n : Nat) : ReadAs (Nat.toDigits 10 n) 10 (Nat.toDigits 10 n) :=
  .announced (announced_toDigits n) (isNumeral_toDigits n)

/-- The decimal text of an integer: a minus for a negative one, and digits. -/
theorem toList_toString (n : Int) : ∃ sign negative, Sign sign negative
    ∧ (toString n).toList = sign ++ Nat.toDigits 10 n.natAbs
    ∧ n = if negative then -(n.natAbs : Int) else (n.natAbs : Int) := by
  rw [Int.toString_eq_repr, Int.repr_eq_if]
  split
  · have habs : n.toNat = n.natAbs := by omega
    refine ⟨[], false, .none, by rw [habs, Nat.toList_repr, List.nil_append], ?_⟩
    simp only [Bool.false_eq_true, if_false]
    omega
  · have habs : (-n).toNat = n.natAbs := by omega
    refine ⟨['-'], true, .minus, by rw [habs, String.toList_append, Nat.toList_repr]; rfl, ?_⟩
    simp only [if_true]
    omega

theorem isBlank_of_isDigit (h : c.isDigit = true) : isBlank c = false := by
  obtain ⟨hlow, hhigh⟩ := Char.isDigit_iff_toNat.mp h
  have hzero : '0'.toNat = 48 := rfl
  have hnine : '9'.toNat = 57 := rfl
  simp only [isBlank, Bool.or_eq_false_iff, Bool.and_eq_false_iff, decide_eq_false_iff_not,
    beq_eq_false_iff_ne]
  omega

/-- The decimal text of an integer has nothing but digits and a sign. -/
theorem mem_toString {n : Int} (h : c ∈ (toString n).toList) : c.isDigit = true ∨ c = '+' ∨ c = '-' := by
  obtain ⟨sign, negative, hsign, htext, -⟩ := toList_toString n
  rw [htext] at h
  rcases List.mem_append.mp h with h | h
  · cases hsign <;> simp_all
  · exact Or.inl (Nat.isDigit_of_mem_toDigits (by decide) (by decide) h)

theorem trim_toString (n : Int) : trim (toString n).toList = (toString n).toList := by
  apply trim_of_not_blank
  intro c hc
  rcases mem_toString hc with hdigit | rfl | rfl
  · exact isBlank_of_isDigit hdigit
  · rfl
  · rfl

/-- An integer of at most 127 bits is read from its decimal text. -/
theorem integer?_toString {n : Int} (max : Int) (h : n.natAbs < 2 ^ 127) :
    integer? (toString n) max = some n := by
  obtain ⟨sign, negative, hsign, htext, hn⟩ := toList_toString n
  have hreads : Reads max (sign ++ Nat.toDigits 10 n.natAbs) _ :=
    .number hsign (readAs_toDigits n.natAbs) (by rwa [numeral_toDigits])
  rw [numeral_toDigits, ← hn, ← htext, ← trim_toString] at hreads
  exact integer?_eq_some.mpr hreads

/-- Integer literals are read as their grammar has it.  An integer is read exactly from the literals of
it, each of which has one base and one list of digits; nothing is read exactly from what is no literal
and from what is too large; and the decimal text of every integer that is not too large is read as this
integer. -/
theorem integer_reads_iff (s : String) (max : Int) :
    (∀ n, integer? s max = some n ↔ Reads max (trim s.toList) n)
    ∧ (∀ cs base base' ds ds', ReadAs cs base ds → ReadAs cs base' ds' → base = base' ∧ ds = ds')
    ∧ (integer? s max = none ↔ trim s.toList ≠ ['*'] ∧ ∀ sign negative cs base digits,
        Sign sign negative → trim s.toList = sign ++ cs → ReadAs cs base digits →
          2 ^ 127 ≤ numeral base digits)
    ∧ (∀ n, trim s.toList ≠ ['*'] → integer? s max = some n → n.natAbs < 2 ^ 127)
    ∧ ∀ n : Int, n.natAbs < 2 ^ 127 → integer? (toString n) max = some n :=
  ⟨fun _ => integer?_eq_some, fun _ _ _ _ _ h h' => h.unique h', integer?_eq_none,
    fun _ => natAbs_lt_of_integer?, fun _ => integer?_toString max⟩

end RecordGraph.Literal
