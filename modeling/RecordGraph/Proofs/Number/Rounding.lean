import Mathlib
import RecordGraph.Number.Binary

/-!
Rounding as a map of real numbers.  A positive real number is rounded on the grid of its size: the units
of the grid are as large as the number allows, and the nearest integer of units is taken.  Along a grid
rounding follows the order of the numbers, and from one grid to the next it does so because a grid ends
where the next one begins; so rounding to a format is monotone, and what has a form in the format is not
changed.
-/

namespace RecordGraph

/-! ### Nearest integers -/

/-- An integer is nearest to a real number, and even where another integer is as near. -/
structure NearestEven (x : ℝ) (n : ℕ) : Prop where
  low : (n : ℝ) - 1 / 2 ≤ x
  high : x ≤ (n : ℝ) + 1 / 2
  even : x = (n : ℝ) - 1 / 2 ∨ x = (n : ℝ) + 1 / 2 → n % 2 = 0

namespace NearestEven

variable {x y : ℝ} {m n : ℕ}

theorem natCast (n : ℕ) : NearestEven (n : ℝ) n where
  low := by linarith
  high := by linarith
  even := by
    rintro (h | h)
    · linarith
    · linarith

/-- Between two neighbours there is one half, which is rounded to one of them. -/
theorem mono (hx : NearestEven x m) (hy : NearestEven y n) (h : x ≤ y) : m ≤ n := by
  by_contra hlt
  have hle : n + 1 ≤ m := by omega
  have hcast : (n : ℝ) + 1 ≤ m := by exact_mod_cast hle
  have hlow := hx.low
  have hhigh := hy.high
  -- the two can only be the half between neighbours, which is not rounded to both of them
  have hm : m % 2 = 0 := hx.even (Or.inl (by linarith))
  have hn : n % 2 = 0 := hy.even (Or.inr (by linarith))
  have hnext : m = n + 1 := by
    have hcast' : (m : ℝ) = (n : ℝ) + 1 := by linarith
    exact_mod_cast hcast'
  omega

theorem le_natCast (hx : NearestEven x m) (h : x ≤ n) : m ≤ n := hx.mono (natCast n) h

theorem natCast_le (hx : NearestEven x m) (h : (n : ℝ) ≤ x) : n ≤ m := (natCast n).mono hx h

end NearestEven

theorem roundHalfEven_nearest (num : ℕ) {den : ℕ} (hden : 0 < den) :
    NearestEven ((num : ℝ) / den) (roundHalfEven num den) := by
  have hpos : (0 : ℝ) < den := by exact_mod_cast hden
  obtain ⟨q, hq⟩ : ∃ q, q = num / den := ⟨_, rfl⟩
  obtain ⟨r, hr⟩ : ∃ r, r = num % den := ⟨_, rfl⟩
  have hnum : (num : ℝ) = den * q + r := by
    rw [hq, hr]
    exact_mod_cast (Nat.div_add_mod num den).symm
  have hratio : (num : ℝ) / den = q + r / den := by
    rw [hnum]
    field_simp
  have hlow : (0 : ℝ) ≤ r / den := by positivity
  have hhigh : (r : ℝ) / den < 1 := by
    rw [div_lt_one hpos, hr]
    exact_mod_cast Nat.mod_lt num hden
  have hless : 2 * r < den ↔ (r : ℝ) / den < 1 / 2 := by
    rw [div_lt_iff₀ hpos, ← Nat.cast_lt (α := ℝ)]
    push_cast
    constructor <;> intro h <;> linarith
  have htie : 2 * r = den ↔ (r : ℝ) / den = 1 / 2 := by
    rw [div_eq_iff hpos.ne', ← Nat.cast_inj (R := ℝ)]
    push_cast
    constructor <;> intro h <;> linarith
  unfold roundHalfEven
  rw [← hq, ← hr, hratio]
  dsimp only
  split
  · rename_i hdown
    have hhalf : (r : ℝ) / den ≤ 1 / 2 := by
      rcases hdown with h | ⟨h, -⟩
      · exact (hless.mp h).le
      · exact (htie.mp h).le
    refine ⟨by linarith, by linarith, ?_⟩
    rintro (h | h)
    · linarith
    · have heven : 2 * r = den := htie.mpr (by linarith)
      omega
  · rename_i hup
    push Not at hup
    have hhalf : 1 / 2 ≤ (r : ℝ) / den := not_lt.mp fun h => absurd (hless.mpr h) (by omega)
    refine ⟨by push_cast; linarith, by push_cast; linarith, ?_⟩
    push_cast
    rintro (h | h)
    · have hodd : q % 2 ≠ 0 := hup.2 (htie.mpr (by linarith))
      omega
    · linarith

/-! ### Powers of two -/

theorem pow_toNat {e : ℤ} (h : 0 ≤ e) : ((Nat.pow 2 e.toNat : ℕ) : ℝ) = (2 : ℝ) ^ e := by
  rw [Nat.pow_eq, Nat.cast_pow, Nat.cast_ofNat, ← zpow_natCast, Int.toNat_of_nonneg h]

theorem pow_toNat_neg {e : ℤ} (h : e < 0) : ((Nat.pow 2 (-e).toNat : ℕ) : ℝ) = ((2 : ℝ) ^ e)⁻¹ := by
  rw [pow_toNat (by omega), zpow_neg]

/-- A power of two that is below a significand is below the number, with what the unit adds. -/
theorem zpow_le_scaled {k m : ℕ} {d e : ℤ} (h : 2 ^ k ≤ m) (hd : d ≤ k + e) :
    (2 : ℝ) ^ d ≤ m * (2 : ℝ) ^ e := by
  have hcast : (2 : ℝ) ^ (k : ℤ) ≤ m := by
    rw [zpow_natCast]
    exact_mod_cast h
  calc (2 : ℝ) ^ d ≤ (2 : ℝ) ^ ((k : ℤ) + e) := zpow_le_zpow_right₀ one_le_two hd
    _ = (2 : ℝ) ^ (k : ℤ) * (2 : ℝ) ^ e := zpow_add₀ two_ne_zero ..
    _ ≤ m * (2 : ℝ) ^ e := by gcongr

theorem natLog2_spec {n : ℕ} (hn : 0 < n) :
    (2 : ℝ) ^ (n.log2 : ℤ) ≤ n ∧ (n : ℝ) < (2 : ℝ) ^ ((n.log2 : ℤ) + 1) := by
  constructor
  · rw [zpow_natCast]
    exact_mod_cast Nat.log2_self_le hn.ne'
  · have hlt : n < 2 ^ (n.log2 + 1) := Nat.lt_log2_self
    rw [← Nat.cast_succ, zpow_natCast]
    exact_mod_cast hlt

/-- The power of two that is greatest at or below a ratio. -/
theorem floorLog2_spec {num den : ℕ} (hnum : 0 < num) (hden : 0 < den) :
    (2 : ℝ) ^ floorLog2 num den ≤ (num : ℝ) / den
      ∧ (num : ℝ) / den < (2 : ℝ) ^ (floorLog2 num den + 1) := by
  have hpos : (0 : ℝ) < den := by exact_mod_cast hden
  obtain ⟨hnumLow, hnumHigh⟩ := natLog2_spec hnum
  obtain ⟨hdenLow, hdenHigh⟩ := natLog2_spec hden
  obtain ⟨a, ha⟩ : ∃ a, a = (num.log2 : ℤ) - (den.log2 : ℤ) := ⟨_, rfl⟩
  have hbelow : (2 : ℝ) ^ (a - 1) ≤ (num : ℝ) / den := by
    rw [le_div_iff₀ hpos]
    calc (2 : ℝ) ^ (a - 1) * den ≤ (2 : ℝ) ^ (a - 1) * (2 : ℝ) ^ ((den.log2 : ℤ) + 1) := by gcongr
      _ = (2 : ℝ) ^ (num.log2 : ℤ) := by
        rw [← zpow_add₀ two_ne_zero]
        congr 1
        omega
      _ ≤ num := hnumLow
  have habove : (num : ℝ) / den < (2 : ℝ) ^ (a + 1) := by
    rw [div_lt_iff₀ hpos]
    calc (num : ℝ) < (2 : ℝ) ^ ((num.log2 : ℤ) + 1) := hnumHigh
      _ = (2 : ℝ) ^ (a + 1) * (2 : ℝ) ^ (den.log2 : ℤ) := by
        rw [← zpow_add₀ two_ne_zero]
        congr 1
        omega
      _ ≤ (2 : ℝ) ^ (a + 1) * den := by gcongr
  have hfits : (if 0 ≤ a then den * Nat.pow 2 a.toNat ≤ num else den ≤ num * Nat.pow 2 (-a).toNat)
      ↔ (2 : ℝ) ^ a ≤ (num : ℝ) / den := by
    rw [le_div_iff₀ hpos]
    split
    · rename_i hsign
      rw [← pow_toNat hsign, mul_comm, ← Nat.cast_mul, Nat.cast_le]
    · rename_i hsign
      have hpow := pow_toNat_neg (not_le.mp hsign)
      rw [← Nat.cast_le (α := ℝ), Nat.cast_mul, hpow, ← div_eq_mul_inv,
        le_div_iff₀ (zpow_pos two_pos a), mul_comm]
  unfold floorLog2
  dsimp only
  rw [← ha]
  by_cases hle : (2 : ℝ) ^ a ≤ (num : ℝ) / den
  · rw [if_pos (hfits.mpr hle)]
    exact ⟨hle, habove⟩
  · rw [if_neg fun h => hle (hfits.mp h), sub_add_cancel]
    exact ⟨hbelow, not_le.mp hle⟩

/-! ### Grids -/

namespace BinaryFormat

variable {f : BinaryFormat} {x y v w : ℝ} {e : ℤ} {m n : ℕ}

/-- Formats in which there is something to round to. -/
structure Proper (f : BinaryFormat) : Prop where
  precision : 0 < f.precision
  exponents : f.minExponent ≤ f.maxExponent

theorem single_proper : single.Proper := ⟨by decide, by decide⟩

theorem double_proper : double.Proper := ⟨by decide, by decide⟩

/-- The grid of a real number in a format has the least unit with which the number fits into the
significand, and the number is rounded to so many of these units. -/
structure Grid (f : BinaryFormat) (x : ℝ) (e : ℤ) (n : ℕ) : Prop where
  least : f.minExponent ≤ e
  fits : x < (2 : ℝ) ^ (e + f.precision)
  tight : e = f.minExponent ∨ (2 : ℝ) ^ (e + f.precision - 1) ≤ x
  nearest : NearestEven (x / (2 : ℝ) ^ e) n

/-- A real number is rounded to another one, which may be too large for the format. -/
def Rounds (f : BinaryFormat) (x v : ℝ) : Prop := ∃ e n, f.Grid x e n ∧ v = n * (2 : ℝ) ^ e

theorem Grid.le_pow (h : f.Grid x e n) : n ≤ 2 ^ f.precision := by
  apply h.nearest.le_natCast
  rw [div_le_iff₀ (zpow_pos two_pos e), Nat.cast_pow, Nat.cast_ofNat, ← zpow_natCast,
    ← zpow_add₀ two_ne_zero, add_comm]
  exact h.fits.le

theorem Grid.pow_le (h : f.Grid x e n) (hp : 0 < f.precision) (hne : e ≠ f.minExponent) :
    2 ^ (f.precision - 1) ≤ n := by
  apply h.nearest.natCast_le
  have hexponent : ((f.precision - 1 : ℕ) : ℤ) + e = e + f.precision - 1 := by omega
  rw [le_div_iff₀ (zpow_pos two_pos e), Nat.cast_pow, Nat.cast_ofNat, ← zpow_natCast,
    ← zpow_add₀ two_ne_zero, hexponent]
  exact h.tight.resolve_left hne

/-- A grid ends where the next one begins. -/
theorem Grid.exponent_mono {d : ℤ} (hx : f.Grid x e n) (hy : f.Grid y d m) (h : x ≤ y) : e ≤ d := by
  by_contra hlt
  have htight := hx.tight.resolve_left (by have := hy.least; omega)
  have hcross : x < x := by
    calc x ≤ y := h
      _ < (2 : ℝ) ^ (d + f.precision) := hy.fits
      _ ≤ (2 : ℝ) ^ (e + f.precision - 1) := zpow_le_zpow_right₀ one_le_two (by omega)
      _ ≤ x := htight
  exact absurd hcross (lt_irrefl x)

/-- Rounding follows the order of the numbers. -/
theorem Rounds.mono (hp : 0 < f.precision) (hx : f.Rounds x v) (hy : f.Rounds y w) (h : x ≤ y) :
    v ≤ w := by
  obtain ⟨e, n, hx, rfl⟩ := hx
  obtain ⟨d, m, hy, rfl⟩ := hy
  rcases (hx.exponent_mono hy h).lt_or_eq with hlt | rfl
  -- on a later grid nothing is below the end of the first one
  · have hn : (n : ℝ) ≤ (2 : ℝ) ^ (f.precision : ℤ) := by
      rw [zpow_natCast]
      exact_mod_cast hx.le_pow
    have hm : 2 ^ (f.precision - 1) ≤ m := hy.pow_le hp (by have := hx.least; omega)
    calc (n : ℝ) * (2 : ℝ) ^ e ≤ (2 : ℝ) ^ (f.precision : ℤ) * (2 : ℝ) ^ e := by gcongr
      _ = (2 : ℝ) ^ (f.precision + e) := by rw [← zpow_add₀ two_ne_zero]
      _ ≤ m * (2 : ℝ) ^ d := zpow_le_scaled hm (by omega)
  · have hle : n ≤ m := hx.nearest.mono hy.nearest (by gcongr)
    gcongr

/-- The grid of a number that has a form in the format is that of the form. -/
theorem Admits.grid (h : f.Admits m e) : f.Grid (m * (2 : ℝ) ^ e) e m := by
  obtain ⟨hfits, hleast, -, htight⟩ := h
  rw [Nat.pow_eq] at hfits htight
  have hpow : (0 : ℝ) < (2 : ℝ) ^ e := zpow_pos two_pos e
  refine ⟨hleast, ?_, htight.symm.imp id fun hm => zpow_le_scaled hm (by omega), ?_⟩
  · rw [zpow_add₀ two_ne_zero, mul_comm, zpow_natCast]
    gcongr
    exact_mod_cast hfits
  · rw [mul_div_cancel_right₀ _ hpow.ne']
    exact .natCast m

theorem Admits.lt_limit (h : f.Admits m e) :
    (m : ℝ) * (2 : ℝ) ^ e < (2 : ℝ) ^ (f.maxExponent + f.precision) := by
  have hgreatest := h.2.2.1
  exact h.grid.fits.trans_le (zpow_le_zpow_right₀ one_le_two (by omega))

/-- A number that has a form in the format is rounded to itself. -/
theorem Admits.rounds (h : f.Admits m e) : f.Rounds (m * (2 : ℝ) ^ e) (m * (2 : ℝ) ^ e) :=
  ⟨e, m, h.grid, rfl⟩

/-- A number has one form in a format. -/
theorem Admits.unique {d : ℤ} (h : f.Admits m e) (h' : f.Admits n d)
    (heq : (m : ℝ) * (2 : ℝ) ^ e = n * (2 : ℝ) ^ d) : m = n ∧ e = d := by
  obtain rfl : e = d :=
    le_antisymm (h.grid.exponent_mono h'.grid heq.le) (h'.grid.exponent_mono h.grid heq.ge)
  refine ⟨?_, rfl⟩
  exact_mod_cast mul_right_cancel₀ (zpow_pos two_pos e).ne' heq

/-- Every format rounds zero to zero. -/
theorem Rounds.eq_zero (h : f.Rounds 0 v) : v = 0 := by
  obtain ⟨e, n, hgrid, rfl⟩ := h
  have hn : n ≤ 0 := hgrid.nearest.le_natCast (by simp)
  simp [Nat.le_zero.mp hn]

end BinaryFormat

/-! ### Numbers as real numbers -/

namespace Binary

open BinaryFormat

variable {f g : BinaryFormat} {x y : Binary f} {negative : Bool} {num den : ℕ}

/-- Whether a number has a minus; `nan` has none. -/
def isNegative : Binary f → Bool
  | .nan => false
  | .infinite s => s
  | .finite s _ _ _ => s

/-- The size of a number; that of `nan` does not matter. -/
noncomputable def size : Binary f → EReal
  | .nan => 0
  | .infinite _ => ⊤
  | .finite _ m e _ => ((m * (2 : ℝ) ^ e : ℝ) : EReal)

/-- The extended real number that a number stands for; that of `nan` does not matter. -/
noncomputable def real (x : Binary f) : EReal := if x.isNegative then -x.size else x.size

/-- The number of a format with a significand that may be just too large for it. -/
def pack (f : BinaryFormat) (negative : Bool) (q : ℕ) (e : ℤ) : Binary f :=
  let (m, e) := if q = Nat.pow 2 f.precision then (Nat.pow 2 (f.precision - 1), e + 1) else (q, e)
  if h : f.Admits m e then .finite negative m e h else .infinite negative

/-- Units of any size are counted by shifting the ratio. -/
theorem nearest_shifted (e : ℤ) (hden : 0 < den) :
    NearestEven ((num : ℝ) / den / (2 : ℝ) ^ e)
      (if 0 ≤ e then roundHalfEven num (den * Nat.pow 2 e.toNat)
        else roundHalfEven (num * Nat.pow 2 (-e).toNat) den) := by
  split
  · rename_i hsign
    have hpow : 0 < Nat.pow 2 e.toNat := Nat.pow_pos two_pos
    have hnearest := roundHalfEven_nearest num (Nat.mul_pos hden hpow)
    rwa [Nat.cast_mul, pow_toNat hsign, ← div_div] at hnearest
  · rename_i hsign
    have hnearest := roundHalfEven_nearest (num * Nat.pow 2 (-e).toNat) hden
    rwa [Nat.cast_mul, pow_toNat_neg (not_le.mp hsign), mul_div_right_comm, ← div_eq_mul_inv]
      at hnearest

/-- A ratio is rounded on its grid. -/
theorem exists_grid_ofRatio (negative : Bool) (num : ℕ) (hden : 0 < den) :
    ∃ e n, f.Grid ((num : ℝ) / den) e n ∧ ofRatio f negative num den = pack f negative n e := by
  obtain ⟨e, he⟩ : ∃ e, e = if num = 0 then f.minExponent
    else max f.minExponent (floorLog2 num den - (f.precision : ℤ) + 1) := ⟨_, rfl⟩
  have hgrid : f.minExponent ≤ e ∧ (num : ℝ) / den < (2 : ℝ) ^ (e + f.precision)
      ∧ (e = f.minExponent ∨ (2 : ℝ) ^ (e + f.precision - 1) ≤ (num : ℝ) / den) := by
    rcases Nat.eq_zero_or_pos num with rfl | hnum
    · rw [if_pos rfl] at he
      exact ⟨he.ge, by simp [zpow_pos], Or.inl he⟩
    · rw [if_neg hnum.ne'] at he
      obtain ⟨hlow, hhigh⟩ := floorLog2_spec hnum hden
      refine ⟨by omega, hhigh.trans_le (zpow_le_zpow_right₀ one_le_two (by omega)), ?_⟩
      by_cases hleast : e = f.minExponent
      · exact Or.inl hleast
      · exact Or.inr ((zpow_le_zpow_right₀ one_le_two (by omega)).trans hlow)
  exact ⟨e, _, ⟨hgrid.1, hgrid.2.1, hgrid.2.2, nearest_shifted e hden⟩, by rw [he]; rfl⟩

/-- What rounding to a number of some size gives: what is too large for the format is infinite. -/
inductive Packs (f : BinaryFormat) (negative : Bool) (v : ℝ) : Binary f → Prop
  | finite {m : ℕ} {e : ℤ} (h : f.Admits m e) (hv : v = m * (2 : ℝ) ^ e) :
      Packs f negative v (.finite negative m e h)
  | infinite (hlarge : (2 : ℝ) ^ (f.maxExponent + f.precision) ≤ v) : Packs f negative v (.infinite negative)

theorem packs_of_tight {m : ℕ} {e : ℤ} (hf : f.Proper)
    (hfits : m < Nat.pow 2 f.precision) (hleast : f.minExponent ≤ e)
    (htight : Nat.pow 2 (f.precision - 1) ≤ m ∨ e = f.minExponent) :
    Packs f negative (m * (2 : ℝ) ^ e)
      (if h : f.Admits m e then .finite negative m e h else .infinite negative) := by
  by_cases h : f.Admits m e
  · rw [dif_pos h]
    exact .finite h rfl
  · rw [dif_neg h]
    have hlarge : f.maxExponent < e := by
      by_contra hle
      exact h ⟨hfits, hleast, not_lt.mp hle, htight⟩
    have hm : 2 ^ (f.precision - 1) ≤ m := htight.resolve_right (hf.exponents.trans_lt hlarge).ne'
    exact .infinite (zpow_le_scaled hm (by omega))

theorem packs_pack {x : ℝ} {e : ℤ} {n : ℕ} (hf : f.Proper) (h : f.Grid x e n) :
    Packs f negative (n * (2 : ℝ) ^ e) (pack f negative n e) := by
  unfold pack
  by_cases hn : n = Nat.pow 2 f.precision
  · have hvalue : (n : ℝ) * (2 : ℝ) ^ e = (Nat.pow 2 (f.precision - 1) : ℕ) * (2 : ℝ) ^ (e + 1) := by
      have hpow : Nat.pow 2 f.precision = 2 * Nat.pow 2 (f.precision - 1) := by
        rw [Nat.pow_eq, Nat.pow_eq, ← Nat.pow_succ', Nat.succ_eq_add_one, Nat.sub_add_cancel hf.precision]
      rw [hn, hpow, zpow_add_one₀ two_ne_zero]
      push_cast
      ring
    rw [if_pos hn, hvalue]
    have hless : Nat.pow 2 (f.precision - 1) < Nat.pow 2 f.precision :=
      Nat.pow_lt_pow_right one_lt_two (Nat.sub_lt hf.precision one_pos)
    exact packs_of_tight hf hless (by have := h.least; omega) (Or.inl le_rfl)
  · rw [if_neg hn]
    have hless : n < Nat.pow 2 f.precision := lt_of_le_of_ne h.le_pow hn
    refine packs_of_tight hf hless h.least ?_
    by_cases hleast : e = f.minExponent
    · exact Or.inr hleast
    · exact Or.inl (h.pow_le hf.precision hleast)

/-- A number of one format in another one: its size is rounded, and what is too large is infinite. -/
theorem exists_packs_convert (hg : g.Proper) (negative : Bool) {m : ℕ} {e : ℤ} (h : f.Admits m e) :
    ∃ v, g.Rounds (m * (2 : ℝ) ^ e) v
      ∧ Packs g negative v ((finite negative m e h : Binary f).convert g) := by
  have hratio : ∃ num den : ℕ, 0 < den ∧ (num : ℝ) / den = m * (2 : ℝ) ^ e
      ∧ (finite negative m e h : Binary f).convert g = ofRatio g negative num den := by
    by_cases hsign : 0 ≤ e
    · refine ⟨m * Nat.pow 2 e.toNat, 1, one_pos, ?_, by rw [convert, if_pos hsign]⟩
      rw [Nat.cast_mul, pow_toNat hsign, Nat.cast_one, div_one]
    · refine ⟨m, Nat.pow 2 (-e).toNat, Nat.pow_pos two_pos, ?_, by rw [convert, if_neg hsign]⟩
      rw [pow_toNat_neg (not_le.mp hsign), div_inv_eq_mul]
  obtain ⟨num, den, hden, hvalue, heq⟩ := hratio
  obtain ⟨d, n, hgrid, hpack⟩ := exists_grid_ofRatio (f := g) negative num hden
  rw [heq, hpack, ← hvalue]
  exact ⟨_, ⟨d, n, hgrid, rfl⟩, packs_pack hg hgrid⟩

/-! ### Order -/

theorem size_nonneg (x : Binary f) : 0 ≤ x.size := by
  cases x with
  | nan => exact le_rfl
  | infinite s => exact le_top
  | finite s m e h =>
    apply EReal.coe_nonneg.mpr
    positivity

theorem neg_size_nonpos (x : Binary f) : -x.size ≤ 0 := by
  simpa using size_nonneg x

theorem scaled_mul (s : Bool) (m : ℕ) {e unit : ℤ} (h : unit ≤ e) :
    ((scaled s m e unit : ℤ) : ℝ) * (2 : ℝ) ^ unit
      = if s then -(m * (2 : ℝ) ^ e) else m * (2 : ℝ) ^ e := by
  have hpow : ((Nat.pow 2 (e - unit).toNat : ℕ) : ℝ) * (2 : ℝ) ^ unit = (2 : ℝ) ^ e := by
    rw [pow_toNat (by omega), ← zpow_add₀ two_ne_zero, sub_add_cancel]
  unfold scaled
  rw [← hpow]
  split
  · push_cast
    ring
  · push_cast
    ring

theorem real_finite (s : Bool) (m : ℕ) (e : ℤ) (h : f.Admits m e) :
    (finite s m e h : Binary f).real
      = ((if s then -(m * (2 : ℝ) ^ e) else m * (2 : ℝ) ^ e : ℝ) : EReal) := by
  cases s
  · rfl
  · exact (EReal.coe_neg _).symm

@[simp] theorem real_infinite (s : Bool) :
    (infinite s : Binary f).real = if s then ⊥ else ⊤ := by
  cases s <;> simp [real, size, isNegative]

/-- The order of numbers is that of the real numbers they stand for. -/
theorem le_iff : x.le y = true ↔ x ≠ .nan ∧ y ≠ .nan ∧ x.real ≤ y.real := by
  cases x with
  | nan => simp [le]
  | infinite s =>
    cases y with
    | nan => simp [le]
    | infinite t => cases s <;> cases t <;> simp [le]
    | finite t n d h' => cases s <;> simp [le, real_finite]
  | finite s m e h =>
    cases y with
    | nan => simp [le]
    | infinite t => cases t <;> simp [le, real_finite]
    | finite t n d h' =>
      have hpow : (0 : ℝ) < (2 : ℝ) ^ min e d := zpow_pos two_pos _
      have hle : scaled s m e (min e d) ≤ scaled t n d (min e d)
          ↔ (finite s m e h : Binary f).real ≤ (finite t n d h' : Binary f).real := by
        rw [real_finite, real_finite, EReal.coe_le_coe_iff, ← scaled_mul s m (min_le_left e d),
          ← scaled_mul t n (min_le_right e d), mul_le_mul_iff_left₀ hpow, Int.cast_le]
      simp [le, hle]

theorem lt_iff : x.lt y = true ↔ x ≠ .nan ∧ y ≠ .nan ∧ x.real < y.real := by
  simp only [lt, Bool.and_eq_true, Bool.not_eq_true', Bool.eq_false_iff, ne_eq, le_iff]
  constructor
  · rintro ⟨⟨hx, hy, -⟩, hnot⟩
    exact ⟨hx, hy, not_le.mp fun hle => hnot ⟨hy, hx, hle⟩⟩
  · rintro ⟨hx, hy, hlt⟩
    exact ⟨⟨hx, hy, hlt.le⟩, fun ⟨_, _, hle⟩ => absurd hle (not_le.mpr hlt)⟩

theorem equal_iff : x.equal y = true ↔ x ≠ .nan ∧ y ≠ .nan ∧ x.real = y.real := by
  simp only [equal, Bool.and_eq_true, le_iff]
  constructor
  · rintro ⟨⟨hx, hy, hle⟩, -, -, hge⟩
    exact ⟨hx, hy, le_antisymm hle hge⟩
  · rintro ⟨hx, hy, heq⟩
    exact ⟨⟨hx, hy, heq.le⟩, hy, hx, heq.ge⟩

@[simp] theorem real_negate (x : Binary f) : x.negate.real = -x.real := by
  cases x with
  | nan => simp [negate, real, size, isNegative]
  | infinite s => cases s <;> simp [negate]
  | finite s m e h => cases s <;> simp [negate, real, size, isNegative]

theorem negate_ne_nan (h : x ≠ .nan) : x.negate ≠ .nan := by
  cases x with
  | nan => exact absurd rfl h
  | _ => simp [negate]

theorem real_le_size (x : Binary f) : x.real ≤ x.size := by
  unfold real
  split
  · exact (neg_size_nonpos x).trans (size_nonneg x)
  · exact le_rfl

theorem neg_size_le_real (x : Binary f) : -x.size ≤ x.real := by
  unfold real
  split
  · exact le_rfl
  · exact (neg_size_nonpos x).trans (size_nonneg x)

/-- No finite number is larger than the greatest significand with the greatest exponent. -/
theorem size_le_greatest (h : x.isFinite = true) :
    x.size ≤ (((Nat.pow 2 f.precision - 1 : ℕ) * (2 : ℝ) ^ f.maxExponent : ℝ) : EReal) := by
  cases x with
  | nan => cases h
  | infinite s => cases h
  | finite s m e hm =>
    obtain ⟨hfits, -, hgreatest, -⟩ := hm
    have hle : m ≤ Nat.pow 2 f.precision - 1 := Nat.le_sub_one_of_lt hfits
    apply EReal.coe_le_coe_iff.mpr
    gcongr
    exact one_le_two

/-! ### Conversion -/

theorem Packs.ne_nan {v : ℝ} (h : Packs f negative v x) : x ≠ .nan := by
  cases h <;> simp

theorem Packs.isNegative_eq {v : ℝ} (h : Packs f negative v x) : x.isNegative = negative := by
  cases h <;> rfl

/-- Greater sizes are packed into greater numbers. -/
theorem Packs.size_mono {s t : Bool} {v w : ℝ} (hx : Packs f s v x) (hy : Packs f t w y) (h : v ≤ w) :
    x.size ≤ y.size := by
  cases hy with
  | infinite => exact le_top
  | @finite n d hadmits hw =>
    cases hx with
    | finite hadmits' hv =>
      apply EReal.coe_le_coe_iff.mpr
      rwa [← hv, ← hw]
    | infinite hlarge =>
      exact absurd (hlarge.trans h) (not_le.mpr (hw ▸ hadmits.lt_limit))

theorem convert_ne_nan (hg : g.Proper) (hx : x ≠ .nan) : x.convert g ≠ .nan := by
  cases x with
  | nan => exact absurd rfl hx
  | infinite s => simp [convert]
  | finite s m e h =>
    obtain ⟨v, -, hpacks⟩ := exists_packs_convert hg s h
    exact hpacks.ne_nan

/-- Conversion keeps the sign. -/
theorem isNegative_convert (hg : g.Proper) (x : Binary f) :
    (x.convert g).isNegative = x.isNegative := by
  cases x with
  | nan => rfl
  | infinite s => rfl
  | finite s m e h =>
    obtain ⟨v, -, hpacks⟩ := exists_packs_convert hg s h
    exact hpacks.isNegative_eq

theorem size_convert_mono (hg : g.Proper) (hx : x ≠ .nan) (hy : y ≠ .nan) (h : x.size ≤ y.size) :
    (x.convert g).size ≤ (y.convert g).size := by
  cases y with
  | nan => exact absurd rfl hy
  | infinite t => exact le_top
  | finite t n d hn =>
    cases x with
    | nan => exact absurd rfl hx
    | infinite s => exact absurd h (not_le.mpr (EReal.coe_lt_top _))
    | finite s m e hm =>
      obtain ⟨v, hv, hpacks⟩ := exists_packs_convert hg s hm
      obtain ⟨w, hw, hpacks'⟩ := exists_packs_convert hg t hn
      exact hpacks.size_mono hpacks' (hv.mono hg.precision hw (EReal.coe_le_coe_iff.mp h))

theorem Packs.size_zero (h : Packs f negative 0 x) : x.size = 0 := by
  cases h with
  | finite h hv => rw [size, ← hv, EReal.coe_zero]
  | infinite hlarge => exact absurd hlarge (not_le.mpr (zpow_pos two_pos _))

theorem size_convert_zero (hg : g.Proper) (hx : x ≠ .nan) (h : x.size = 0) :
    (x.convert g).size = 0 := by
  cases x with
  | nan => exact absurd rfl hx
  | infinite s => exact absurd h EReal.top_ne_zero
  | finite s m e hm =>
    obtain ⟨v, hv, hpacks⟩ := exists_packs_convert hg s hm
    rw [EReal.coe_eq_zero.mp h] at hv
    rw [hv.eq_zero] at hpacks
    exact hpacks.size_zero

/-- Conversion follows the order of the numbers. -/
theorem real_convert_mono (hg : g.Proper) (hx : x ≠ .nan) (hy : y ≠ .nan) (h : x.real ≤ y.real) :
    (x.convert g).real ≤ (y.convert g).real := by
  unfold real at h ⊢
  rw [isNegative_convert hg, isNegative_convert hg]
  cases hsx : x.isNegative <;> cases hsy : y.isNegative <;> rw [hsx, hsy] at h
  · exact size_convert_mono hg hx hy h
  · -- Without a minus and at most a number with a minus there is only zero.
    have hx0 : x.size = 0 := le_antisymm (h.trans (neg_size_nonpos y)) (size_nonneg x)
    have hy0 : y.size = 0 := by
      have hle : 0 ≤ -y.size := (size_nonneg x).trans h
      exact le_antisymm (by simpa using hle) (size_nonneg y)
    simp [size_convert_zero hg hx hx0, size_convert_zero hg hy hy0]
  · exact (neg_size_nonpos _).trans (size_nonneg _)
  · exact EReal.neg_le_neg_iff.mpr (size_convert_mono hg hy hx (EReal.neg_le_neg_iff.mp h))

/-- A number that has a form in another format is converted to this form. -/
theorem convert_of_admits (hg : g.Proper) (s : Bool) {m n : ℕ} {e d : ℤ} (h : f.Admits m e)
    (h' : g.Admits n d) (heq : (m : ℝ) * (2 : ℝ) ^ e = n * (2 : ℝ) ^ d) :
    (finite s m e h : Binary f).convert g = finite s n d h' := by
  obtain ⟨v, hv, hpacks⟩ := exists_packs_convert hg s h
  have hself := h'.rounds
  rw [heq] at hv
  obtain rfl : v = n * (2 : ℝ) ^ d :=
    le_antisymm (hv.mono hg.precision hself le_rfl) (hself.mono hg.precision hv le_rfl)
  generalize (finite s m e h : Binary f).convert g = y at hpacks
  cases hpacks with
  | finite h'' hv' =>
    obtain ⟨rfl, rfl⟩ := h'.unique h'' hv'
    rfl
  | infinite hlarge => exact absurd hlarge (not_le.mpr h'.lt_limit)

end Binary

/-! ### Wider formats -/

namespace BinaryFormat

variable {f g : BinaryFormat} {m : ℕ} {e : ℤ}

/-- A format that has every number of another one. -/
structure Within (f g : BinaryFormat) : Prop where
  precision : f.precision ≤ g.precision
  least : g.minExponent + g.precision ≤ f.minExponent + 1
  greatest : f.maxExponent ≤ g.maxExponent

theorem single_within_double : single.Within double := ⟨by decide, by decide, by decide⟩

/-- In a wider format the significand is shifted as far as it goes. -/
theorem Within.exists_admits (hg : g.Proper) (h : f.Within g) (hm : f.Admits m e) :
    ∃ n d, g.Admits n d ∧ (m : ℝ) * (2 : ℝ) ^ e = n * (2 : ℝ) ^ d := by
  obtain ⟨hfits, hleast, hgreatest, -⟩ := hm
  have hprecision := h.precision
  have hleast' := h.least
  have hgreatest' := h.greatest
  rw [Nat.pow_eq] at hfits
  rcases Nat.eq_zero_or_pos m with rfl | hpos
  · exact ⟨0, g.minExponent, ⟨Nat.pow_pos two_pos, le_rfl, hg.exponents, Or.inr rfl⟩, by simp⟩
  · have hlog : m.log2 < f.precision := (Nat.log2_lt hpos.ne').mpr hfits
    obtain ⟨i, hi⟩ : ∃ i, i + m.log2 + 1 = g.precision := ⟨g.precision - 1 - m.log2, by omega⟩
    have hlow : 2 ^ m.log2 ≤ m := Nat.log2_self_le hpos.ne'
    have hhigh : m < 2 ^ (m.log2 + 1) := Nat.lt_log2_self
    refine ⟨m * 2 ^ i, e - i, ⟨?_, by omega, by omega, Or.inl ?_⟩, ?_⟩
    · calc m * 2 ^ i < 2 ^ (m.log2 + 1) * 2 ^ i := by gcongr
        _ = Nat.pow 2 g.precision := by
          rw [← Nat.pow_add, Nat.pow_eq, ← hi]
          congr 1
          omega
    · calc Nat.pow 2 (g.precision - 1) = 2 ^ m.log2 * 2 ^ i := by
            rw [← Nat.pow_add, Nat.pow_eq, ← hi]
            congr 1
            omega
        _ ≤ m * 2 ^ i := by gcongr
    · rw [zpow_sub₀ two_ne_zero, zpow_natCast]
      push_cast
      field_simp

end BinaryFormat

namespace Binary

open BinaryFormat

variable {f g : BinaryFormat}

/-- What is widened and narrowed again is the number from before. -/
theorem convert_convert (hf : f.Proper) (hg : g.Proper) (h : f.Within g) (x : Binary f) :
    (x.convert g).convert f = x := by
  cases x with
  | nan => rfl
  | infinite s => rfl
  | finite s m e hm =>
    obtain ⟨n, d, hn, heq⟩ := h.exists_admits hg hm
    rw [convert_of_admits hg s hm hn heq, convert_of_admits hf s hn hm heq.symm]

/-- Widening is exact. -/
theorem real_convert_within (hg : g.Proper) (h : f.Within g) (x : Binary f) :
    (x.convert g).real = x.real := by
  cases x with
  | nan => rfl
  | infinite s => cases s <;> rfl
  | finite s m e hm =>
    obtain ⟨n, d, hn, heq⟩ := h.exists_admits hg hm
    rw [convert_of_admits hg s hm hn heq, real_finite, real_finite, heq]

end Binary

end RecordGraph
