import Mathlib.Logic.Function.Iterate
import RecordGraph.Pattern

/-!
What patterns match.  A pattern relates the places of a text: where a match may start, and where it may
end then.  Matching computes the image of a list of places under this relation.  A match never goes back,
so that a repetition with more steps than the text has characters stands still in one of them, and could
stand still there any number of times; this is why higher counts make no difference.
-/

namespace RecordGraph.Pattern

/-- A number of steps of a relation, one after the other. -/
def Times (R : Nat → Nat → Prop) : Nat → Nat → Nat → Prop
  | 0, p, q => p = q
  | k + 1, p, q => ∃ r, R p r ∧ Times R k r q

/-- A relation goes forward, and at most to the end of a text with `n` characters. -/
def Forward (n : Nat) (R : Nat → Nat → Prop) : Prop := ∀ p q, R p q → p ≤ q ∧ q ≤ max p n

namespace Node

/-- A match of a pattern in a text may start at one place and end at another one. -/
def Matches (text : Array Char) : Node → Nat → Nat → Prop
  | .empty, p, q => p = q
  | .one s, p, q => q = p + 1 ∧ ∃ c, text[p]? = some c ∧ s.contains c = true
  | .look l, p, q => p = q ∧ l.holds text p = true
  | .seq a b, p, q => ∃ r, a.Matches text p r ∧ b.Matches text r q
  | .alt a b, p, q => a.Matches text p q ∨ b.Matches text p q
  | .repeated a min max, p, q =>
    ∃ k, min ≤ k ∧ (∀ m ∈ max, k ≤ Max.max min m) ∧ Times (a.Matches text) k p q

end Node

/-! ### Steps -/

section Times

variable {R : Nat → Nat → Prop} {j k m n p q r : Nat}

theorem times_add_iff : Times R (j + k) p q ↔ ∃ r, Times R j p r ∧ Times R k r q := by
  induction j generalizing p with
  | zero => simp [Times]
  | succ j ih =>
    rw [Nat.succ_add]
    simp only [Times, ih]
    constructor
    · rintro ⟨s, hs, r, hr, hq⟩
      exact ⟨r, ⟨s, hs, hr⟩, hq⟩
    · rintro ⟨r, ⟨s, hs, hr⟩, hq⟩
      exact ⟨s, hs, r, hr, hq⟩

/-- Standing still any number of times. -/
theorem times_still (h : R p p) (k : Nat) : Times R k p p := by
  induction k with
  | zero => rfl
  | succ k ih => exact ⟨p, h, ih⟩

/-- Steps that may also be left out are some of these steps. -/
theorem times_or_iff : Times (fun p q => p = q ∨ R p q) k p q ↔ ∃ j ≤ k, Times R j p q := by
  induction k generalizing p with
  | zero =>
    constructor
    · exact fun h => ⟨0, Nat.le_refl 0, h⟩
    · rintro ⟨j, hj, h⟩
      obtain rfl := Nat.le_zero.mp hj
      exact h
  | succ k ih =>
    simp only [Times, ih]
    constructor
    · rintro ⟨r, rfl | hr, j, hj, h⟩
      · exact ⟨j, Nat.le_succ_of_le hj, h⟩
      · exact ⟨j + 1, Nat.succ_le_succ hj, r, hr, h⟩
    · rintro ⟨j, hj, h⟩
      cases j with
      | zero => exact ⟨p, .inl rfl, 0, Nat.zero_le k, h⟩
      | succ j =>
        obtain ⟨r, hr, h⟩ := h
        exact ⟨r, .inr hr, j, Nat.le_of_succ_le_succ hj, h⟩

/-- One relation after another one. -/
theorem Forward.comp {S : Nat → Nat → Prop} (hR : Forward n R) (hS : Forward n S) :
    Forward n fun p q => ∃ r, R p r ∧ S r q := by
  rintro p q ⟨r, hr, hq⟩
  obtain ⟨hpr, hrn⟩ := hR p r hr
  obtain ⟨hrq, hqn⟩ := hS r q hq
  exact ⟨Nat.le_trans hpr hrq, Nat.le_trans hqn (Nat.max_le.mpr ⟨hrn, Nat.le_max_right p n⟩)⟩

theorem Forward.times (hR : Forward n R) (k : Nat) : Forward n (Times R k) := by
  induction k with
  | zero =>
    rintro p _ rfl
    exact ⟨Nat.le_refl p, Nat.le_max_left p n⟩
  | succ k ih => exact hR.comp ih

theorem Forward.sub_le (hR : Forward n R) (h : R p q) : q - p ≤ n := by
  obtain ⟨-, hq⟩ := hR p q h
  omega

/-- The steps that stand still can be left out. -/
theorem Forward.compress (hR : Forward n R) (h : Times R k p q) :
    ∃ j, j ≤ k ∧ j ≤ q - p ∧ Times R j p q := by
  induction k generalizing p with
  | zero => exact ⟨0, Nat.le_refl 0, Nat.zero_le _, h⟩
  | succ k ih =>
    obtain ⟨r, hr, hq⟩ := h
    obtain ⟨j, hjk, hjq, hj⟩ := ih hq
    have hpr := (hR p r hr).1
    have hrq := (hR.times k r q hq).1
    rcases Nat.eq_or_lt_of_le hpr with rfl | hlt
    · exact ⟨j, Nat.le_succ_of_le hjk, hjq, hj⟩
    · exact ⟨j + 1, Nat.succ_le_succ hjk, by omega, r, hr, hj⟩

/-- More steps than there are places to pass stand still somewhere, and may do so more or less often. -/
theorem Forward.pump (hR : Forward n R) (h : Times R k p q) (hk : q - p < k) (hm : q - p ≤ m) :
    Times R m p q := by
  induction k generalizing p m with
  | zero => exact absurd hk (Nat.not_lt_zero _)
  | succ k ih =>
    obtain ⟨r, hr, hq⟩ := h
    have hpr := (hR p r hr).1
    have hrq := (hR.times k r q hq).1
    rcases Nat.eq_or_lt_of_le hpr with rfl | hlt
    · obtain ⟨j, -, hjq, hj⟩ := hR.compress hq
      obtain ⟨i, rfl⟩ := Nat.exists_eq_add_of_le' (Nat.le_trans hjq hm)
      exact times_add_iff.mpr ⟨p, times_still hr i, hj⟩
    · cases m with
      | zero => omega
      | succ m => exact ⟨r, hr, ih hq (by omega) (by omega)⟩

/-- Steps beyond the length of the text make no difference. -/
theorem Forward.times_min_iff (hR : Forward n R) :
    Times R (min k (n + 1)) p q ↔ Times R k p q := by
  by_cases hk : k ≤ n + 1
  · rw [Nat.min_eq_left hk]
  · have hpump : ∀ i j, n < i → n < j → Times R i p q → Times R j p q := fun i j hi hj h => by
      have hsub := (hR.times i).sub_le h
      exact hR.pump h (by omega) (by omega)
    rw [Nat.min_eq_right (Nat.le_of_not_le hk)]
    exact ⟨hpump _ _ (Nat.lt_succ_self n) (by omega), hpump _ _ (by omega) (Nat.lt_succ_self n)⟩

/-- Any number of steps, up to a bound, reaches what as many as the text has characters reach. -/
theorem Forward.exists_times_iff (hR : Forward n R) (least : Nat) (most : Option Nat) :
    (∃ j ≤ match most with
        | some m => Nat.min (m - least) (n + 1)
        | none => n + 1, Times R j p q)
      ↔ ∃ j, (∀ m ∈ most, j ≤ m - least) ∧ Times R j p q := by
  constructor
  · rintro ⟨j, hj, h⟩
    refine ⟨j, fun m hm => ?_, h⟩
    obtain rfl := Option.mem_def.mp hm
    exact Nat.le_trans hj (Nat.min_le_left _ _)
  · rintro ⟨k, hmost, h⟩
    obtain ⟨j, hjk, hjq, hj⟩ := hR.compress h
    have hsub := (hR.times j).sub_le hj
    refine ⟨j, ?_, hj⟩
    cases most with
    | none => exact Nat.le_succ_of_le (Nat.le_trans hjq hsub)
    | some m =>
      exact Nat.le_min.mpr ⟨Nat.le_trans hjk (hmost m rfl), Nat.le_succ_of_le (Nat.le_trans hjq hsub)⟩

theorem iterate_eq (f : List Nat → List Nat) (k : Nat) (ps : List Nat) : iterate f k ps = f^[k] ps := by
  induction k generalizing ps with
  | zero => rfl
  | succ k ih =>
    rw [iterate]
    split
    · rename_i hsame
      exact (Function.iterate_fixed hsame (k + 1)).symm
    · exact ih (f ps)

/-- A function that computes images under a relation computes them step by step. -/
theorem mem_iterate_iff {f : List Nat → List Nat} (hf : ∀ ps q, q ∈ f ps ↔ ∃ p ∈ ps, R p q)
    {ps : List Nat} : q ∈ iterate f k ps ↔ ∃ p ∈ ps, Times R k p q := by
  rw [iterate_eq]
  induction k generalizing ps with
  | zero => simp [Times]
  | succ k ih =>
    rw [Function.iterate_succ_apply, ih]
    simp only [hf, Times]
    constructor
    · rintro ⟨r, ⟨p, hp, hr⟩, hq⟩
      exact ⟨p, hp, r, hr, hq⟩
    · rintro ⟨p, hp, r, hr, hq⟩
      exact ⟨r, ⟨p, hp, hr⟩, hq⟩

end Times

/-! ### Matches -/

theorem mem_mergePositions {ps qs : List Nat} {q : Nat} :
    q ∈ mergePositions ps qs ↔ q ∈ ps ∨ q ∈ qs := by
  unfold mergePositions
  by_cases hq : q ∈ ps <;> simp [hq]

namespace Node

variable {text : Array Char}

theorem forward_matches (node : Node) : Forward text.size (node.Matches text) := by
  induction node with
  | empty =>
    rintro p _ rfl
    exact ⟨Nat.le_refl p, Nat.le_max_left p _⟩
  | one s =>
    rintro p _ ⟨rfl, c, hc, -⟩
    obtain ⟨hlt, -⟩ := Array.getElem?_eq_some_iff.mp hc
    exact ⟨Nat.le_succ p, Nat.le_trans hlt (Nat.le_max_right p _)⟩
  | look l =>
    rintro p _ ⟨rfl, -⟩
    exact ⟨Nat.le_refl p, Nat.le_max_left p _⟩
  | seq a b iha ihb => exact iha.comp ihb
  | alt a b iha ihb =>
    rintro p q (h | h)
    · exact iha p q h
    · exact ihb p q h
  | repeated a min max ih =>
    rintro p q ⟨k, -, -, h⟩
    exact ih.times k p q h

/-- The repetitions that are required come first, and then further ones. -/
theorem matches_repeated_iff {a : Node} {min : Nat} {max : Option Nat} {p q : Nat} :
    (Node.repeated a min max).Matches text p q ↔ ∃ r, Times (a.Matches text) min p r
      ∧ ∃ j, (∀ m ∈ max, j ≤ m - min) ∧ Times (a.Matches text) j r q := by
  constructor
  · rintro ⟨k, hk, hmax, h⟩
    obtain ⟨j, rfl⟩ := Nat.exists_eq_add_of_le hk
    obtain ⟨r, hr, hq⟩ := times_add_iff.mp h
    refine ⟨r, hr, j, fun m hm => ?_, hq⟩
    have hroom := hmax m hm
    omega
  · rintro ⟨r, hr, j, hmax, hq⟩
    refine ⟨min + j, Nat.le_add_right min j, fun m hm => ?_, times_add_iff.mpr ⟨r, hr, hq⟩⟩
    have hroom := hmax m hm
    omega

/-- The places that are computed are those at which a match may end. -/
theorem mem_ends_iff (node : Node) {ps : List Nat} {q : Nat} :
    q ∈ node.ends text ps ↔ ∃ p ∈ ps, node.Matches text p q := by
  induction node generalizing ps q with
  | empty => simp [ends, Matches]
  | one s =>
    simp only [ends, Matches, List.mem_filterMap]
    refine exists_congr fun p => and_congr_right fun _ => ?_
    cases text[p]? with
    | none => simp
    | some c => cases hc : s.contains c <;> simp [hc, @eq_comm _ q]
  | look l =>
    simp only [ends, Matches, List.mem_filter]
    constructor
    · rintro ⟨hq, hl⟩
      exact ⟨q, hq, rfl, hl⟩
    · rintro ⟨_, hq, rfl, hl⟩
      exact ⟨hq, hl⟩
  | seq a b iha ihb =>
    simp only [ends, Matches, ihb, iha]
    constructor
    · rintro ⟨r, ⟨p, hp, hr⟩, hq⟩
      exact ⟨p, hp, r, hr, hq⟩
    · rintro ⟨p, hp, r, hr, hq⟩
      exact ⟨r, ⟨p, hp, hr⟩, hq⟩
  | alt a b iha ihb =>
    simp only [ends, Matches, mem_mergePositions, iha, ihb, and_or_left, exists_or]
  | repeated a min max ih =>
    have hforward : Forward text.size (a.Matches text) := forward_matches a
    have hmerge : ∀ qs q, q ∈ mergePositions qs (a.ends text qs)
        ↔ ∃ p ∈ qs, p = q ∨ a.Matches text p q := fun qs q => by
      simp only [mem_mergePositions, ih, and_or_left, exists_or, exists_eq_right]
    have hrequired : ∀ r, r ∈ iterate (fun qs => a.ends text qs) (Nat.min min (text.size + 1)) ps
        ↔ ∃ p ∈ ps, Times (a.Matches text) min p r := fun r =>
      (mem_iterate_iff fun _ _ => ih).trans
        (exists_congr fun p => and_congr_right fun _ => hforward.times_min_iff)
    simp only [ends, mem_iterate_iff hmerge, times_or_iff, hrequired, matches_repeated_iff]
    constructor
    · rintro ⟨r, ⟨p, hp, hr⟩, hfurther⟩
      exact ⟨p, hp, r, hr, (hforward.exists_times_iff min max).mp hfurther⟩
    · rintro ⟨p, hp, r, hr, hfurther⟩
      exact ⟨r, ⟨p, hp, hr⟩, (hforward.exists_times_iff min max).mpr hfurther⟩

end Node

/-- A match of the pattern starts at a place of a text. -/
def StartsAt (p : Pattern) (text : String) (start : Nat) : Prop :=
  ∃ stop, p.node.Matches text.toList.toArray start stop

/-- The pattern matches somewhere in a text. -/
def Matches (p : Pattern) (text : String) : Prop := ∃ start ≤ text.length, p.StartsAt text start

variable {p : Pattern} {text : String} {start : Nat}

theorem matchesAt_iff : p.matchesAt text.toList.toArray start = true ↔ p.StartsAt text start := by
  have hends : ∀ stop, stop ∈ p.node.ends text.toList.toArray [start]
      ↔ p.node.Matches text.toList.toArray start stop := by
    simp [Node.mem_ends_iff]
  simp only [matchesAt, StartsAt, ← hends, Bool.not_eq_true', List.isEmpty_eq_false_iff_exists_mem]

theorem isMatch_iff : p.isMatch text = true ↔ p.Matches text := by
  rw [isMatch, leftmost?, List.find?_isSome]
  simp only [List.mem_range, List.size_toArray, String.length_toList, Nat.lt_succ_iff, matchesAt_iff,
    Matches]

end RecordGraph.Pattern
