import RecordGraph.Text.Property

/-!
Tables of runs.  The value that a table has for a code point is that of the run the code point lies in,
so that the beginning of a table is enough to know about the code points there.
-/

namespace RecordGraph.Text

variable {α : Type}

/-! ### Runs -/

namespace RunTable

variable {t : RunTable α} {v : α} {runs before after : List (α × Nat)} {c j lo hi n : Nat}

/-- How many code points runs take up. -/
def extent : List (α × Nat) → Nat
  | [] => 0
  | run :: runs => run.2 + extent runs

/-- The entries of runs that follow one another from a code point on. -/
def entriesFrom (n : Nat) : List (α × Nat) → List (Nat × α)
  | [] => []
  | run :: runs => (n, run.1) :: entriesFrom (n + run.2) runs

theorem starts_ofLengths (runs : List (α × Nat)) :
    (ofLengths runs).starts.toList = entriesFrom 0 runs := by
  have hfold : ∀ (runs : List (α × Nat)) (acc : Array (Nat × α) × Nat),
      (runs.foldl (fun acc run => (acc.1.push (acc.2, run.1), acc.2 + run.2)) acc).1.toList
        = acc.1.toList ++ entriesFrom acc.2 runs := by
    intro runs
    induction runs with
    | nil => simp [entriesFrom]
    | cons run runs ih =>
      intro acc
      simp [ih, entriesFrom]
  simpa [ofLengths] using hfold runs (#[], 0)

@[simp] theorem length_entriesFrom (n : Nat) (runs : List (α × Nat)) :
    (entriesFrom n runs).length = runs.length := by
  induction runs generalizing n with
  | nil => rfl
  | cons run runs ih => simp [entriesFrom, ih]

theorem entriesFrom_append : entriesFrom n (before ++ after)
    = entriesFrom n before ++ entriesFrom (n + extent before) after := by
  induction before generalizing n with
  | nil => simp [entriesFrom, extent]
  | cons run before ih => simp [entriesFrom, ih, extent, Nat.add_assoc]

theorem le_of_mem_entriesFrom {e : Nat × α} (h : e ∈ entriesFrom n runs) :
    n ≤ e.1 ∧ e.1 ≤ n + extent runs := by
  induction runs generalizing n with
  | nil => cases h
  | cons run runs ih =>
    have hextent : extent (run :: runs) = run.2 + extent runs := rfl
    rcases List.mem_cons.mp h with rfl | h
    · exact ⟨Nat.le_refl n, Nat.le_add_right ..⟩
    · have hbounds := ih h
      omega

/-! ### Searching -/

/-- The search ends at the last entry that starts at or below the code point. -/
theorem search_eq (h : ∀ (i : Nat) (e : Nat × α), t.starts[i]? = some e → (e.1 ≤ c ↔ i ≤ j)) (hlo : lo ≤ j)
    (hhi : j < hi) (hsize : hi ≤ t.starts.size) : t.search c lo hi = j := by
  fun_induction RunTable.search t c lo hi with
  | case1 lo hi hmore mid start v hmid hle ih =>
    exact ih ((h mid (start, v) hmid).mp hle) hhi hsize
  | case2 lo hi hmore mid start v hmid hle ih =>
    have hnot : ¬ mid ≤ j := fun hmj => hle ((h mid (start, v) hmid).mpr hmj)
    exact ih hlo (by omega) (by omega)
  | case3 lo hi hmore mid hmid =>
    have hout := Array.getElem?_eq_none_iff.mp hmid
    omega
  | case4 lo hi hmore => omega

/-- The value at a code point is that of the run it lies in. -/
theorem find_ofLengths {default : α} (hlow : extent before ≤ c) (hhigh : c < extent before + n) :
    (ofLengths (before ++ (v, n) :: after)).find c default = v := by
  have hstarts : ∀ i : Nat, (ofLengths (before ++ (v, n) :: after)).starts[i]?
      = (entriesFrom 0 before ++ (extent before, v)
          :: entriesFrom (extent before + n) after)[i]? := by
    intro i
    rw [← Array.getElem?_toList, starts_ofLengths, entriesFrom_append, Nat.zero_add, entriesFrom]
  have hsize : (ofLengths (before ++ (v, n) :: after)).starts.size
      = before.length + (after.length + 1) := by
    rw [← Array.length_toList, starts_ofLengths, length_entriesFrom, List.length_append,
      List.length_cons]
  have hat : (ofLengths (before ++ (v, n) :: after)).starts[before.length]?
      = some (extent before, v) := by
    rw [hstarts, List.getElem?_append_right (by simp)]
    simp
  have hsearch : (ofLengths (before ++ (v, n) :: after)).search c 0
      (ofLengths (before ++ (v, n) :: after)).starts.size = before.length := by
    refine search_eq (fun i e he => ?_) (Nat.zero_le _) (by omega) (Nat.le_refl _)
    -- runs in front end before the code point, and those behind begin after it
    rw [hstarts] at he
    rcases Nat.lt_trichotomy i before.length with hi | rfl | hi
    · rw [List.getElem?_append_left (by simpa using hi)] at he
      have hbounds := le_of_mem_entriesFrom (List.mem_of_getElem? he)
      omega
    · rw [List.getElem?_append_right (by simp)] at he
      simp only [length_entriesFrom, Nat.sub_self, List.getElem?_cons_zero, Option.some.injEq] at he
      subst he
      simpa using hlow
    · rw [List.getElem?_append_right (by simpa using Nat.le_of_lt hi), length_entriesFrom,
        List.getElem?_cons, if_neg (by omega)] at he
      have hbounds := le_of_mem_entriesFrom (List.mem_of_getElem? he)
      omega
  rw [find, hsearch, hat]

end RunTable

/-! ### Tagged texts -/

theorem foldr_cutBefore {p : Char → Bool} {pieces : List (List Char)} (cs : List Char) :
    cs.foldr (fun c acc => if p c then ([], (c :: acc.1) :: acc.2) else (c :: acc.1, acc.2)) ([], pieces)
      = ((cs.foldr (fun c acc => if p c then ([], (c :: acc.1) :: acc.2) else (c :: acc.1, acc.2))
            ([], [])).1,
        (cs.foldr (fun c acc => if p c then ([], (c :: acc.1) :: acc.2) else (c :: acc.1, acc.2))
            ([], [])).2 ++ pieces) := by
  induction cs with
  | nil => rfl
  | cons c cs ih =>
    simp only [List.foldr_cons, ih]
    split <;> simp

/-- What follows a tag does not change the pieces in front of it. -/
theorem cutBefore_append {p : Char → Bool} {c : Char} (cs ds : List Char) (h : p c = true) :
    cutBefore p (cs ++ c :: ds) = cutBefore p cs ++ cutBefore p (c :: ds) := by
  simp only [cutBefore, List.foldr_append, List.foldr_cons, h, if_true]
  rw [foldr_cutBefore]
  split <;> simp_all

/-- The runs at the beginning of a text are the first runs of its table. -/
theorem RunTable.ofTagged_join {width : Nat} {read : String → α} {first : String} {c : Char}
    {cs ds : List Char} (more : List String) (hfirst : first.toList = cs ++ c :: ds)
    (hc : c.isUpper = true) :
    ∃ rest, ofTagged width read (String.join (first :: more))
      = ofLengths ((cutBefore Char.isUpper cs).map (fun piece =>
          (read (String.ofList (piece.take width)), hexNumber (piece.drop width))) ++ rest) := by
  have htext : (String.join (first :: more)).toList
      = cs ++ c :: (ds ++ more.flatMap String.toList) := by
    rw [String.toList_join, List.flatMap_cons, hfirst, List.append_assoc, List.cons_append]
  exact ⟨_, by rw [ofTagged, htext, cutBefore_append cs _ hc, List.map_append]⟩

namespace Category

/-- How the table of categories begins. -/
def asciiRuns : List (Category × Nat) :=
  [ (.control, 0x20), (.spaceSeparator, 1), (.otherPunctuation, 3), (.currencySymbol, 1),
    (.otherPunctuation, 3), (.openPunctuation, 1), (.closePunctuation, 1), (.otherPunctuation, 1),
    (.mathSymbol, 1), (.otherPunctuation, 1), (.dashPunctuation, 1), (.otherPunctuation, 2),
    (.decimalNumber, 10), (.otherPunctuation, 2), (.mathSymbol, 3), (.otherPunctuation, 2),
    (.uppercaseLetter, 0x1a), (.openPunctuation, 1), (.otherPunctuation, 1), (.closePunctuation, 1),
    (.modifierSymbol, 1), (.connectorPunctuation, 1), (.modifierSymbol, 1), (.lowercaseLetter, 0x1a) ]

theorem exists_runs : ∃ rest, runs = RunTable.ofLengths (asciiRuns ++ rest) := by
  have hruns : (cutBefore Char.isUpper
      "Cc20Zs1Po3Sc1Po3Ps1Pe1Po1Sm1Po1Pd1Po2NdaPo2Sm3Po2Lu1aPs1Po1Pe1Sk1Pc1Sk1Ll1a".toList).map
        (fun piece => (ofCode (String.ofList (piece.take 2)), hexNumber (piece.drop 2)))
      = asciiRuns := by
    decide +kernel
  have hfirst :
      ("Cc20Zs1Po3Sc1Po3Ps1Pe1Po1Sm1Po1Pd1Po2NdaPo2Sm3Po2Lu1aPs1Po1Pe1Sk1Pc1Sk1Ll1a"
        ++ "Ps1Sm1Pe1Sm1Cc2").toList
      = "Cc20Zs1Po3Sc1Po3Ps1Pe1Po1Sm1Po1Pd1Po2NdaPo2Sm3Po2Lu1aPs1Po1Pe1Sk1Pc1Sk1Ll1a".toList
        ++ 'P' :: "s1Sm1Pe1Sm1Cc2".toList := by
    decide +kernel
  rw [← hruns]
  exact RunTable.ofTagged_join _ hfirst rfl

end Category

/-- The category of an ASCII character is that of the run it lies in. -/
theorem category_eq (k : Nat) {v : Category} {n : Nat} {c : Char}
    (hrun : Category.asciiRuns[k]? = some (v, n))
    (hlow : RunTable.extent (Category.asciiRuns.take k) ≤ c.toNat)
    (hhigh : c.toNat < RunTable.extent (Category.asciiRuns.take k) + n) : category c = v := by
  obtain ⟨rest, htable⟩ := Category.exists_runs
  obtain ⟨hk, hget⟩ := List.getElem?_eq_some_iff.mp hrun
  have hruns : Category.asciiRuns = Category.asciiRuns.take k
      ++ (v, n) :: Category.asciiRuns.drop (k + 1) := by
    rw [← hget, ← List.drop_eq_getElem_cons hk, List.take_append_drop]
  rw [category, htable, hruns, List.append_assoc, List.cons_append]
  exact RunTable.find_ofLengths hlow hhigh

/-- The characters of literals that are no digits are no digits of any script. -/
theorem isDecimalDigit_mark {c : Char} (hc : c ∈ ['+', '.', 'E', 'e']) : isDecimalDigit c = false := by
  have hplus : category '+' = .mathSymbol := category_eq 8 rfl (by decide) (by decide)
  have hpoint : category '.' = .otherPunctuation := category_eq 11 rfl (by decide) (by decide)
  have hupper : category 'E' = .uppercaseLetter := category_eq 16 rfl (by decide) (by decide)
  have hlower : category 'e' = .lowercaseLetter := category_eq 23 rfl (by decide) (by decide)
  simp only [List.mem_cons, List.not_mem_nil, or_false] at hc
  rcases hc with rfl | rfl | rfl | rfl
  · simp [isDecimalDigit, hplus]
  · simp [isDecimalDigit, hpoint]
  · simp [isDecimalDigit, hupper]
  · simp [isDecimalDigit, hlower]

end RecordGraph.Text
