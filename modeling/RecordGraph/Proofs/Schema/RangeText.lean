import RecordGraph.Proofs.Schema.Acceptance
import RecordGraph.Proofs.Schema.Items

/-!
The texts of ranges.  The text of a range of integers or of enumerators is a list of its items in their
order, and compiling that text gives the range again: no item reads as another kind of item, and blanks
and commas are only between items.
-/

namespace RecordGraph

open Text RecordGraph.Computation

/-! ### Items -/

namespace Range

open Literal

variable {α : Type} {read : String → Except Error α} {cs : List Char} {s : String} {n : Int}

theorem exists_read_of_bounds {lo hi : String} {item : RangeItem α} {v : α}
    (h : (do pure (.interval (← read lo) (← read hi))) = Except.ok item) (hv : v ∈ item.ends) :
    ∃ bound, read bound = .ok v := by
  obtain ⟨low, hlow, h⟩ := except_bind_eq_ok.mp h
  obtain ⟨high, hhigh, h⟩ := except_bind_eq_ok.mp h
  cases h
  simp only [RangeItem.ends, List.mem_cons, List.not_mem_nil, or_false] at hv
  rcases hv with rfl | rfl
  · exact ⟨_, hlow⟩
  · exact ⟨_, hhigh⟩

/-- The numbers of an item are read one by one. -/
theorem exists_read_of_readItem {item : RangeItem α} {v : α} (h : readItem read cs = .ok item)
    (hv : v ∈ item.ends) : ∃ bound, read bound = .ok v := by
  unfold readItem at h
  split at h
  · exact exists_read_of_bounds h hv
  · split at h
    · exact exists_read_of_bounds h hv
    · obtain ⟨w, hw, h⟩ := except_bind_eq_ok.mp h
      cases h
      obtain rfl := List.mem_singleton.mp hv
      exact ⟨_, hw⟩

theorem readItems_eq_ok {items : List (RangeItem α)} : readItems read s = .ok items
    ↔ (commaItems s).map (fun item => readItem read item.toList) = items.map .ok :=
  except_mapM_eq_ok

/-! ### Texts of integers -/

/-- An integer is small when its decimal text can be read. -/
def Small (n : Int) : Prop := n.natAbs < 2 ^ 127

/-- The bounds of every width are small. -/
theorem small_bounds (t : IntegerType) : Small t.least ∧ Small t.greatest := by
  cases t <;> simp only [Small] <;> decide

theorem small_of_readBound {t : IntegerType} {bound : String}
    (h : readBound (.integer t) (fun s => integer? s t.greatest) bound = .ok n) : Small n := by
  unfold readBound at h
  split at h
  · rename_i m hread
    cases h
    by_cases hstar : trim bound.toList = ['*']
    · have hmax : integer? bound t.greatest = some t.greatest := by
        rw [integer?_eq_some, hstar]
        exact .greatest
      obtain rfl : t.greatest = n := Option.some.inj (hmax.symm.trans hread)
      exact (small_bounds t).2
    · exact natAbs_lt_of_integer? hstar hread
  · cases h

theorem not_mem_toString {c : Char} (hc : c ∉ ['+', '-']) (hdigit : c.isDigit = false) (n : Int) :
    c ∉ (toString n).toList := by
  intro hmem
  rcases mem_toString hmem with h | rfl | rfl
  · rw [hdigit] at h
    cases h
  · exact hc (by simp)
  · exact hc (by simp)

theorem hyphenated?_toString (n : Int) : hyphenated? (toString n).toList = none := by
  obtain ⟨sign, negative, hsign, htext, -⟩ := toList_toString n
  rw [htext]
  apply hyphenated?_of_not_mem hsign
  intro hmem
  exact absurd (Nat.isDigit_of_mem_toDigits (by decide) (by decide) hmem) (by decide)

/-- An item of small integers is read from its text, whatever the type. -/
theorem readItem_render {t : IntegerType} {item : RangeItem Int} (h : ∀ n ∈ item.ends, Small n) :
    readItem (readBound (.integer t) fun s => integer? s t.greatest) (item.render toString).toList
      = .ok item := by
  have hread : ∀ n ∈ item.ends,
      readBound (.integer t) (fun s => integer? s t.greatest) (toString n) = .ok n := by
    intro n hn
    exact readBound_of_some (integer?_toString t.greatest (h n hn))
  have hpoint : ∀ n : Int, '.' ∉ (toString n).toList := not_mem_toString (by decide) rfl
  cases item with
  | point n =>
    have hdots : cutAt? ['.', '.'] (toString n).toList = none := cutAt?_of_not_mem (hpoint n)
    simp only [RangeItem.render, readItem, hdots, hyphenated?_toString, String.ofList_toList]
    rw [hread n (by simp [RangeItem.ends])]
    rfl
  | interval lo hi =>
    have hdots : cutAt? ['.', '.'] ((toString lo).toList ++ ['.', '.'] ++ (toString hi).toList)
        = some ((toString lo).toList, (toString hi).toList) := cutAt?_append (hpoint lo)
    have htext : ((RangeItem.interval lo hi).render toString).toList
        = (toString lo).toList ++ ['.', '.'] ++ (toString hi).toList := by
      simp [RangeItem.render]
    simp only [htext, readItem, hdots, trim_toString, String.ofList_toList]
    rw [hread lo (by simp [RangeItem.ends]), hread hi (by simp [RangeItem.ends])]
    rfl

/-- The text of an item has no comma and no blanks. -/
theorem isItem_render (item : RangeItem Int) : IsItem (item.render toString) := by
  have hmem : ∀ c ∈ (item.render toString).toList, c.isDigit = true ∨ c ∈ ['+', '-', '.'] := by
    intro c hc
    have hnumber : ∀ n : Int, c ∈ (toString n).toList → c.isDigit = true ∨ c ∈ ['+', '-', '.'] := by
      intro n hn
      rcases mem_toString hn with h | rfl | rfl
      · exact Or.inl h
      · simp
      · simp
    cases item with
    | point n => exact hnumber n hc
    | interval lo hi =>
      rw [RangeItem.render, String.toList_append, String.toList_append] at hc
      rcases List.mem_append.mp hc with hc | hc
      · rcases List.mem_append.mp hc with hc | hc
        · exact hnumber lo hc
        · exact Or.inr (by simp_all)
      · exact hnumber hi hc
  have hother : ∀ c ∈ ['+', '-', '.'], isBlank c = false ∧ c ≠ ',' := by simp [isBlank]
  have hchars : ∀ c ∈ (item.render toString).toList, isBlank c = false ∧ c ≠ ',' := by
    intro c hc
    rcases hmem c hc with h | h
    · refine ⟨isBlank_of_isDigit h, ?_⟩
      rintro rfl
      cases h
    · exact hother c h
  refine ⟨?_, fun hcomma => (hchars ',' hcomma).2 rfl⟩
  rw [trimmed, trim_of_not_blank fun c hc => (hchars c hc).1, String.ofList_toList]

/-! ### Texts of ranges -/

/-- The ranges that have a text of their own: some items, and not a blank one alone. -/
inductive Listed : Range → Prop
  | integers {items : List (RangeItem Int)} (hsome : items ≠ [])
      (hsmall : ∀ item ∈ items, ∀ n ∈ item.ends, Small n) : Listed (.integers items)
  | enumerators {items : List String} (hsome : items ≠ []) (hblank : items ≠ [""])
      (hitems : ∀ item ∈ items, IsItem item) : Listed (.enumerators items)

/-- The texts of ranges of integers, and those of enumerators that are not blank. -/
inductive Lists : AttributeType → Option String → Prop
  | integers (t : IntegerType) (source : Option String) : Lists (.integer t) source
  | enumerators {k : TextKind} {s : String} (hk : k ≠ .string) (hsome : trim s.toList ≠ []) :
      Lists (.text k) (some s)

theorem listed_default (t : IntegerType) : Listed (default (.integer t)) := by
  change Listed (.integers [.interval t.least t.greatest])
  exact .integers (by simp) (by simp [RangeItem.ends, small_bounds t])

theorem listed_of_readItems {t : IntegerType} {items : List (RangeItem Int)}
    (h : readItems (readBound (.integer t) fun s => integer? s t.greatest) s = .ok items) :
    Listed (.integers items) := by
  have hread := readItems_eq_ok.mp h
  constructor
  · rintro rfl
    exact commaItems_ne_nil s (List.map_eq_nil_iff.mp hread)
  · intro item hitem n hn
    have hok : (.ok item : Except Error (RangeItem Int)) ∈ items.map .ok := List.mem_map_of_mem hitem
    rw [← hread] at hok
    obtain ⟨text, -, htext⟩ := List.mem_map.mp hok
    obtain ⟨bound, hbound⟩ := exists_read_of_readItem htext hn
    exact small_of_readBound hbound

/-- What is compiled from a list is a range with a text of its own. -/
theorem Lists.listed {type : AttributeType} {source : Option String} {range : Range}
    (h : Lists type source) (hcompile : compile type source = .ok range) : range.Listed := by
  cases h with
  | integers t source =>
    cases source with
    | none =>
      cases hcompile
      exact listed_default t
    | some s =>
      by_cases hblank : trim s.toList = []
      · rw [compile_of_blank hblank] at hcompile
        cases hcompile
        exact listed_default t
      · rw [compile_integer hblank, map_eq_pure_bind] at hcompile
        obtain ⟨items, hitems, heq⟩ := except_bind_eq_ok.mp hcompile
        cases heq
        exact listed_of_readItems hitems
  | enumerators hk hsome =>
    rw [compile_text hk hsome] at hcompile
    cases hcompile
    exact .enumerators (commaItems_ne_nil _) (fun hblank => hsome (trim_of_commaItems hblank))
      fun item hitem => isItem_of_mem_commaItems hitem

theorem render_ne_empty (item : RangeItem Int) : item.render toString ≠ "" := by
  have hsome : ∀ n : Int, toString n ≠ "" := by
    intro n hn
    obtain ⟨sign, negative, -, htext, -⟩ := toList_toString n
    rw [hn] at htext
    exact (isNumeral_toDigits n.natAbs).1 (List.append_eq_nil_iff.mp htext.symm).2
  cases item with
  | point n => exact hsome n
  | interval lo hi =>
    intro h
    have htext := congrArg String.toList h
    simp [RangeItem.render] at htext

/-- The text of a range is compiled to this range for each type that the range suits. -/
theorem Listed.compile_again {type : AttributeType} {range : Range} (h : range.Listed)
    (hsuits : range.Suits type) : compile type (some range.render) = .ok range := by
  cases h with
  | @integers items hsome hsmall =>
    have htexts : ∀ text ∈ items.map (RangeItem.render toString), IsItem text := by
      intro text htext
      obtain ⟨item, -, rfl⟩ := List.mem_map.mp htext
      exact isItem_render item
    have hne : items.map (RangeItem.render toString) ≠ [] := by simpa using hsome
    have hblank : items.map (RangeItem.render toString) ≠ [""] := by
      intro heq
      obtain ⟨item, -, hitem⟩ := List.map_eq_singleton_iff.mp heq
      exact render_ne_empty item hitem
    cases type with
    | integer t =>
      have hitems : readItems (readBound (.integer t) fun s => integer? s t.greatest)
          (Range.integers items).render = .ok items := by
        rw [readItems_eq_ok, render, commaItems_intercalate htexts hne, List.map_map]
        exact List.map_congr_left fun item hitem => readItem_render (hsmall item hitem)
      have htrim : trim (Range.integers items).render.toList ≠ [] :=
        trim_intercalate_ne_nil htexts hne hblank
      rw [compile_integer htrim, hitems]
      rfl
    | _ => exact hsuits.elim
  | enumerators hsome hblank hitems =>
    cases type with
    | text k =>
      have hk : k ≠ .string := by
        rintro rfl
        exact hsuits rfl
      rw [render, compile_text hk (trim_intercalate_ne_nil hitems hsome hblank),
        commaItems_intercalate hitems hsome]
    | _ => exact hsuits.elim

theorem Lists.suits {type type' : AttributeType} {source source' : Option String} {range : Range}
    (h : Lists type source) (h' : Lists type' source') (hkind : type'.isText = type.isText)
    (hsuits : range.Suits type') (hlisted : range.Listed) : range.Suits type := by
  cases h with
  | integers t source =>
    cases h' with
    | integers t' source' => cases hlisted <;> exact hsuits
    | enumerators hk' hsome' => cases hkind
  | enumerators hk hsome =>
    cases h' with
    | integers t' source' => cases hkind
    | enumerators hk' hsome' =>
      cases hlisted with
      | integers => exact hsuits.elim
      | enumerators => exact hk

/-- A range that was compiled from a list of integers or of enumerators is compiled again from its text,
and no other range of a type of the same kind has this text. -/
theorem compile_render {type : AttributeType} {source : Option String} {range : Range}
    (hlists : Lists type source) (hcompile : compile type source = .ok range) :
    compile type (some range.render) = .ok range
    ∧ ∀ type' source' range', Lists type' source' → compile type' source' = .ok range' →
        type'.isText = type.isText → range'.render = range.render → range' = range := by
  have hlisted := hlists.listed hcompile
  refine ⟨hlisted.compile_again (compile_suits hcompile), ?_⟩
  intro type' source' range' hlists' hcompile' hkind hrender
  have hlisted' := hlists'.listed hcompile'
  have hsuits := hlists.suits hlists' hkind (compile_suits hcompile') hlisted'
  have hagain := hlisted'.compile_again hsuits
  rw [hrender, hlisted.compile_again (compile_suits hcompile)] at hagain
  exact (Except.ok.inj hagain).symm

/-- Some negative numbers and another one. -/
theorem compile_render_negative :
    compile (.integer .s32) (some " -10 .. -5,0x2A") = .ok (.integers [.interval (-10) (-5), .point 42])
    ∧ (Range.integers [.interval (-10) (-5), .point 42]).render = "-10..-5, 42"
    ∧ compile (.integer .s32) (some (Range.integers [.interval (-10) (-5), .point 42]).render)
        = .ok (.integers [.interval (-10) (-5), .point 42]) := by
  have hcompile : compile (.integer .s32) (some " -10 .. -5,0x2A")
      = .ok (.integers [.interval (-10) (-5), .point 42]) :=
    rfl
  exact ⟨hcompile, rfl, (compile_render (.integers .s32 _) hcompile).1⟩

/-- A blank text sets no bounds on enumerators, and the text for this reads as an enumerator. -/
theorem not_compile_render_of_blank : ¬ ∀ (type : AttributeType) (s : String) (range : Range),
    ((∃ t, type = .integer t) ∨ ∃ k, k ≠ .string ∧ type = .text k) →
      compile type (some s) = .ok range → compile type (some range.render) = .ok range := by
  intro h
  have hblank : compile (.text .enumerator) (some " ") = .ok .unbounded := rfl
  have hstar : compile (.text .enumerator) (some (Range.unbounded).render) = .ok (.enumerators ["*"]) :=
    rfl
  have hagain := h _ _ _ (Or.inr ⟨.enumerator, by decide, rfl⟩) hblank
  rw [hstar] at hagain
  cases hagain

end Range

end RecordGraph
