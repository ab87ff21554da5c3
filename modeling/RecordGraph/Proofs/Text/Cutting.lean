import Mathlib.Data.List.TakeDrop
import RecordGraph.Text.Blank

/-!
Trimming and cutting.  Trimming takes off blanks at both ends and nothing else; what is cut at a
separator can be put together again; and a list of trimmed pieces that commas and blanks join is cut
into these pieces.
-/

namespace RecordGraph.Text

variable {sep : Char} {cs ds : List Char}

/-! ### Trimming -/

/-- A text is a trimmed text between blanks. -/
theorem exists_eq_trim (cs : List Char) : ∃ front back, (∀ c ∈ front, isBlank c = true)
    ∧ (∀ c ∈ back, isBlank c = true) ∧ cs = front ++ trim cs ++ back := by
  have hfront : cs = cs.takeWhile isBlank ++ trimLeft cs := List.takeWhile_append_dropWhile.symm
  have hback : trimLeft cs = trim cs ++ ((trimLeft cs).reverse.takeWhile isBlank).reverse := by
    rw [trim, ← List.reverse_append]
    simp only [trimLeft, List.takeWhile_append_dropWhile, List.reverse_reverse]
  refine ⟨cs.takeWhile isBlank, ((trimLeft cs).reverse.takeWhile isBlank).reverse, ?_, ?_, ?_⟩
  · exact fun c hc => List.all_eq_true.mp List.all_takeWhile c hc
  · exact fun c hc => List.all_eq_true.mp List.all_takeWhile c (List.mem_reverse.mp hc)
  · rw [List.append_assoc, ← hback, ← hfront]

theorem trim_blank_append (hcs : ∀ c ∈ cs, isBlank c = true) : trim (cs ++ ds) = trim ds := by
  simp only [trim, trimLeft, List.dropWhile_append_of_pos hcs]

theorem trim_append_blank (hds : ∀ c ∈ ds, isBlank c = true) : trim (cs ++ ds) = trim cs := by
  have hreverse : ∀ c ∈ ds.reverse, isBlank c = true := fun c hc => hds c (List.mem_reverse.mp hc)
  have hnone : ds.dropWhile isBlank = [] := by
    rw [← List.append_nil ds, List.dropWhile_append_of_pos hds, List.dropWhile_nil]
  simp only [trim, trimLeft, List.dropWhile_append]
  split
  · rename_i hempty
    rw [hnone, List.isEmpty_iff.mp hempty]
  · rw [List.reverse_append, List.dropWhile_append_of_pos hreverse]

@[simp] theorem trim_trim (cs : List Char) : trim (trim cs) = trim cs := by
  obtain ⟨front, back, hfront, hback, heq⟩ := exists_eq_trim cs
  calc trim (trim cs) = trim (front ++ (trim cs ++ back)) := by
        rw [trim_blank_append hfront, trim_append_blank hback]
    _ = trim cs := by rw [← List.append_assoc, ← heq]

/-- A text without blanks is trimmed. -/
theorem trim_of_not_blank (h : ∀ c ∈ cs, isBlank c = false) : trim cs = cs := by
  have hleft : ∀ ds : List Char, (∀ c ∈ ds, isBlank c = false) → trimLeft ds = ds := by
    intro ds hds
    cases ds with
    | nil => rfl
    | cons c ds => rw [trimLeft, List.dropWhile_cons_of_neg (by simp [hds c List.mem_cons_self])]
  rw [trim, hleft cs h, hleft _ fun c hc => h c (List.mem_reverse.mp hc), List.reverse_reverse]

/-! ### Cutting at a character -/

theorem splitAt_of_not_mem (h : sep ∉ cs) : splitAt sep cs = [cs] := by
  induction cs with
  | nil => rfl
  | cons c cs ih =>
    have hc : c ≠ sep := (List.ne_of_not_mem_cons h).symm
    rw [splitAt, if_neg hc, ih (List.not_mem_of_not_mem_cons h)]

theorem splitAt_append_cons (h : sep ∉ cs) :
    splitAt sep (cs ++ sep :: ds) = cs :: splitAt sep ds := by
  induction cs with
  | nil => simp [splitAt]
  | cons c cs ih =>
    have hc : c ≠ sep := (List.ne_of_not_mem_cons h).symm
    rw [List.cons_append, splitAt, if_neg hc, ih (List.not_mem_of_not_mem_cons h)]

/-- No piece has the separator, which stands between each two of them. -/
theorem not_mem_of_mem_splitAt {piece : List Char} (h : piece ∈ splitAt sep cs) : sep ∉ piece := by
  induction cs generalizing piece with
  | nil =>
    obtain rfl := List.mem_singleton.mp h
    exact List.not_mem_nil
  | cons c cs ih =>
    unfold splitAt at h
    split at h
    · rcases List.mem_cons.mp h with rfl | h
      · exact List.not_mem_nil
      · exact ih h
    · rename_i hc
      split at h
      · rename_i hnil
        exact absurd hnil (splitAt_ne_nil sep cs)
      · rename_i first rest hsplit
        rcases List.mem_cons.mp h with rfl | h
        · have hfirst : sep ∉ first := ih (by rw [hsplit]; exact List.mem_cons_self)
          exact List.not_mem_cons_of_ne_of_not_mem (Ne.symm hc) hfirst
        · exact ih (by rw [hsplit]; exact List.mem_cons_of_mem first h)

theorem splitAt_cons_of_ne {c : Char} (cs : List Char) (h : c ≠ sep) :
    ∃ first rest, splitAt sep cs = first :: rest ∧ splitAt sep (c :: cs) = (c :: first) :: rest := by
  cases hsplit : splitAt sep cs with
  | nil => exact absurd hsplit (splitAt_ne_nil sep cs)
  | cons first rest => exact ⟨first, rest, rfl, by rw [splitAt, if_neg h, hsplit]⟩

/-- Put together at the separator, the pieces are the text. -/
theorem intercalate_splitAt (sep : Char) (cs : List Char) :
    [sep].intercalate (splitAt sep cs) = cs := by
  induction cs with
  | nil => simp [splitAt]
  | cons c cs ih =>
    by_cases hc : c = sep
    · rw [splitAt, if_pos hc, List.intercalate_cons_of_ne_nil (splitAt_ne_nil sep cs), ih, hc]
      rfl
    · obtain ⟨first, rest, hsplit, hcons⟩ := splitAt_cons_of_ne cs hc
      rw [hcons, ← ih, hsplit]
      cases rest with
      | nil => simp
      | cons second rest => simp [List.intercalate]

/-! ### Cutting at a text -/

/-- A span ends where the first character does not belong to it. -/
theorem span_append {p : Char → Bool} (cs ds : List Char) (hcs : ∀ c ∈ cs, p c = true)
    (hds : ∀ c, ds.head? = some c → p c = false) : (cs ++ ds).span p = (cs, ds) := by
  have hdrop : ds.dropWhile p = ds := by
    cases ds with
    | nil => rfl
    | cons c ds => exact List.dropWhile_cons_of_neg (by simp [hds c rfl])
  have htake : ds.takeWhile p = [] := by
    cases ds with
    | nil => rfl
    | cons c ds => exact List.takeWhile_cons_of_neg (by simp [hds c rfl])
  rw [List.span_eq_takeWhile_dropWhile, List.takeWhile_append_of_pos hcs,
    List.dropWhile_append_of_pos hcs, hdrop, htake, List.append_nil]

theorem eq_of_cutAt? {sep front back : List Char} (h : cutAt? sep cs = some (front, back)) :
    cs = front ++ sep ++ back := by
  induction cs generalizing front with
  | nil => cases h
  | cons c cs ih =>
    unfold cutAt? at h
    split at h
    · rename_i hpre
      cases h
      obtain ⟨rest, hrest⟩ := List.isPrefixOf_iff_prefix.mp hpre
      rw [← hrest]
      simp
    · obtain ⟨⟨front', back'⟩, hcut, heq⟩ := Option.map_eq_some_iff.mp h
      cases heq
      rw [ih hcut]
      rfl

theorem cutAt?_of_not_mem {c : Char} {sep : List Char} (h : c ∉ cs) :
    cutAt? (c :: sep) cs = none := by
  cases hcut : cutAt? (c :: sep) cs with
  | none => rfl
  | some parts =>
    rw [eq_of_cutAt? hcut] at h
    exact absurd (by simp) h

/-- A text is cut where the separator begins for the first time. -/
theorem cutAt?_append {c : Char} {sep : List Char} (h : c ∉ cs) :
    cutAt? (c :: sep) (cs ++ (c :: sep) ++ ds) = some (cs, ds) := by
  induction cs with
  | nil =>
    have hpre : (c :: sep).isPrefixOf (c :: sep ++ ds) = true :=
      List.isPrefixOf_iff_prefix.mpr (List.prefix_append ..)
    rw [List.nil_append, List.cons_append, cutAt?, ← List.cons_append, if_pos hpre]
    simp
  | cons d cs ih =>
    have hd : c ≠ d := List.ne_of_not_mem_cons h
    have hpre : (c :: sep).isPrefixOf (d :: (cs ++ (c :: sep) ++ ds)) = false := by
      simp [List.isPrefixOf, hd]
    rw [List.cons_append, List.cons_append, cutAt?, hpre, if_neg Bool.false_ne_true,
      ih (List.not_mem_of_not_mem_cons h)]
    rfl

/-! ### Lists of items -/

/-- Blanks at the end of a text belong to its last piece. -/
theorem splitAt_append_blank (cs : List Char) (hsep : isBlank sep = false)
    (hds : ∀ c ∈ ds, isBlank c = true) :
    ∃ pieces last, splitAt sep cs = pieces ++ [last]
      ∧ splitAt sep (cs ++ ds) = pieces ++ [last ++ ds] := by
  induction cs with
  | nil =>
    have hnot : sep ∉ ds := by
      intro h
      rw [hds sep h] at hsep
      cases hsep
    exact ⟨[], [], rfl, splitAt_of_not_mem hnot⟩
  | cons c cs ih =>
    obtain ⟨pieces, last, hcs, hall⟩ := ih
    by_cases hc : c = sep
    · exact ⟨[] :: pieces, last, by simp [splitAt, hc, hcs], by simp [splitAt, hc, hall]⟩
    · cases pieces with
      | nil => exact ⟨[], c :: last, by simp [splitAt, hc, hcs], by simp [splitAt, hc, hall]⟩
      | cons first pieces =>
        exact ⟨(c :: first) :: pieces, last, by simp [splitAt, hc, hcs], by simp [splitAt, hc, hall]⟩

/-- Blanks in front of a text do not matter for its trimmed pieces. -/
theorem map_trim_splitAt_blank_append (hsep : isBlank sep = false)
    (hcs : ∀ c ∈ cs, isBlank c = true) :
    (splitAt sep (cs ++ ds)).map trim = (splitAt sep ds).map trim := by
  induction cs with
  | nil => rfl
  | cons c cs ih =>
    have hblank : ∀ d ∈ [c], isBlank d = true := by simpa using hcs c List.mem_cons_self
    have hc : c ≠ sep := by
      rintro rfl
      simp [hblank c] at hsep
    obtain ⟨first, rest, hsplit, hcons⟩ := splitAt_cons_of_ne (cs ++ ds) hc
    have htrim : trim (c :: first) = trim first := trim_blank_append hblank
    rw [List.cons_append, hcons, ← ih fun d hd => hcs d (List.mem_cons_of_mem c hd), hsplit,
      List.map_cons, List.map_cons, htrim]

/-- Blanks around a text do not matter for its trimmed pieces. -/
theorem map_trim_splitAt_trim (hsep : isBlank sep = false) (cs : List Char) :
    (splitAt sep (trim cs)).map trim = (splitAt sep cs).map trim := by
  obtain ⟨front, back, hfront, hback, heq⟩ := exists_eq_trim cs
  obtain ⟨pieces, last, hcut, hcut'⟩ := splitAt_append_blank (trim cs) hsep hback
  calc (splitAt sep (trim cs)).map trim
      = (splitAt sep (trim cs ++ back)).map trim := by
        rw [hcut, hcut']
        simp [trim_append_blank hback]
    _ = (splitAt sep cs).map trim := by
        rw [← map_trim_splitAt_blank_append hsep hfront, ← List.append_assoc, ← heq]

theorem commaItems_trimmed (s : String) : commaItems (trimmed s) = commaItems s := by
  have hcomma : isBlank ',' = false := rfl
  have h := congrArg (List.map String.ofList) (map_trim_splitAt_trim hcomma s.toList)
  simpa [commaItems, trimmed, Function.comp_def] using h

/-- A text that has no comma is its only item. -/
theorem commaItems_of_not_mem {s : String} (h : ',' ∉ s.toList) : commaItems s = [trimmed s] := by
  rw [commaItems, splitAt_of_not_mem h]
  rfl

/-- The texts that can be an item of a list: trimmed, and without a comma. -/
def IsItem (s : String) : Prop := trimmed s = s ∧ ',' ∉ s.toList

theorem isItem_of_mem_commaItems {s item : String} (h : item ∈ commaItems s) : IsItem item := by
  obtain ⟨piece, hpiece, rfl⟩ := List.mem_map.mp h
  have hcomma := not_mem_of_mem_splitAt hpiece
  obtain ⟨front, back, -, -, heq⟩ := exists_eq_trim piece
  refine ⟨by simp [trimmed], fun hmem => hcomma ?_⟩
  rw [heq]
  simp only [String.toList_ofList] at hmem
  simp [hmem]

/-- Only a blank text has an empty text as its only item. -/
theorem trim_of_commaItems {s : String} (h : commaItems s = [""]) : trim s.toList = [] := by
  rw [commaItems] at h
  obtain ⟨piece, hpieces, hpiece⟩ := List.map_eq_singleton_iff.mp h
  have hs := intercalate_splitAt ',' s.toList
  rw [hpieces, List.intercalate_singleton] at hs
  rw [← hs, ← String.toList_ofList (l := trim piece), hpiece]
  rfl

theorem commaItems_of_blank {s : String} (h : trim s.toList = []) : commaItems s = [""] := by
  rw [← commaItems_trimmed, trimmed, h]
  rfl

theorem commaItems_ne_nil (s : String) : commaItems s ≠ [] := by
  simp [commaItems, splitAt_ne_nil]

/-- Items that are joined as they are shown are told apart again. -/
theorem commaItems_intercalate {items : List String} (hitems : ∀ item ∈ items, IsItem item)
    (hne : items ≠ []) : commaItems (String.intercalate ", " items) = items := by
  induction items with
  | nil => exact absurd rfl hne
  | cons first rest ih =>
    obtain ⟨htrim, hcomma⟩ := hitems first List.mem_cons_self
    cases rest with
    | nil =>
      have hone : String.intercalate ", " [first] = first := by
        rw [← String.toList_inj]
        simp
      rw [hone, commaItems_of_not_mem hcomma, htrim]
    | cons second rest =>
      have hjoined : (String.intercalate ", " (first :: second :: rest)).toList
          = first.toList ++ ',' :: ([' '] ++ (String.intercalate ", " (second :: rest)).toList) := by
        simp [List.intercalate]
      have hrest := ih (fun item h => hitems item (List.mem_cons_of_mem first h)) (by simp)
      have hblank : ∀ cs, (splitAt ',' ([' '] ++ cs)).map trim = (splitAt ',' cs).map trim :=
        fun cs => map_trim_splitAt_blank_append rfl (by simp [isBlank])
      have hcut := congrArg (List.map String.ofList)
        (hblank (String.intercalate ", " (second :: rest)).toList)
      rw [List.map_map, List.map_map] at hcut
      calc commaItems (String.intercalate ", " (first :: second :: rest))
          = trimmed first :: commaItems (String.intercalate ", " (second :: rest)) := by
            rw [commaItems, hjoined, splitAt_append_cons hcomma, List.map_cons]
            exact congrArg (trimmed first :: ·) hcut
        _ = first :: second :: rest := by rw [htrim, hrest]

theorem trim_intercalate_ne_nil {items : List String} (hitems : ∀ item ∈ items, IsItem item)
    (hne : items ≠ []) (hblank : items ≠ [""]) :
    trim (String.intercalate ", " items).toList ≠ [] := by
  intro h
  apply hblank
  rw [← commaItems_intercalate hitems hne, commaItems_of_blank h]

end RecordGraph.Text
