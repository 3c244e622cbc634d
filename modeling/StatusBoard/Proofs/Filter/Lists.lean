import StatusBoard.Proofs.Filter.Parse
import StatusBoard.Proofs.Text.Cut
import Mathlib.Logic.Relation

/-!
# Lists of texts as dimensions

A comma-separated list of texts is parsed to the dimension of these texts. Blanks, blank items,
the order of the items and repeated items have no part in it, and an item loses one mark only.
What is parsed always has texts: an empty dimension would let nothing pass, or everything.

## Main definitions

* `Dimension.joined` — texts as a comma-separated list
* `Dimension.Marked` — a text is marked as excluded
* `Dimension.Edit` — one change to a list of texts that the parsed dimension does not show

## Main results

* `items_joined` — the items of a list of texts
* `Edit.exists_mem_iff`, `sameItems_of_edits` — what one edit keeps, and what many keep
* `parse_joined` — which dimension a list of texts is parsed to, and when it is rejected
-/

namespace StatusBoard.Dimension

variable {ts ts' : List String}

/-- The texts as a comma-separated list. -/
def joined (ts : List String) : String := ",".intercalate ts

/-- The text is marked as excluded, blanks in front aside. -/
def Marked (t : String) : Prop := isExcluded (Text.trimChars t.toList) = true

instance (t : String) : Decidable (Marked t) :=
  inferInstanceAs (Decidable (isExcluded (Text.trimChars t.toList) = true))

theorem toList_joined (ts : List String) :
    (joined ts).toList = [','].intercalate (ts.map String.toList) := String.toList_intercalate

/-- Every text is a list of texts without commas. -/
theorem exists_joined_eq (raw : String) :
    ∃ ts, (∀ t ∈ ts, ',' ∉ t.toList) ∧ joined ts = raw := by
  refine ⟨(Text.pieces ',' raw.toList).map String.ofList, fun t ht => ?_, ?_⟩
  · obtain ⟨piece, hpiece, rfl⟩ := List.mem_map.mp ht
    rw [String.toList_ofList]
    exact Text.not_mem_of_mem_pieces hpiece
  · have hmap : String.toList ∘ String.ofList = id := funext fun _ => String.toList_ofList
    rw [← String.toList_inj, toList_joined, List.map_map, hmap, List.map_id, Text.pieces_eq_splitOn,
      List.intercalate_splitOn]

section Items

variable (hplain : ∀ t ∈ ts, ',' ∉ t.toList)

include hplain

theorem items_joined : items (joined ts).toList =
    ((ts.map String.toList).map Text.trimChars).filter (· ≠ []) := by
  cases ts with
  | nil => rfl
  | cons t ts =>
    have hpieces : ∀ piece ∈ (t :: ts).map String.toList, ',' ∉ piece := by
      simpa [List.forall_mem_map] using hplain
    rw [items, toList_joined, Text.pieces_eq_splitOn,
      List.splitOn_intercalate ',' hpieces (by simp)]

theorem mem_items_joined {i : List Char} : i ∈ items (joined ts).toList ↔
    ∃ t ∈ ts, ¬ Text.Blank t ∧ Text.trimChars t.toList = i := by
  rw [items_joined hplain, List.map_map, List.mem_filter, List.mem_map, decide_eq_true_eq]
  constructor
  · rintro ⟨⟨t, ht, rfl⟩, hne⟩
    exact ⟨t, ht, mt Text.trimChars_eq_nil_iff.mpr hne, rfl⟩
  · rintro ⟨t, ht, hblank, rfl⟩
    exact ⟨⟨t, ht, rfl⟩, mt Text.trimChars_eq_nil_iff.mp hblank⟩

end Items

/-! ### Edits -/

/-- One change to a list of texts that the parsed dimension does not show. -/
inductive Edit : List String → List String → Prop
  /-- A blank text is put in. -/
  | blank (before after : List String) {t : String} (h : Text.Blank t) :
      Edit (before ++ after) (before ++ t :: after)
  /-- Blanks are put around a text. -/
  | pad (before after : List String) (t : String) {l r : String} (hl : Text.Blank l)
      (hr : Text.Blank r) : Edit (before ++ t :: after) (before ++ (l ++ t ++ r) :: after)
  /-- The texts are put in another order. -/
  | permute {ts ts' : List String} (h : ts.Perm ts') : Edit ts ts'
  /-- A text is put in once more. -/
  | again (before after : List String) {t : String} (h : t ∈ before ++ after) :
      Edit (before ++ after) (before ++ t :: after)

theorem exists_mem_insert_iff {p : String → Prop} (before after : List String) (t : String) :
    (∃ x ∈ before ++ t :: after, p x) ↔ p t ∨ ∃ x ∈ before ++ after, p x := by
  simp only [List.perm_middle.mem_iff, List.exists_mem_cons_iff]

section Keeps

variable {p : String → Prop} (hblank : ∀ t, Text.Blank t → ¬ p t)
  (hpad : ∀ l t r, Text.Blank l → Text.Blank r → (p (l ++ t ++ r) ↔ p t))

include hblank hpad

/-- An edit keeps whether some text has a property, if no blank text has it and blanks around a
text are no matter. -/
theorem Edit.exists_mem_iff (h : Edit ts ts') : (∃ t ∈ ts, p t) ↔ ∃ t ∈ ts', p t := by
  cases h with
  | blank before after h => rw [exists_mem_insert_iff, or_iff_right (hblank _ h)]
  | pad before after t hl hr =>
    rw [exists_mem_insert_iff, exists_mem_insert_iff, hpad _ _ _ hl hr]
  | permute h => simp only [h.mem_iff]
  | again before after h =>
    rw [exists_mem_insert_iff, or_iff_right_of_imp]
    exact fun hp => ⟨_, h, hp⟩

theorem exists_mem_iff_of_edits (h : Relation.ReflTransGen Edit ts ts') :
    (∃ t ∈ ts, p t) ↔ ∃ t ∈ ts', p t := by
  induction h with
  | refl => rfl
  | tail _ hstep ih => exact ih.trans (hstep.exists_mem_iff hblank hpad)

end Keeps

/-- Blanks have no commas. -/
theorem plain_of_edits (h : Relation.ReflTransGen Edit ts ts')
    (hplain : ∀ t ∈ ts, ',' ∉ t.toList) : ∀ t ∈ ts', ',' ∉ t.toList := by
  have hblank : ∀ t, Text.Blank t → ¬ ',' ∈ t.toList := fun t ht hmem =>
    absurd (ht ',' hmem) (by decide)
  have hsome := exists_mem_iff_of_edits hblank (fun l t r hl hr => by
    simp [hblank l hl, hblank r hr]) h
  intro t ht hmem
  obtain ⟨t, ht, hmem⟩ := hsome.mpr ⟨t, ht, hmem⟩
  exact hplain t ht hmem

theorem SameItem.refl (i : List Char) : SameItem i i := ⟨rfl, rfl, rfl⟩

theorem trimChars_pad {l r : String} (t : String) (hl : Text.Blank l) (hr : Text.Blank r) :
    Text.trimChars (l ++ t ++ r).toList = Text.trimChars t.toList := by
  rw [String.toList_append, String.toList_append, Text.trimChars_append_right hr,
    Text.trimChars_append_left hl]

/-- Edits keep the items of a list. -/
theorem sameItems_of_edits (h : Relation.ReflTransGen Edit ts ts')
    (hplain : ∀ t ∈ ts, ',' ∉ t.toList) : SameItems (joined ts) (joined ts') := by
  have hitems : ∀ i, i ∈ items (joined ts).toList ↔ i ∈ items (joined ts').toList := by
    intro i
    rw [mem_items_joined hplain, mem_items_joined (plain_of_edits h hplain)]
    refine exists_mem_iff_of_edits (fun t ht hp => hp.1 ht) (fun l t r hl hr => ?_) h
    rw [Text.Blank, ← Text.trimChars_eq_nil_iff, trimChars_pad t hl hr, Text.trimChars_eq_nil_iff,
      Text.Blank]
  exact ⟨fun i hi => ⟨i, (hitems i).mp hi, .refl i⟩, fun i hi => ⟨i, (hitems i).mpr hi, .refl i⟩⟩

/-! ### Parsing -/

/-- A mark in front stays in front. -/
theorem trimChars_mark (t : String) :
    Text.trimChars ("-" ++ t).toList = '-' :: t.toList.rdropWhile Text.isBlank := by
  rw [String.toList_append]
  exact Text.trimChars_cons t.toList (by decide)

theorem marked_mark (t : String) : Marked ("-" ++ t) := by
  rw [Marked, trimChars_mark]
  rfl

theorem not_blank_of_marked {t : String} (h : Marked t) : ¬ Text.Blank t := by
  intro hblank
  rw [Marked, Text.trimChars_eq_nil_iff.mpr hblank] at h
  cases h

section Plain

variable (hplain : ∀ t ∈ ts, ',' ∉ t.toList)

include hplain

theorem mixes_joined_iff : Mixes (joined ts) ↔
    (∃ t ∈ ts, Marked t) ∧ ∃ t ∈ ts, ¬ Text.Blank t ∧ ¬ Marked t := by
  simp only [Mixes, mem_items_joined hplain]
  refine and_congr ⟨?_, ?_⟩ ⟨?_, ?_⟩
  · rintro ⟨_, ⟨t, ht, -, rfl⟩, hmarked⟩
    exact ⟨t, ht, hmarked⟩
  · rintro ⟨t, ht, hmarked⟩
    exact ⟨_, ⟨t, ht, not_blank_of_marked hmarked, rfl⟩, hmarked⟩
  · rintro ⟨_, ⟨t, ht, hblank, rfl⟩, hmarked⟩
    exact ⟨t, ht, hblank, by simp [Marked, hmarked]⟩
  · rintro ⟨t, ht, hblank, hmarked⟩
    exact ⟨_, ⟨t, ht, hblank, rfl⟩, by simpa [Marked] using hmarked⟩

variable (hne : ts ≠ []) (hblank : ∀ t ∈ ts, ¬ Text.Blank t)

include hne hblank

theorem parse_joined_of_not_marked (h : ∀ t ∈ ts, ¬ Marked t) :
    parse (joined ts) = .ok (some (includeTexts ts)) := by
  have htexts : includeTexts ((items (joined ts).toList).map String.ofList) = includeTexts ts := by
    rw [includeTexts, items_joined hplain, normalize_trimmed, List.map_map, includeTexts]
    simp
  rw [parse_eq_iff, ← htexts]
  refine .included ?_ fun i hi => ?_
  · obtain ⟨t, ht⟩ := List.exists_mem_of_ne_nil _ hne
    exact ⟨_, (mem_items_joined hplain).mpr ⟨t, ht, hblank t ht, rfl⟩⟩
  · obtain ⟨t, ht, -, rfl⟩ := (mem_items_joined hplain).mp hi
    simpa [Marked] using h t ht

theorem parse_joined_marks :
    parse (joined (ts.map ("-" ++ ·))) = .ok (some (excludeTexts ts)) := by
  have hplain' : ∀ t ∈ ts.map ("-" ++ ·), ',' ∉ t.toList := by
    simpa [List.forall_mem_map] using hplain
  -- An item is a mark and a text without the blanks at its end.
  have hitems : ∀ i, i ∈ items (joined (ts.map ("-" ++ ·))).toList ↔
      ∃ t ∈ ts, '-' :: t.toList.rdropWhile Text.isBlank = i := by
    intro i
    rw [mem_items_joined hplain']
    simp only [List.mem_map, exists_exists_and_eq_and, trimChars_mark,
      not_blank_of_marked (marked_mark _), not_false_eq_true, true_and]
  have hsame : ∀ t : String,
      SameText (String.ofList (t.toList.rdropWhile Text.isBlank)) t := by
    intro t
    rw [SameText, trim_ofList, Text.trimChars_rdropWhile, Text.trim]
  have htexts : excludeTexts ((items (joined (ts.map ("-" ++ ·))).toList).map fun i =>
      String.ofList i.tail) = excludeTexts ts := by
    refine congrArg excluding (normalize_congr ?_ ?_)
    · rw [List.forall_mem_map]
      intro i hi
      obtain ⟨t, ht, rfl⟩ := (hitems i).mp hi
      exact ⟨t, ht, hsame t⟩
    · intro t ht
      exact ⟨_, List.mem_map_of_mem ((hitems _).mpr ⟨t, ht, rfl⟩), hsame t⟩
  rw [parse_eq_iff, ← htexts]
  refine .excluded ?_ fun i hi => ?_
  · obtain ⟨t, ht⟩ := List.exists_mem_of_ne_nil _ hne
    exact ⟨_, (hitems _).mpr ⟨t, ht, rfl⟩, mt (hsame t).blank_iff.mp (hblank t ht)⟩
  · obtain ⟨t, -, rfl⟩ := (hitems i).mp hi
    rfl

end Plain

/-- A comma-separated list of texts without commas, none of them blank, is parsed to the dimension
that includes them if none is marked. With a mark in front of each it is parsed to the one that
excludes them, marked texts among them. A list is rejected iff some but not all of its texts are
marked, those that are blank aside. Edits leave what a list is parsed to, and every text is such a
list. No text is parsed to an empty dimension. -/
theorem parse_joined (ts : List String) (hplain : ∀ t ∈ ts, ',' ∉ t.toList) :
    (ts ≠ [] → (∀ t ∈ ts, ¬ Text.Blank t) →
      ((∀ t ∈ ts, ¬ Marked t) → parse (joined ts) = .ok (some (includeTexts ts))) ∧
      parse (joined (ts.map ("-" ++ ·))) = .ok (some (excludeTexts ts))) ∧
    ((parse (joined ts) = .error (.mixedFilter (joined ts)) ↔
        (∃ t ∈ ts, Marked t) ∧ ∃ t ∈ ts, ¬ Text.Blank t ∧ ¬ Marked t) ∧
      (∀ t, Marked ("-" ++ t)) ∧
      ∃ text, (Fault.mixedFilter (joined ts)).message = validationMessage text) ∧
    (∀ ts', Relation.ReflTransGen Edit ts ts' →
      ∀ d?, parse (joined ts) = .ok d? ↔ parse (joined ts') = .ok d?) ∧
    (∀ raw, ∃ ts', (∀ t ∈ ts', ',' ∉ t.toList) ∧ joined ts' = raw) ∧
    ∀ raw d, parse raw = .ok (some d) → ∃ x, x ∈ d.values := by
  refine ⟨?_, ⟨?_, marked_mark, _, rfl⟩, ?_, exists_joined_eq, ?_⟩
  · intro hne hblank
    exact ⟨parse_joined_of_not_marked hplain hne hblank, parse_joined_marks hplain hne hblank⟩
  · rw [← mixes_joined_iff hplain, parse_eq_error_iff, and_iff_left rfl]
  · intro ts' hedits
    exact parse_congr (sameItems_of_edits hedits hplain)
  · intro raw d h
    exact (parse_eq_iff.mp h).exists_mem_values

/-- Two texts, the first of them marked and the second with blanks. -/
def dashed : List String := ["-x", " Y"]

/-- The texts with marks in front, in another order and one of them twice. -/
theorem edits_dashed : Relation.ReflTransGen Edit (dashed.map ("-" ++ ·)) ["- Y", "--x", "- Y"] :=
  .tail (.single (.permute (.swap "- Y" "--x" []))) (.again ["- Y", "--x"] [] (by decide))

theorem parse_joined_dashed :
    (∀ t ∈ dashed, ',' ∉ t.toList) ∧ dashed ≠ [] ∧ (∀ t ∈ dashed, ¬ Text.Blank t) ∧
    parse "--x,- Y" = .ok (some (excludeTexts dashed)) ∧
    parse "-x, Y" = .error (.mixedFilter "-x, Y") ∧
    parse "- Y,--x,- Y" = .ok (some (excludeTexts dashed)) ∧
    parse " Y" = .ok (some (includeTexts [" Y"])) := by
  have hplain : ∀ t ∈ dashed, ',' ∉ t.toList := by decide
  have hblank : ∀ t ∈ dashed, ¬ Text.Blank t := by decide
  obtain ⟨hall, ⟨hrejected, -⟩, -⟩ := parse_joined dashed hplain
  obtain ⟨-, hmarks⟩ := hall (by decide) hblank
  obtain ⟨-, -, hedits, -⟩ := parse_joined (dashed.map ("-" ++ ·)) (by decide)
  obtain ⟨hone, -⟩ := parse_joined [" Y"] (by decide)
  refine ⟨hplain, by decide, hblank, hmarks, hrejected.mpr (by decide), ?_, ?_⟩
  · exact (hedits _ edits_dashed _).mp hmarks
  · exact (hone (by decide) (by decide)).1 (by decide)

end StatusBoard.Dimension
