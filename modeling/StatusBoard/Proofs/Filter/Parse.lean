import StatusBoard.Proofs.Filter.Dimension

/-!
# Parsed dimensions

The items of a comma-separated list decide what it is parsed to: included texts, excluded texts,
nothing, or a rejection. Items count alike if both are marked or neither is, and if they leave the
same texts; how many there are of them and in which order they stand is no matter.

## Main definitions

* `Dimension.Mixes` — some items of a list are marked as excluded and some are not
* `Dimension.Parses` — what a list is parsed to, by its items
* `Dimension.SameItems` — each item of one list counts as some item of another

## Main results

* `parse_eq_iff` — what a list is parsed to
* `parse_congr` — lists whose items count alike
-/

namespace StatusBoard.Dimension

variable {raw raw' : String}

/-- The items of a list are partly marked as excluded. -/
def Mixes (raw : String) : Prop :=
  (∃ i ∈ items raw.toList, isExcluded i = true) ∧ ∃ i ∈ items raw.toList, isExcluded i = false

instance (raw : String) : Decidable (Mixes raw) :=
  inferInstanceAs (Decidable ((∃ i ∈ items raw.toList, isExcluded i = true) ∧
    ∃ i ∈ items raw.toList, isExcluded i = false))

/-- What a list is parsed to, by its items. -/
inductive Parses (raw : String) : Except Fault (Option Dimension) → Prop
  /-- There are no items, or nothing but marks. -/
  | unset (h : ∀ i ∈ items raw.toList, isExcluded i = true ∧ Text.Blank (String.ofList i.tail)) :
      Parses raw (.ok none)
  | included (hne : ∃ i, i ∈ items raw.toList) (h : ∀ i ∈ items raw.toList, isExcluded i = false) :
      Parses raw (.ok (some (includeTexts ((items raw.toList).map String.ofList))))
  | excluded (hne : ∃ i ∈ items raw.toList, ¬ Text.Blank (String.ofList i.tail))
      (h : ∀ i ∈ items raw.toList, isExcluded i = true) :
      Parses raw (.ok (some (excludeTexts ((items raw.toList).map fun i => String.ofList i.tail))))
  | rejected (h : Mixes raw) : Parses raw (.error (.mixedFilter raw))

theorem unmarked_eq_nil_iff {its : List (List Char)} :
    unmarked its = [] ↔ ∀ i ∈ its, Text.Blank (String.ofList i.tail) := by
  simp [unmarked, Text.Blank, Text.trimChars_eq_nil_iff]

theorem excludeTexts_unmarked (its : List (List Char)) :
    excludeTexts ((unmarked its).map String.ofList) =
      excludeTexts (its.map fun i => String.ofList i.tail) := by
  have htails : unmarked its = ((its.map List.tail).map Text.trimChars).filter (· ≠ []) := by
    rw [unmarked, List.map_map]
    rfl
  rw [excludeTexts, htails, normalize_trimmed, excludeTexts, List.map_map]
  rfl

theorem parses_parse (raw : String) : Parses raw (parse raw) := by
  simp only [parse, List.all_eq_true, Bool.not_eq_true', unmarked_eq_nil_iff,
    excludeTexts_unmarked]
  split_ifs with hnil hplain hmarked hbare
  · exact .unset (by simp [hnil])
  · exact .included (List.exists_mem_of_ne_nil _ hnil) hplain
  · exact .unset fun i hi => ⟨hmarked i hi, hbare i hi⟩
  · exact .excluded (by simpa using hbare) hmarked
  · exact .rejected ⟨by simpa using hplain, by simpa using hmarked⟩

/-- The conditions exclude each other. -/
theorem Parses.unique {o o' : Except Fault (Option Dimension)} (h : Parses raw o)
    (h' : Parses raw o') : o = o' := by
  cases h <;> cases h' <;> grind [Mixes]

theorem parse_eq_iff {o : Except Fault (Option Dimension)} : parse raw = o ↔ Parses raw o :=
  ⟨fun h => h ▸ parses_parse raw, (parses_parse raw).unique⟩

theorem parse_eq_error_iff {fault : Fault} :
    parse raw = .error fault ↔ Mixes raw ∧ fault = .mixedFilter raw := by
  rw [parse_eq_iff]
  constructor
  · rintro ⟨⟩
    exact ⟨‹_›, rfl⟩
  · rintro ⟨h, rfl⟩
    exact .rejected h

/-- An item holds something besides blanks. -/
theorem not_blank_of_mem_items {cs i : List Char} (h : i ∈ items cs) :
    ¬ Text.Blank (String.ofList i) := by
  obtain ⟨hpiece, hne⟩ := List.mem_filter.mp h
  obtain ⟨piece, -, rfl⟩ := List.mem_map.mp hpiece
  rw [(sameText_trimChars piece).blank_iff, Text.Blank, String.toList_ofList,
    ← Text.trimChars_eq_nil_iff]
  simpa using hne

/-- A parsed dimension has texts. -/
theorem Parses.exists_mem_values {d : Dimension} (h : Parses raw (.ok (some d))) :
    ∃ x, x ∈ d.values := by
  have hkept : ∀ {ts : List String} {t : String}, t ∈ ts → ¬ Text.Blank t →
      ∃ x, x ∈ normalize ts := fun ht hblank => ⟨_, mem_normalize.mpr ⟨_, ht, hblank, rfl⟩⟩
  cases h with
  | included hne =>
    obtain ⟨i, hi⟩ := hne
    exact hkept (List.mem_map_of_mem hi) (not_blank_of_mem_items hi)
  | excluded hne =>
    obtain ⟨i, hi, hblank⟩ := hne
    exact hkept (List.mem_map_of_mem hi) hblank

/-! ### Items that count alike -/

/-- Two items that count alike: both are marked or neither is, and they leave the same texts. -/
structure SameItem (i i' : List Char) : Prop where
  marked : isExcluded i = isExcluded i'
  text : SameText (String.ofList i) (String.ofList i')
  tail : SameText (String.ofList i.tail) (String.ofList i'.tail)

/-- Each item of one list counts as some item of the other. -/
structure SameItems (raw raw' : String) : Prop where
  forth : ∀ i ∈ items raw.toList, ∃ i' ∈ items raw'.toList, SameItem i i'
  back : ∀ i' ∈ items raw'.toList, ∃ i ∈ items raw.toList, SameItem i i'

theorem SameItem.symm {i i' : List Char} (h : SameItem i i') : SameItem i' i :=
  ⟨h.marked.symm, h.text.symm, h.tail.symm⟩

theorem SameItems.symm (h : SameItems raw raw') : SameItems raw' raw where
  forth i' hi' := (h.back i' hi').imp fun _ hi => ⟨hi.1, hi.2.symm⟩
  back i hi := (h.forth i hi).imp fun _ hi' => ⟨hi'.1, hi'.2.symm⟩

/-- A text of each item gives one set, if items that count alike give the same text. -/
theorem SameItems.normalize_map (h : SameItems raw raw') {text : List Char → String}
    (htext : ∀ i i', SameItem i i' → SameText (text i) (text i')) :
    normalize ((items raw.toList).map text) = normalize ((items raw'.toList).map text) := by
  apply normalize_congr
  · intro t ht
    obtain ⟨i, hi, rfl⟩ := List.mem_map.mp ht
    obtain ⟨i', hi', hsame⟩ := h.forth i hi
    exact ⟨text i', List.mem_map_of_mem hi', htext i i' hsame⟩
  · intro t' ht'
    obtain ⟨i', hi', rfl⟩ := List.mem_map.mp ht'
    obtain ⟨i, hi, hsame⟩ := h.back i' hi'
    exact ⟨text i, List.mem_map_of_mem hi, htext i i' hsame⟩

theorem Parses.of_sameItems (h : SameItems raw raw') {d? : Option Dimension}
    (hparses : Parses raw (.ok d?)) : Parses raw' (.ok d?) := by
  -- What holds of all items, or of some, passes on to the other list.
  cases hparses with
  | unset hall =>
    refine .unset fun i' hi' => ?_
    obtain ⟨i, hi, hsame⟩ := h.back i' hi'
    rw [← hsame.marked, ← hsame.tail.blank_iff]
    exact hall i hi
  | included hne hall =>
    rw [includeTexts, h.normalize_map fun _ _ hsame => hsame.text]
    refine .included ?_ fun i' hi' => ?_
    · obtain ⟨i, hi⟩ := hne
      exact (h.forth i hi).imp fun _ hi' => hi'.1
    · obtain ⟨i, hi, hsame⟩ := h.back i' hi'
      exact hsame.marked ▸ hall i hi
  | excluded hne hall =>
    rw [excludeTexts, h.normalize_map fun _ _ hsame => hsame.tail]
    refine .excluded ?_ fun i' hi' => ?_
    · obtain ⟨i, hi, hblank⟩ := hne
      obtain ⟨i', hi', hsame⟩ := h.forth i hi
      exact ⟨i', hi', mt hsame.tail.blank_iff.mpr hblank⟩
    · obtain ⟨i, hi, hsame⟩ := h.back i' hi'
      exact hsame.marked ▸ hall i hi

/-- Lists whose items count alike are parsed to the same dimension, or both rejected. -/
theorem parse_congr (h : SameItems raw raw') (d? : Option Dimension) :
    parse raw = .ok d? ↔ parse raw' = .ok d? := by
  rw [parse_eq_iff, parse_eq_iff]
  exact ⟨.of_sameItems h, .of_sameItems h.symm⟩

end StatusBoard.Dimension
