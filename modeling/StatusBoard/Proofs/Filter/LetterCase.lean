import StatusBoard.Filter.Spec
import StatusBoard.Proofs.Filter.Parse
import StatusBoard.Proofs.Text.Cut
import Mathlib.Data.List.Forall2

/-!
# Filters and the case of letters

Texts are alike if they differ only in the case of ASCII letters. Alike texts have one lowercase
form, which is all that a filter sees of them: dimensions that are made from alike texts are the
same dimension, and alike candidates pass the same filters. A written list is cut, trimmed and
rid of its marks before its letters are looked at, so alike lists have alike items.

## Main definitions

* `Text.Alike` — texts that differ only in the case of ASCII letters
* `Dimension.MadeAlike`, `FilterSpec.MadeAlike` — dimensions and filters from alike texts
* `Sample.Alike` — samples that a filter cannot tell apart

## Main results

* `Dimension.MadeAlike.eq`, `FilterSpec.MadeAlike.eq` — they are the same
* `FilterSpec.acceptsSubject_alike`, `FilterSpec.acceptsSample_alike` — alike candidates
-/

namespace StatusBoard

/-- What is the same for related members is the same list for related lists. -/
theorem map_eq_map_of_forall₂ {α β γ : Type} {R : α → β → Prop} {f : α → γ} {g : β → γ}
    {as : List α} {bs : List β} (h : List.Forall₂ R as bs) (hfg : ∀ a b, R a b → f a = g b) :
    as.map f = bs.map g := by
  have hmap : List.Forall₂ (· = ·) (as.map f) (bs.map g) := List.rel_map (fun a b => hfg a b) h
  rwa [List.forall₂_eq_eq_eq] at hmap

theorem any_eq_any_of_forall₂ {α β : Type} {R : α → β → Prop} {p : α → Bool} {q : β → Bool}
    {as : List α} {bs : List β} (h : List.Forall₂ R as bs) (hpq : ∀ a b, R a b → p a = q b) :
    as.any p = bs.any q := by
  induction h with
  | nil => rfl
  | cons hab _ ih => rw [List.any_cons, List.any_cons, hpq _ _ hab, ih]

/-! ### Alike texts -/

namespace Text

/-- The texts differ only in the case of ASCII letters. -/
abbrev Alike (t t' : String) : Prop := sameIgnoringCase t t' = true

theorem Alike.trim {t t' : String} (h : Alike t t') : Alike (Text.trim t) (Text.trim t') := by
  rw [Alike, sameIgnoringCase_iff] at h ⊢
  simp only [Text.trim, String.toList_ofList, ← trimChars_map _ isBlank_toLower, h]

end Text

namespace Dimension

variable {raw raw' : String}

theorem sameText_of_alike {t t' : String} (h : Text.Alike t t') : SameText t t' :=
  Text.lowercase_congr h.trim

theorem sameText_ofList {cs cs' : List Char}
    (h : cs.map Char.toLower = cs'.map Char.toLower) :
    SameText (String.ofList cs) (String.ofList cs') := by
  apply sameText_of_alike
  rwa [Text.Alike, Text.sameIgnoringCase_iff, String.toList_ofList, String.toList_ofList]

/-- Lists of alike texts make one set. -/
theorem normalize_alike {ts ts' : List String} (h : List.Forall₂ Text.Alike ts ts') :
    normalize ts = normalize ts' := by
  have hmap := map_eq_map_of_forall₂ h fun _ _ => sameText_of_alike
  rw [normalize, normalize, hmap]

/-! ### Alike lists -/

theorem items_map_toLower (cs : List Char) :
    items (cs.map Char.toLower) = (items cs).map (List.map Char.toLower) := by
  have hpieces : Text.pieces ',' (cs.map Char.toLower) =
      (Text.pieces ',' cs).map (List.map Char.toLower) :=
    Text.pieces_map (Text.toLower_eq_iff (by decide)) cs
  have htrim : Text.trimChars ∘ List.map Char.toLower =
      List.map Char.toLower ∘ Text.trimChars :=
    funext fun piece => Text.trimChars_map piece Text.isBlank_toLower
  rw [items, items, hpieces, List.map_map, htrim, ← List.map_map, List.filter_map]
  congr 1
  simp [Function.comp_def]

theorem isExcluded_map_toLower (item : List Char) :
    isExcluded (item.map Char.toLower) = isExcluded item := by
  have hmark : ∀ c : Char, c.toLower = excludeMark ↔ c = excludeMark :=
    Text.toLower_eq_iff (by decide)
  cases item with
  | nil => rfl
  | cons c cs => simp [isExcluded, hmark]

theorem sameItem_of_map_toLower_eq {i i' : List Char}
    (h : i.map Char.toLower = i'.map Char.toLower) : SameItem i i' where
  marked := by rw [← isExcluded_map_toLower i, h, isExcluded_map_toLower]
  text := sameText_ofList h
  tail := sameText_ofList (by rw [List.map_tail, List.map_tail, h])

/-- Each item of a list counts as one of an alike list. -/
theorem exists_sameItem_of_alike (h : Text.Alike raw raw') {i : List Char}
    (hi : i ∈ items raw.toList) : ∃ i' ∈ items raw'.toList, SameItem i i' := by
  have hsmall : i.map Char.toLower ∈ (items raw'.toList).map (List.map Char.toLower) := by
    rw [← items_map_toLower, ← Text.sameIgnoringCase_iff.mp h, items_map_toLower]
    exact List.mem_map_of_mem hi
  obtain ⟨i', hi', heq⟩ := List.mem_map.mp hsmall
  exact ⟨i', hi', sameItem_of_map_toLower_eq heq.symm⟩

theorem sameItems_of_alike (h : Text.Alike raw raw') : SameItems raw raw' where
  forth _ hi := exists_sameItem_of_alike h hi
  back _ hi' := by
    have hback : Text.Alike raw' raw := by
      rw [Text.Alike, Text.sameIgnoringCase_iff, Text.sameIgnoringCase_iff.mp h]
    obtain ⟨i, hi, hsame⟩ := exists_sameItem_of_alike hback hi'
    exact ⟨i, hi, hsame.symm⟩

/-- Alike lists are parsed to the same dimension, or both rejected. -/
theorem parse_alike (h : Text.Alike raw raw') (d? : Option Dimension) :
    parse raw = .ok d? ↔ parse raw' = .ok d? := parse_congr (sameItems_of_alike h) d?

/-! ### Dimensions of alike texts -/

/-- Two dimensions, or two that are unset, that are made from alike texts. -/
inductive MadeAlike : Option Dimension → Option Dimension → Prop
  | unset : MadeAlike none none
  | included {ts ts' : List String} (h : List.Forall₂ Text.Alike ts ts') :
      MadeAlike (some (includeTexts ts)) (some (includeTexts ts'))
  | excluded {ts ts' : List String} (h : List.Forall₂ Text.Alike ts ts') :
      MadeAlike (some (excludeTexts ts)) (some (excludeTexts ts'))
  | parsed {raw raw' : String} {d? d?' : Option Dimension} (h : Text.Alike raw raw')
      (hparse : parse raw = .ok d?) (hparse' : parse raw' = .ok d?') : MadeAlike d? d?'

theorem MadeAlike.eq {d? d?' : Option Dimension} (h : MadeAlike d? d?') : d? = d?' := by
  cases h with
  | unset => rfl
  | included h => rw [includeTexts, includeTexts, normalize_alike h]
  | excluded h => rw [excludeTexts, excludeTexts, normalize_alike h]
  | parsed h hparse hparse' =>
    rw [parse_alike h, hparse'] at hparse
    exact (Except.ok.inj hparse).symm

/-! ### Alike candidates -/

theorem acceptsAny_alike (d : Dimension) {candidates candidates' : List String}
    (h : List.Forall₂ Text.Alike candidates candidates') :
    d.acceptsAny candidates = d.acceptsAny candidates' := by
  have hhits : ∀ values : TextSet, hits values candidates = hits values candidates' := fun values =>
    any_eq_any_of_forall₂ h fun _ _ hc => congrArg values.contains (Text.lowercase_congr hc)
  cases d <;> simp only [acceptsAny, hhits]

theorem accepts_alike (d : Dimension) {candidate candidate' : String}
    (h : Text.Alike candidate candidate') : d.accepts candidate = d.accepts candidate' :=
  d.acceptsAny_alike (.cons h .nil)

end Dimension

/-! ### Filters of alike texts -/

/-- Two samples with alike metrics, alike tags and the same severity. -/
structure Sample.Alike (x x' : Sample) : Prop where
  metric : Text.Alike x.metric x'.metric
  metricTags : List.Forall₂ Text.Alike x.metricTags x'.metricTags
  status : x.status = x'.status

namespace FilterSpec

/-- Two filters whose dimensions are made from alike texts. -/
structure MadeAlike (filter filter' : FilterSpec) : Prop where
  entityTags : Dimension.MadeAlike filter.entityTags filter'.entityTags
  metricName : Dimension.MadeAlike filter.metricName filter'.metricName
  metricTags : Dimension.MadeAlike filter.metricTags filter'.metricTags
  severity : Dimension.MadeAlike filter.severity filter'.severity

theorem MadeAlike.eq {filter filter' : FilterSpec} (h : filter.MadeAlike filter') :
    filter = filter' := by
  cases filter
  rw [mk.injEq]
  exact ⟨h.entityTags.eq, h.metricName.eq, h.metricTags.eq, h.severity.eq⟩

variable (filter : FilterSpec)

theorem acceptsSubject_alike {tags tags' : List String} (h : List.Forall₂ Text.Alike tags tags') :
    filter.acceptsSubject tags = filter.acceptsSubject tags' := by
  simp only [acceptsSubject, Dimension.acceptsAny_alike _ h]

theorem acceptsSample_alike {x x' : Sample} (h : x.Alike x') :
    filter.acceptsSample x = filter.acceptsSample x' := by
  simp only [acceptsSample, Dimension.accepts_alike _ h.metric,
    Dimension.acceptsAny_alike _ h.metricTags, h.status]

end FilterSpec

end StatusBoard
