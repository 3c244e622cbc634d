import StatusBoard.Text.Blank
import StatusBoard.Text.CaseFold
import StatusBoard.Text.Lowercase
import Mathlib.Data.List.Basic

/-!
# Lowercase forms and the case of ASCII letters

The lowercase form of a text does not depend on the case of its ASCII letters: a small and a
capital letter have one form, and they count alike beside a capital sigma. It has no ASCII
capitals, so it is equal up to case only to texts with the same ASCII letters.

## Main definitions

* `Text.capitals` — the ASCII capitals

## Main results

* `map_toLower_eq` — what is the same for each capital and its small letter
* `lowercase_congr` — texts that are equal up to case have one lowercase form
* `map_toLower_lowercase` — lowercase forms have no ASCII capitals
* `lowercase_eq_empty_iff` — no character is lost
-/

namespace StatusBoard.Text

/-! ### Capitals -/

/-- The ASCII capitals. -/
def capitals : List Char := (List.range 26).map fun n => Char.ofNat (n + 65)

theorem mem_capitals_iff {c : Char} : c ∈ capitals ↔ 65 ≤ c.toNat ∧ c.toNat ≤ 90 := by
  constructor
  · intro h
    have hall : capitals.all (fun c => 65 ≤ c.toNat && c.toNat ≤ 90) = true := by decide
    simpa using List.all_eq_true.mp hall c h
  · rintro ⟨hlow, hhigh⟩
    refine List.mem_map.mpr ⟨c.toNat - 65, List.mem_range.mpr (by omega), ?_⟩
    rw [Nat.sub_add_cancel hlow, Char.ofNat_toNat]

/-- Only capitals have another small letter. -/
theorem toLower_eq_self_or_mem_capitals (c : Char) : c.toLower = c ∨ c ∈ capitals := by
  unfold Char.toLower
  split
  · rename_i h
    exact .inr (mem_capitals_iff.mpr h)
  · exact .inl rfl

/-- What is the same for each ASCII capital and its small letter does not depend on case. -/
theorem map_toLower_eq {β : Type} {f : Char → β}
    (h : capitals.map (fun c => f c.toLower) = capitals.map f) (c : Char) :
    f c.toLower = f c := by
  rcases toLower_eq_self_or_mem_capitals c with hself | hmem
  · rw [hself]
  · exact List.map_inj_left.mp h c hmem

theorem isBlank_toLower (c : Char) : isBlank c.toLower = isBlank c :=
  map_toLower_eq (by decide) c

theorem isCaseIgnorable_toLower (c : Char) : isCaseIgnorable c.toLower = isCaseIgnorable c :=
  map_toLower_eq (by decide) c

theorem isPlainlyCased_toLower (c : Char) : isPlainlyCased c.toLower = isPlainlyCased c :=
  map_toLower_eq (by decide) c

theorem lowerChar_toLower (c : Char) : lowerChar c.toLower = lowerChar c :=
  map_toLower_eq (by decide) c

/-- A character that is no ASCII letter is reached from itself alone. -/
theorem toLower_eq_iff {d : Char} (h : d ∉ capitals ++ capitals.map Char.toLower) (c : Char) :
    c.toLower = d ↔ c = d := by
  rcases toLower_eq_self_or_mem_capitals c with hself | hmem
  · rw [hself]
  · rw [List.mem_append, not_or] at h
    constructor
    · rintro rfl
      exact absurd (List.mem_map_of_mem hmem) h.2
    · rintro rfl
      exact absurd hmem h.1

/-! ### Texts that are equal up to case -/

theorem besideCased_map_toLower (cs : List Char) :
    besideCased (cs.map Char.toLower) = besideCased cs := by
  induction cs with
  | nil => rfl
  | cons c cs ih =>
    rw [List.map_cons, besideCased, besideCased, isCaseIgnorable_toLower, isPlainlyCased_toLower,
      ih]

theorem lowerInContext_toLower (before : List Char) (c : Char) (after : List Char) :
    lowerInContext (before.map Char.toLower) c.toLower (after.map Char.toLower) =
      lowerInContext before c after := by
  have hsigma : c.toLower = 'Σ' ↔ c = 'Σ' := toLower_eq_iff (by decide) c
  have hdotted : c.toLower = 'İ' ↔ c = 'İ' := toLower_eq_iff (by decide) c
  simp only [lowerInContext, hsigma, hdotted, besideCased_map_toLower, lowerChar_toLower]

theorem lowerCharsAfter_map_toLower (before cs : List Char) :
    lowerCharsAfter (before.map Char.toLower) (cs.map Char.toLower) =
      lowerCharsAfter before cs := by
  induction cs generalizing before with
  | nil => rfl
  | cons c cs ih =>
    -- What comes before a character is turned to small letters along with it.
    have hnext := ih (c :: before)
    rw [List.map_cons] at hnext
    rw [List.map_cons, lowerCharsAfter, lowerCharsAfter, lowerInContext_toLower, hnext]

theorem lowerChars_map_toLower (cs : List Char) :
    lowerChars (cs.map Char.toLower) = lowerChars cs := lowerCharsAfter_map_toLower [] cs

theorem lowerChars_congr {cs cs' : List Char} (h : cs.map Char.toLower = cs'.map Char.toLower) :
    lowerChars cs = lowerChars cs' := by
  rw [← lowerChars_map_toLower cs, h, lowerChars_map_toLower]

theorem sameIgnoringCase_iff {a b : String} :
    sameIgnoringCase a b = true ↔ a.toList.map Char.toLower = b.toList.map Char.toLower :=
  decide_eq_true_iff

/-- Texts that are equal up to the case of ASCII letters have one lowercase form. -/
theorem lowercase_congr {a b : String} (h : sameIgnoringCase a b = true) :
    lowercase a = lowercase b := by
  rw [lowercase, lowercase, lowerChars_congr (sameIgnoringCase_iff.mp h)]

/-! ### No capitals -/

/-- No code point of a run has its lowercase form among the ASCII capitals. -/
def CaseRun.Clear (run : CaseRun) : Prop :=
  (run.last + run.offset).toNat < 65 ∨ 90 < (run.first + run.offset).toNat

instance (run : CaseRun) : Decidable run.Clear :=
  inferInstanceAs (Decidable ((run.last + run.offset).toNat < 65 ∨
    90 < (run.first + run.offset).toNat))

/-- A code point is its own lowercase form, or has one that is not among the ASCII capitals. -/
theorem lowerCode_eq_or_clear {runs : List CaseRun} (h : ∀ run ∈ runs, run.Clear) (code : Nat) :
    lowerCode code runs = code ∨ lowerCode code runs < 65 ∨ 90 < lowerCode code runs := by
  induction runs with
  | nil => exact .inl rfl
  | cons run rest ih =>
    obtain ⟨hrun, hrest⟩ := List.forall_mem_cons.mp h
    rw [lowerCode]
    split
    · exact .inl rfl
    · split
      · unfold CaseRun.Clear at hrun
        omega
      · exact ih hrest

theorem toNat_ofNat_eq_or (n : Nat) : (Char.ofNat n).toNat = n ∨ (Char.ofNat n).toNat = 0 := by
  by_cases h : n.isValidChar
  · left
    rw [Char.ofNat, dif_pos h]
    rfl
  · right
    rw [Char.ofNat, dif_neg h]
    rfl

theorem toLower_eq_self_of_mem {cs : List Char} (h : cs.map Char.toLower = cs) {c : Char}
    (hc : c ∈ cs) : c.toLower = c :=
  List.map_inj_left.mp (h.trans (List.map_id cs).symm) c hc

theorem toLower_lowerChar (c : Char) : (lowerChar c).toLower = lowerChar c := by
  by_cases hmem : c ∈ capitals
  · exact toLower_eq_self_of_mem (by decide) (List.mem_map_of_mem (f := lowerChar) hmem)
  · have hclear : ∀ run ∈ lowercaseRuns, run.Clear := by decide +kernel
    refine (toLower_eq_self_or_mem_capitals _).resolve_right fun hcapital => ?_
    rw [mem_capitals_iff, lowerChar] at hcapital
    rw [mem_capitals_iff] at hmem
    have hcode := lowerCode_eq_or_clear hclear c.toNat
    have hchar := toNat_ofNat_eq_or (lowerCode c.toNat lowercaseRuns)
    omega

theorem toLower_of_mem_lowerInContext {before after : List Char} {c d : Char}
    (h : d ∈ lowerInContext before c after) : d.toLower = d := by
  unfold lowerInContext at h
  split at h
  · have hsigmas : ['ς', 'σ'].map Char.toLower = ['ς', 'σ'] := by decide
    apply toLower_eq_self_of_mem hsigmas
    split at h <;> simp_all
  · split at h
    · exact toLower_eq_self_of_mem (by decide) h
    · rw [List.mem_singleton] at h
      exact h ▸ toLower_lowerChar c

theorem toLower_of_mem_lowerCharsAfter {before cs : List Char} {d : Char}
    (h : d ∈ lowerCharsAfter before cs) : d.toLower = d := by
  induction cs generalizing before with
  | nil => simp [lowerCharsAfter] at h
  | cons c cs ih =>
    rw [lowerCharsAfter, List.mem_append] at h
    exact h.elim toLower_of_mem_lowerInContext ih

/-- A lowercase form has no ASCII capitals. -/
theorem map_toLower_lowercase (text : String) :
    (lowercase text).toList.map Char.toLower = (lowercase text).toList := by
  rw [lowercase, String.toList_ofList]
  exact (List.map_congr_left fun c hc => toLower_of_mem_lowerCharsAfter hc).trans (List.map_id _)

/-! ### No losses -/

theorem lowerInContext_ne_nil (before : List Char) (c : Char) (after : List Char) :
    lowerInContext before c after ≠ [] := by
  unfold lowerInContext
  split_ifs <;> simp

theorem lowercase_eq_empty_iff {text : String} : lowercase text = "" ↔ text = "" := by
  rw [← String.toList_eq_nil_iff, ← String.toList_eq_nil_iff, lowercase, String.toList_ofList]
  cases text.toList with
  | nil => simp [lowerChars, lowerCharsAfter]
  | cons c cs => simp [lowerChars, lowerCharsAfter, lowerInContext_ne_nil]

end StatusBoard.Text
