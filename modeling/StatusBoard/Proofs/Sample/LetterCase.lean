import StatusBoard.Proofs.Access
import StatusBoard.Proofs.Filter.LetterCase
import StatusBoard.Proofs.Filter.Query

/-!
# Records and the case of letters

Records are alike if they name alike metrics, alike tags and alike severities, and both or
neither can be read. Alike records are read as alike samples, since a severity is read in any
case of its letters. The store keeps the records of a subject under the lowercase forms of their
metrics, so that alike records of alike metrics have the same place.

## Main definitions

* `Fields.Alike` — records that differ only in the case of ASCII letters
* `Store.Alike` — stores that hold alike records in the same places

## Main results

* `Fields.Alike.rel_ofFields?` — alike records are read as alike samples, or neither is read
* `FilterSpec.passes_alike` — alike records pass the same filters
* `Store.Alike.withSample` — stores stay alike as alike records come in
-/

namespace StatusBoard

/-! ### Reading in turn -/

section Option

variable {α β γ δ : Type} {R : α → β → Prop} {S : γ → δ → Prop}

theorem rel_bind {a? : Option α} {b? : Option β} {f : α → Option γ} {g : β → Option δ}
    (h : Option.Rel R a? b?) (hfg : ∀ a b, R a b → Option.Rel S (f a) (g b)) :
    Option.Rel S (a?.bind f) (b?.bind g) := by
  cases h with
  | some hab => exact hfg _ _ hab
  | none => exact .none

theorem any_eq_of_rel {a? : Option α} {b? : Option β} {p : α → Bool} {q : β → Bool}
    (h : Option.Rel R a? b?) (hpq : ∀ a b, R a b → p a = q b) : a?.any p = b?.any q := by
  cases h with
  | some hab => exact hpq _ _ hab
  | none => rfl

theorem rel_of_isSome_eq {a? : Option α} {b? : Option β} (h : a?.isSome = b?.isSome) :
    Option.Rel (fun _ _ => True) a? b? := by
  cases a? with
  | none =>
    cases b? with
    | none => exact .none
    | some b => cases h
  | some a =>
    cases b? with
    | none => cases h
    | some b => exact .some trivial

theorem rel_getElem? {as : List α} {bs : List β} (h : List.Forall₂ R as bs) (i : Nat) :
    Option.Rel R as[i]? bs[i]? := by
  induction h generalizing i with
  | nil => exact .none
  | cons hab _ ih =>
    cases i with
    | zero => exact .some hab
    | succ i => exact ih i

theorem toOption_bind {ε : Type} (x : Except ε α) (f : α → Except ε γ) :
    (x >>= f).toOption = x.toOption.bind fun a => (f a).toOption := by
  cases x <;> rfl

end Option

/-! ### Alike records -/

namespace Fields

/-- What a part of a record is read as, given the name of the sample in the record. -/
def named? {α : Type} (fields : Fields) (read : Fields → String → Except RecordFault α) :
    Option α :=
  (fields.get? "name").bind fun name => (read fields name).toOption

/-- Two records that differ only in the case of ASCII letters in the metrics, the tags and the
severities that they name. A metric may be named by the sample alone, and tags are compared as
they are read. Names, values and times are arbitrary, as long as both or neither can be read. -/
structure Alike (fields fields' : Fields) : Prop where
  name : (fields.get? "name").isSome = (fields'.get? "name").isSome
  metric : Option.Rel Text.Alike (fields.named? Sample.readMetric)
    (fields'.named? Sample.readMetric)
  status : Option.Rel Text.Alike (fields.get? "status") (fields'.get? "status")
  tags : Option.Rel (List.Forall₂ Text.Alike) (fields.named? Sample.readTags)
    (fields'.named? Sample.readTags)
  time : (fields.named? Sample.readTime).isSome = (fields'.named? Sample.readTime).isSome

end Fields

namespace Sample

theorem toOption_readStatus (fields : Fields) :
    (readStatus fields).toOption = (fields.get? "status").bind Severity.ofText? := by
  rw [readStatus, toOption_bind, requiredField]
  cases fields.get? "status" with
  | none => rfl
  | some text =>
    simp only [Except.toOption, Option.bind_some]
    cases Severity.ofText? text <;> rfl

/-- The sample of a record, if all of its parts can be read. -/
theorem ofFields?_eq (fields : Fields) : ofFields? fields =
    (fields.named? readMetric).bind fun metric =>
      (fields.get? "status").bind fun text => (Severity.ofText? text).bind fun status =>
        (fields.named? readTags).bind fun metricTags =>
          (fields.named? readTime).bind fun updatedAt =>
            (fields.get? "name").bind fun name => some
              { name, metric, value := (fields.get? "value").getD "", status, metricTags
                updatedAt } := by
  simp only [ofFields?, readFields, toOption_bind, toOption_readStatus, Fields.named?,
    requiredField]
  cases fields.get? "name" with
  | none => rfl
  | some name =>
    simp only [Option.bind_some, Option.bind_assoc]
    rfl

end Sample

variable {fields fields' : Fields}

/-- Alike records are read as alike samples, or neither is read. -/
theorem Fields.Alike.rel_ofFields? (h : fields.Alike fields') :
    Option.Rel Sample.Alike (Sample.ofFields? fields) (Sample.ofFields? fields') := by
  rw [Sample.ofFields?_eq, Sample.ofFields?_eq]
  -- The parts are read in turn, and each is read from both records or from neither.
  refine rel_bind h.metric fun metric metric' hmetric => ?_
  refine rel_bind h.status fun text text' htext => ?_
  rw [Severity.ofText?_congr htext]
  cases Severity.ofText? text' with
  | none => exact .none
  | some status =>
    simp only [Option.bind_some]
    refine rel_bind h.tags fun tags tags' htags => ?_
    refine rel_bind (rel_of_isSome_eq h.time) fun _ _ _ => ?_
    refine rel_bind (rel_of_isSome_eq h.name) fun _ _ _ => ?_
    exact .some ⟨hmetric, htags, rfl⟩

/-- What the parts of the record of a sample are read as. -/
theorem Sample.named?_toFields (x : Sample) :
    x.toFields.named? readMetric = some x.metric ∧
    x.toFields.named? readTags = some x.metricTags ∧
    (x.toFields.named? readTime).isSome = decide x.InFourDigitYear := by
  obtain ⟨hname, hmetric, -, -, htags, -⟩ := x.get?_toFields
  simp only [Fields.named?, hname, Option.bind_some]
  refine ⟨?_, ?_, ?_⟩
  · rw [readMetric, hmetric]
    rfl
  · rw [readTags, htags]
    simp only [Json.TextList.read?_write]
    rfl
  · rw [readTime_toFields]
    split_ifs with hyear
    · exact (decide_eq_true hyear).symm
    · exact (decide_eq_false hyear).symm

/-- Samples that are alike and have one time have alike records. -/
theorem Sample.Alike.toFields {x x' : Sample} (h : x.Alike x')
    (htime : x.updatedAt = x'.updatedAt) : x.toFields.Alike x'.toFields := by
  obtain ⟨hname, -, -, hstatus, -⟩ := x.get?_toFields
  obtain ⟨hname', -, -, hstatus', -⟩ := x'.get?_toFields
  obtain ⟨hmetric, htags, hyear⟩ := x.named?_toFields
  obtain ⟨hmetric', htags', hyear'⟩ := x'.named?_toFields
  have hyears : x.InFourDigitYear ↔ x'.InFourDigitYear := by
    rw [Sample.InFourDigitYear, htime, Sample.InFourDigitYear]
  constructor
  · rw [hname, hname']
    rfl
  · rw [hmetric, hmetric']
    exact .some h.metric
  · rw [hstatus, hstatus', h.status]
    exact .some (Text.sameIgnoringCase_self _)
  · rw [htags, htags']
    exact .some h.metricTags
  · rw [hyear, hyear', decide_eq_decide.mpr hyears]

/-- Records stay alike if alike severities are written into them. -/
theorem Fields.Alike.insert_status (h : fields.Alike fields') {text text' : String}
    (htext : Text.Alike text text') :
    Fields.Alike (fields.insert "status" text) (fields'.insert "status" text') := by
  obtain ⟨hname, hmetric, -, htags, htime⟩ := h
  refine ⟨?_, ?_, ?_, ?_, ?_⟩
  · simpa [Table.get?_insert] using hname
  · simpa [named?, Sample.readMetric, Table.get?_insert] using hmetric
  · simpa [Table.get?_insert] using Option.Rel.some htext
  · simpa [named?, Sample.readTags, Table.get?_insert] using htags
  · simpa [named?, Sample.readTime, Table.get?_insert] using htime

namespace FilterSpec

variable (filter : FilterSpec)

/-- A record can be read as a sample that passes. -/
def passes (fields : Fields) : Bool := (Sample.ofFields? fields).any filter.acceptsSample

theorem passes_alike (h : fields.Alike fields') : filter.passes fields = filter.passes fields' :=
  any_eq_of_rel h.rel_ofFields? fun _ _ => filter.acceptsSample_alike

end FilterSpec

/-! ### Alike stores -/

namespace Store

/-- Two records under one key that are alike. -/
abbrev EntryAlike (e e' : String × Fields) : Prop := e.1 = e'.1 ∧ e.2.Alike e'.2

/-- Two stores, both or neither of which can be reached, that hold alike records of each subject
under the same keys. -/
structure Alike (s s' : Store) : Prop where
  available : s.available = s'.available
  entries : ∀ subject, List.Forall₂ EntryAlike (s.samplesOf subject).entries
    (s'.samplesOf subject).entries

theorem insertEntry_alike {es es' : List (String × Fields)}
    (hentries : List.Forall₂ EntryAlike es es') (h : fields.Alike fields') (key : String) :
    List.Forall₂ EntryAlike (Table.insertEntry key fields es)
      (Table.insertEntry key fields' es') := by
  induction hentries with
  | nil => exact .cons ⟨rfl, h⟩ .nil
  | @cons e e' _ _ hentry hrest ih =>
    obtain ⟨k, stored⟩ := e
    obtain ⟨k', stored'⟩ := e'
    obtain ⟨rfl, hstored⟩ := hentry
    unfold Table.insertEntry
    -- The keys are the same, so both entries go to the same place.
    split
    · exact .cons ⟨rfl, h⟩ (.cons ⟨rfl, hstored⟩ hrest)
    · split
      · exact .cons ⟨rfl, h⟩ hrest
      · exact .cons ⟨rfl, hstored⟩ ih

/-- Stores stay alike as alike records of alike metrics come in. -/
theorem Alike.withSample {s s' : Store} (hstores : s.Alike s') (subject : String)
    {metric metric' : String} (hmetric : Text.Alike metric metric') (h : fields.Alike fields') :
    (s.withSample subject metric fields).Alike (s'.withSample subject metric' fields') := by
  refine ⟨hstores.available, fun other => ?_⟩
  have hkey : keyOf metric = keyOf metric' := Text.lowercase_congr hmetric
  simp only [samplesOf, Store.withSample, Table.get?_insert]
  split
  · rw [← hkey]
    exact insertEntry_alike (hstores.entries subject) h (keyOf metric)
  · exact hstores.entries other

end Store

end StatusBoard
