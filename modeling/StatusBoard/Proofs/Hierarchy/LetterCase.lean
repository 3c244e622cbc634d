import StatusBoard.Proofs.Hierarchy.Position
import StatusBoard.Proofs.Sample.LetterCase

/-!
# Answers and the case of letters

A visit sees texts only through filters, which do not see the case of ASCII letters. So two
visits whose filters, trees and records differ only there ask for the same subjects, fail alike,
and keep the same: what they show is told by the numbers of records at the addresses of the tree,
and these are the same for both.

## Main definitions

* `RecordSource.Alike` — sources with alike records of each subject, or the same outage
* `Subject.Alike` — trees whose tags are alike
* `Subject.shown` — the numbers of the records that a visit shows, by address
* `Subject.showing` — the samples at given numbers

## Main results

* `Store.Alike.sampleRecords` — alike stores are alike sources
* `Subject.restrict_showing` — the numbers shown make up the outcome of a visit
* `Subject.visit_alike` — two visits that differ only in the case of letters
-/

namespace StatusBoard

/-! ### Alike sources -/

namespace RecordSource

/-- Two outcomes of a read: one outage, or records that are alike in turn. -/
inductive ReadAlike : Except Outage (List Fields) → Except Outage (List Fields) → Prop
  | failed (outage : Outage) : ReadAlike (.error outage) (.error outage)
  | read {records records' : List Fields} (h : List.Forall₂ Fields.Alike records records') :
      ReadAlike (.ok records) (.ok records')

/-- The sources have alike records of each subject, or cannot read them for the same reason. -/
def Alike (source source' : RecordSource) : Prop := ∀ path, ReadAlike (source path) (source' path)

variable {source source' : RecordSource}

theorem Alike.recordsOf (h : source.Alike source') (path : String) :
    List.Forall₂ Fields.Alike (source.recordsOf path) (source'.recordsOf path) := by
  have hpath := h path
  unfold RecordSource.recordsOf
  revert hpath
  generalize source path = outcome
  generalize source' path = outcome'
  rintro (_ | hrecords)
  · exact .nil
  · exact hrecords

/-- Alike sources are asked in the same way, and fail for the same reason. -/
theorem Alike.fetchAll_eq (h : source.Alike source') (paths : List String) :
    source.fetchAll paths = source'.fetchAll paths := by
  induction paths with
  | nil => rfl
  | cons path rest ih =>
    refine Fetch.ext fun asked => ?_
    have hpath := h path
    simp only [fetchAll, Fetch.runFrom_bind, runFrom_fetch, ih]
    revert hpath
    generalize source path = outcome
    generalize source' path = outcome'
    rintro (_ | _) <;> rfl

end RecordSource

theorem Store.Alike.sampleRecords {s s' : Store} (h : s.Alike s') :
    RecordSource.Alike s.sampleRecords s'.sampleRecords := by
  intro path
  unfold Store.sampleRecords Store.whenAvailable
  rw [h.available]
  split
  · refine .read ?_
    rw [Table.values, Table.values, List.forall₂_map_left_iff, List.forall₂_map_right_iff]
    exact (h.entries path).imp fun _ _ hentry => hentry.2
  · exact .failed _

namespace Subject

/-! ### Alike trees -/

/-- Two trees whose nodes have alike tags, and the same paths and names. Samples that the trees
come with are arbitrary. -/
inductive Alike : Subject → Subject → Prop
  | node (path name : String) {tags tags' : List String} {children children' : List Subject}
      (samples samples' : List Sample) (htags : List.Forall₂ Text.Alike tags tags')
      (hchildren : List.Forall₂ Alike children children') :
      Alike ⟨path, name, tags, children, samples⟩ ⟨path, name, tags', children', samples'⟩

theorem ownMatches_eq_passes {filter : FilterSpec} {records : String → List Fields} (n : Subject) :
    n.ownMatches filter records = (filter.acceptsSubject n.tags &&
      (!filter.filtersSamples || (records n.path).any filter.passes)) := by
  rw [ownMatches, ← filter.not_filtersSamples]
  congr 3
  funext fields
  rw [FilterSpec.passes, Sample.ofFields?, Sample.ofFields]
  cases Sample.readFields fields <;> rfl

namespace Alike

variable {s s' : Subject}

/-- What holds of two nodes if it holds of their children in turn holds of alike trees. -/
theorem induction {motive : Subject → Subject → Prop}
    (node : ∀ path name tags tags' children children' samples samples',
      List.Forall₂ Text.Alike tags tags' → List.Forall₂ motive children children' →
      motive ⟨path, name, tags, children, samples⟩ ⟨path, name, tags', children', samples'⟩)
    (h : s.Alike s') : motive s s' := by
  induction s generalizing s' with
  | node path name tags children samples ih =>
    cases h with
    | node _ _ _ _ htags hchildren =>
      refine node _ _ _ _ _ _ _ _ htags ?_
      -- The hypothesis for the children is about members, the relation about places.
      have hboth := (List.forall₂_and_left _ _).mpr ⟨fun c hc s' => @ih c hc s', hchildren⟩
      exact hboth.imp fun _ _ h => h.1 _ h.2

theorem rel_at? (h : s.Alike s') (address : List Nat) :
    Option.Rel Alike (s.at? address) (s'.at? address) := by
  induction address generalizing s s' with
  | nil => exact .some h
  | cons i rest ih =>
    cases h with
    | node _ _ _ _ _ hchildren => exact rel_bind (rel_getElem? hchildren i) fun _ _ => ih

/-- Visits of alike trees ask for the same subjects. -/
theorem reads_eq (filter : FilterSpec) (h : s.Alike s') : s.reads filter = s'.reads filter := by
  refine h.induction (motive := fun s s' => s.reads filter = s'.reads filter) ?_
  intro path name tags tags' children children' _ _ htags ih
  have hchildren := map_eq_map_of_forall₂ ih fun _ _ => id
  rw [reads, reads, readsOfAll_eq_flatMap, readsOfAll_eq_flatMap, List.flatMap_def, hchildren,
    ← List.flatMap_def, filter.acceptsSubject_alike htags]

variable (filter : FilterSpec) {records records' : String → List Fields}
  (hrecords : ∀ path, List.Forall₂ Fields.Alike (records path) (records' path))

include hrecords

theorem ownMatches_of_tags (path name : String) {tags tags' : List String}
    (htags : List.Forall₂ Text.Alike tags tags') (children children' : List Subject)
    (samples samples' : List Sample) :
    ownMatches filter records ⟨path, name, tags, children, samples⟩ =
      ownMatches filter records' ⟨path, name, tags', children', samples'⟩ := by
  rw [ownMatches_eq_passes, ownMatches_eq_passes, filter.acceptsSubject_alike htags,
    any_eq_any_of_forall₂ (hrecords path) fun _ _ => filter.passes_alike]

/-- Of alike trees both are kept or neither is. -/
theorem kept_eq (h : s.Alike s') : s.kept filter records = s'.kept filter records' := by
  refine h.induction (motive := fun s s' => s.kept filter records = s'.kept filter records') ?_
  intro path name tags tags' children children' samples samples' htags ih
  rw [Subject.kept_eq, Subject.kept_eq, any_eq_any_of_forall₂ ih fun _ _ => id,
    ownMatches_of_tags filter hrecords path name htags children children' samples samples']

/-- Visits of alike trees match and keep alike. -/
theorem visited_eq (h : s.Alike s') :
    (s.visited filter records).matched = (s'.visited filter records').matched ∧
    (s.visited filter records).keptDescendant = (s'.visited filter records').keptDescendant := by
  cases h with
  | node path name samples samples' htags hchildren =>
    refine ⟨ownMatches_of_tags filter hrecords path name htags _ _ samples samples', ?_⟩
    exact any_eq_any_of_forall₂ hchildren fun _ _ => kept_eq filter hrecords

end Alike

/-! ### What a visit shows -/

section Shown

variable (filter : FilterSpec) (records : String → List Fields)

/-- The numbers of the records that can be read as samples that pass. -/
def passing (records : List Fields) : List Nat :=
  (List.range records.length).filter fun i => records[i]?.any filter.passes

/-- The numbers of the records that a node shows. -/
def ownNumbers (n : Subject) : List Nat :=
  if filter.acceptsSubject n.tags then passing filter (records n.path) else []

/-- The numbers of the records that a visit shows, by the addresses of the nodes: of the root, and
of each node that is kept. -/
def shown (root : Subject) (address : List Nat) : Option (List Nat) :=
  (root.at? address).bind fun n =>
    -- The root is part of the outcome even if the tree is not kept.
    if address = [] ∨ n.kept filter records = true then some (n.ownNumbers filter records)
    else none

/-- The samples of the records with these numbers. -/
def samplesAt (records : List Fields) (numbers : List Nat) : List Sample :=
  numbers.filterMap fun i => records[i]?.bind Sample.ofFields?

/-- The samples that a tree holds if records with these numbers are shown. -/
def showing (numbers : List Nat → Option (List Nat)) (root : Subject) : Holding := fun address =>
  (root.at? address).bind fun n => (numbers address).map (samplesAt (records n.path))

variable {filter records}

/-- A list is got back from its numbers. -/
theorem filterMap_range_length {α β : Type} (f : α → Option β) (as : List α) :
    (List.range as.length).filterMap (fun i => as[i]?.bind f) = as.filterMap f := by
  have hmap : (List.range as.length).map (fun i => as[i]?) = as.map some :=
    List.ext_getElem (by simp) (by simp)
  have hbind := congrArg (List.filterMap (·.bind f)) hmap
  rw [List.filterMap_map, List.filterMap_map] at hbind
  exact hbind

theorem samplesAt_passing (records : List Fields) :
    samplesAt records (passing filter records) = passingSamples filter records := by
  rw [samplesAt, passing, List.filterMap_filter, passingSamples, List.filter_filterMap,
    ← filterMap_range_length _ records]
  refine List.filterMap_congr fun i _ => ?_
  cases records[i]? with
  | none => rfl
  | some fields =>
    simp only [Option.any_some, Option.bind_some, FilterSpec.passes]
    rcases (Sample.ofFields? fields).eq_none_or_eq_some with hread | ⟨x, hread⟩
    · simp [hread]
    · simp [hread, Option.filter_some]

theorem samplesAt_ownNumbers (n : Subject) :
    samplesAt (records n.path) (n.ownNumbers filter records) = n.ownSamples filter records := by
  rw [ownNumbers]
  split
  · rename_i haccepts
    rw [samplesAt_passing, passingSamples_eq haccepts]
  · rename_i haccepts
    rw [ownSamples, if_neg haccepts]
    rfl

/-- Below the root a visit shows what a child that is kept shows. -/
theorem showing_shown_cons (root : Subject) {c : Subject} {i : Nat}
    (hc : root.children[i]? = some c) (rest : List Nat) :
    root.showing records (root.shown filter records) (i :: rest) =
      c.holding filter records none rest := by
  have hat : root.at? (i :: rest) = c.at? rest := by rw [at?, hc, Option.bind_some]
  rw [showing, shown, holding, hat]
  cases c.at? rest with
  | none => rfl
  | some n =>
    simp only [Option.bind_some, reduceCtorEq, false_or, Option.all_none, Bool.and_true]
    split
    · rw [Option.map_some, samplesAt_ownNumbers]
    · rfl

/-- The numbers that a visit shows make up its outcome. -/
theorem restrict_showing (root : Subject) :
    root.restrict (root.showing records (root.shown filter records)) =
      some (root.pruned filter records) := by
  cases root with
  | mk path name tags children samples =>
    let root : Subject := ⟨path, name, tags, children, samples⟩
    have hroot : root.showing records (root.shown filter records) [] =
        some (root.ownSamples filter records) := by
      simp [showing, shown, at?, samplesAt_ownNumbers]
    have hchildren : restrictAll (fun i rest =>
        root.showing records (root.shown filter records) (i :: rest)) children =
          prunedAll filter records children := by
      refine (restrictAll_eq_map (f := cutAt none) fun i c hc => ?_).trans (List.map_id _)
      rw [← restrict_holding none c]
      congr 1
      ext1 rest
      exact showing_shown_cons root hc rest
    change (root.showing records (root.shown filter records) []).map _ = _
    rw [hroot, Option.map_some, hchildren]
    rfl

end Shown

section Alike

variable (filter : FilterSpec) {records records' : String → List Fields}
  (hrecords : ∀ path, List.Forall₂ Fields.Alike (records path) (records' path))

include hrecords

theorem passing_alike (path : String) :
    passing filter (records path) = passing filter (records' path) := by
  rw [passing, passing, (hrecords path).length_eq]
  refine List.filter_congr fun i _ => ?_
  exact any_eq_of_rel (rel_getElem? (hrecords path) i) fun _ _ => filter.passes_alike

theorem Alike.ownNumbers_eq {n n' : Subject} (h : n.Alike n') :
    n.ownNumbers filter records = n'.ownNumbers filter records' := by
  cases h with
  | node _ _ _ _ htags _ =>
    rw [ownNumbers, ownNumbers, filter.acceptsSubject_alike htags, passing_alike filter hrecords]

/-- Alike trees show the records with the same numbers at the same addresses. -/
theorem Alike.shown_eq {root root' : Subject} (h : root.Alike root') :
    root.shown filter records = root'.shown filter records' := by
  funext address
  have hat := h.rel_at? address
  unfold shown
  revert hat
  generalize root.at? address = n?
  generalize root'.at? address = n?'
  rintro (hn | _)
  · rw [Option.bind_some, Option.bind_some, hn.kept_eq filter hrecords,
      hn.ownNumbers_eq filter hrecords]
  · rfl

end Alike

/-- Two visits whose filters are made from texts, whose trees have tags and whose sources have
records that differ only in the case of ASCII letters: they ask for the same subjects, and both
fail for the same reason or both succeed. Then both trees or neither are kept, for the same
cause, and both outcomes are what their trees and their records leave at the same addresses and
the same numbers. -/
theorem visit_alike {filter filter' : FilterSpec} (hfilter : filter.MadeAlike filter')
    {source source' : RecordSource} (hsource : source.Alike source') {root root' : Subject}
    (hroot : root.Alike root') (asked : List String) :
    let run := (visit source filter root).runFrom asked
    let run' := (visit source' filter' root').runFrom asked
    let numbers := root.shown filter source.recordsOf
    run.2 = run'.2 ∧
    ((∃ outage, run.1 = .error outage ∧ run'.1 = .error outage) ∨
      ∃ v v', (run.1 = .ok v ∧ run'.1 = .ok v') ∧
        (v.keep = v'.keep ∧ v.matched = v'.matched ∧ v.keptDescendant = v'.keptDescendant) ∧
        root'.shown filter' source'.recordsOf = numbers ∧
        root.restrict (root.showing source.recordsOf numbers) = some v.node ∧
        root'.restrict (root'.showing source'.recordsOf numbers) = some v'.node) := by
  obtain rfl := hfilter.eq
  intro run run' numbers
  have hshown : root'.shown filter source'.recordsOf = numbers :=
    (hroot.shown_eq filter hsource.recordsOf).symm
  obtain ⟨hmatched, hdescendant⟩ := hroot.visited_eq filter hsource.recordsOf
  have hrun : run = (do source.fetchAll (root.reads filter)
                        return root.visited filter source.recordsOf :
      Fetch Outage Visit).runFrom asked := by rw [← visit_eq]
  have hrun' : run' = (do source.fetchAll (root.reads filter)
                          return root'.visited filter source'.recordsOf :
      Fetch Outage Visit).runFrom asked := by
    rw [hsource.fetchAll_eq, hroot.reads_eq, ← visit_eq]
  rw [Fetch.runFrom_bind] at hrun hrun'
  -- Both runs read the same, so that both stop there or neither does.
  rcases hreads : (source.fetchAll (root.reads filter)).runFrom asked with ⟨_ | _, asked'⟩
  · rw [hreads] at hrun hrun'
    rw [hrun, hrun']
    exact ⟨rfl, .inl ⟨_, rfl, rfl⟩⟩
  · rw [hreads] at hrun hrun'
    rw [hrun, hrun']
    refine ⟨rfl, .inr ⟨_, _, ⟨rfl, rfl⟩, ⟨?_, hmatched, hdescendant⟩, hshown, ?_, ?_⟩⟩
    · rw [Visit.keep, hmatched, hdescendant, Visit.keep]
    · exact restrict_showing root
    · rw [← hshown]
      exact restrict_showing root'

/-! ### A case -/

/-- A sample of the subject `db.a` that timed out. -/
def timedOutOfA (metric : String) : Sample :=
  ⟨Sample.nameFor "db.a" metric, metric, "7", .timeout, [], none⟩

/-- The record of the sample with a severity as written. -/
def recordOfA (metric severity : String) : Fields :=
  (timedOutOfA metric).toFields.insert "status" severity

/-- The store with records of two metrics of `db.a`. -/
def storeOfA (metric other severity : String) : Store :=
  (Store.empty.withSample "db.a" metric (recordOfA metric severity)).withSample "db.a" other
    (recordOfA other severity)

/-- The tree in which `db.a` has a tag. -/
def treeOfA (tag : String) : Subject :=
  (leaf "db").withChild ((leaf "db.a").withTags [tag])

/-- The filter of a severity, on subjects with a tag and for all metrics but one. -/
def allBut (metric tag severity : String) : FilterSpec :=
  { entityTags := some (.includeTexts [tag])
    metricName := some (.excludeTexts [metric])
    severity := some (.includeTexts [severity]) }

theorem recordOfA_alike {metric metric' severity severity' : String}
    (hmetric : Text.Alike metric metric') (hseverity : Text.Alike severity severity') :
    (recordOfA metric severity).Alike (recordOfA metric' severity') := by
  have hsample : (timedOutOfA metric).Alike (timedOutOfA metric') := ⟨hmetric, .nil, rfl⟩
  exact (hsample.toFields rfl).insert_status hseverity

theorem visit_alike_allBut :
    let filter := allBut "cpu" "prod" "Critical"
    let filter' := allBut "Cpu" "PROD" "critical"
    let source : RecordSource := (storeOfA "cpu" "disk" "critical").sampleRecords
    let source' : RecordSource := (storeOfA "CPU" "Disk" "CRITICAL").sampleRecords
    filter.MadeAlike filter' ∧ source.Alike source' ∧ (treeOfA "prod").Alike (treeOfA "Prod") ∧
    (treeOfA "prod").shown filter source.recordsOf [0] = some [1] ∧
    (treeOfA "Prod").shown filter' source'.recordsOf [0] = some [1] := by
  intro filter filter' source source'
  have hone : ∀ {t t' : String}, Text.Alike t t' → List.Forall₂ Text.Alike [t] [t'] :=
    fun h => .cons h .nil
  have hfilter : filter.MadeAlike filter' :=
    ⟨.included (hone (by decide)), .excluded (hone (by decide)), .unset,
      .included (hone (by decide))⟩
  have hempty : Store.empty.Alike .empty := ⟨rfl, fun _ => .nil⟩
  have hcritical : Text.Alike "critical" "CRITICAL" := by decide
  have hcpu : Text.Alike "cpu" "CPU" := by decide
  have hdisk : Text.Alike "disk" "Disk" := by decide
  have hsource : source.Alike source' :=
    ((hempty.withSample "db.a" hcpu (recordOfA_alike hcpu hcritical)).withSample "db.a" hdisk
      (recordOfA_alike hdisk hcritical)).sampleRecords
  have htree : (treeOfA "prod").Alike (treeOfA "Prod") :=
    .node _ _ _ _ .nil (.cons (.node _ _ _ _ (hone (by decide)) .nil) .nil)
  have hshown : (treeOfA "prod").shown filter source.recordsOf [0] = some [1] := by decide +kernel
  refine ⟨hfilter, hsource, htree, hshown, ?_⟩
  obtain ⟨-, ⟨_, herror, -⟩ | ⟨_, _, -, -, hsame, -⟩⟩ := visit_alike hfilter hsource htree []
  · have hreads : ∀ path ∈ (treeOfA "prod").reads filter, ∃ records, source path = .ok records :=
      fun _ _ => ⟨_, rfl⟩
    rw [runFrom_visit_of_ok [] hreads] at herror
    cases herror
  · exact (congrFun hsame [0]).trans hshown

end Subject

end StatusBoard
