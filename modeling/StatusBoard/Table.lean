/-!
# Tables keyed by text

A table holds one value for each of finitely many texts, in ascending order of the texts by
code point.

## Main definitions

* `Table` — entries in strictly ascending order of their keys
* `Table.get?`, `Table.insert`, `Table.erase` — lookup and update
* `Table.ofList` — the table of a list, of which a later entry replaces an earlier one

## Main results

* `get?_insert`, `get?_erase` — what an update does to a lookup
* `mem_entries_iff` — the entries are what the lookups find
-/

namespace StatusBoard

/-- A finite map from texts, its entries in ascending order of their keys. -/
structure Table (α : Type) where
  entries : List (String × α)
  ascending : entries.Pairwise fun a b => a.1 < b.1
deriving DecidableEq

namespace Table

variable {α : Type}

/-- The table without entries. -/
def empty : Table α := ⟨[], .nil⟩

instance : Inhabited (Table α) := ⟨empty⟩

/-- The value of the first entry with the given key. -/
def find? (key : String) : List (String × α) → Option α
  | [] => none
  | e :: es => if key = e.1 then some e.2 else find? key es

/-- The value at a key. -/
def get? (t : Table α) (key : String) : Option α := find? key t.entries

/-- The values, in order of their keys. -/
def values (t : Table α) : List α := t.entries.map Prod.snd

/-- The keys, in order. -/
def keys (t : Table α) : List String := t.entries.map Prod.fst

/-- Inserts an entry into entries in ascending order, replacing one with the same key. -/
def insertEntry (key : String) (value : α) : List (String × α) → List (String × α)
  | [] => [(key, value)]
  | (k, v) :: rest =>
    if key < k then (key, value) :: (k, v) :: rest
    else if key = k then (key, value) :: rest
    else (k, v) :: insertEntry key value rest

theorem mem_insertEntry {key : String} {value : α} {e : String × α} {es : List (String × α)}
    (h : e ∈ insertEntry key value es) : e = (key, value) ∨ e ∈ es := by
  induction es with
  | nil => simpa [insertEntry] using h
  | cons d es ih =>
    obtain ⟨k, v⟩ := d
    unfold insertEntry at h
    split at h
    · simpa using h
    · split at h
      · rcases List.mem_cons.mp h with h | h
        · exact .inl h
        · exact .inr (List.mem_cons_of_mem _ h)
      · rcases List.mem_cons.mp h with h | h
        · exact .inr (h ▸ List.mem_cons_self)
        · exact (ih h).imp_right (List.mem_cons_of_mem _)

theorem ascending_insertEntry (key : String) (value : α) {es : List (String × α)}
    (h : es.Pairwise fun a b => a.1 < b.1) :
    (insertEntry key value es).Pairwise fun a b => a.1 < b.1 := by
  induction es with
  | nil => simp [insertEntry]
  | cons d es ih =>
    obtain ⟨k, v⟩ := d
    rw [List.pairwise_cons] at h
    unfold insertEntry
    split
    · rename_i hlt
      refine List.pairwise_cons.mpr ⟨fun e he => ?_, List.pairwise_cons.mpr h⟩
      rcases List.mem_cons.mp he with rfl | he
      · exact hlt
      · exact String.lt_trans hlt (h.1 e he)
    · split
      · rename_i heq
        exact List.pairwise_cons.mpr ⟨fun e he => heq ▸ h.1 e he, h.2⟩
      · rename_i hnlt hne
        refine List.pairwise_cons.mpr ⟨fun e he => ?_, ih h.2⟩
        rcases mem_insertEntry he with rfl | he
        · exact Std.lt_of_le_of_ne (String.not_lt.mp hnlt) (Ne.symm hne)
        · exact h.1 e he

/-- The table with the value at the key. -/
def insert (t : Table α) (key : String) (value : α) : Table α :=
  ⟨insertEntry key value t.entries, ascending_insertEntry key value t.ascending⟩

/-- The table without the key. -/
def erase (t : Table α) (key : String) : Table α :=
  ⟨t.entries.filter (·.1 ≠ key), t.ascending.filter _⟩

/-- The table of a list of entries; of two with the same key the later one stays. -/
def ofList (es : List (String × α)) : Table α :=
  es.foldl (fun t e => t.insert e.1 e.2) empty

/-! ### Lookups after updates -/

@[simp] theorem get?_empty (key : String) : (empty : Table α).get? key = none := rfl

theorem find?_insertEntry (key k : String) (value : α) (es : List (String × α)) :
    find? k (insertEntry key value es) = if k = key then some value else find? k es := by
  induction es with
  | nil => simp [insertEntry, find?]
  | cons d es ih =>
    obtain ⟨k', v⟩ := d
    unfold insertEntry
    split
    · simp [find?]
    · split
      · rename_i heq
        subst heq
        by_cases h : k = key <;> simp [find?, h]
      · rename_i hne
        by_cases h : k = key
        · subst h; simp [find?, hne, ih]
        · simp [find?, ih, h]

theorem get?_insert (t : Table α) (key k : String) (value : α) :
    (t.insert key value).get? k = if k = key then some value else t.get? k :=
  find?_insertEntry key k value t.entries

@[simp] theorem get?_insert_self (t : Table α) (key : String) (value : α) :
    (t.insert key value).get? key = some value := by simp [get?_insert]

theorem get?_insert_of_ne (t : Table α) {key k : String} (value : α) (h : k ≠ key) :
    (t.insert key value).get? k = t.get? k := by simp [get?_insert, h]

theorem find?_filter_ne (key k : String) (es : List (String × α)) :
    find? k (es.filter (·.1 ≠ key)) = if k = key then none else find? k es := by
  induction es with
  | nil => simp [find?]
  | cons d es ih =>
    by_cases hd : d.1 = key
    · rw [List.filter_cons_of_neg (by simp [hd]), ih]
      by_cases h : k = key <;> simp [find?, hd, h]
    · rw [List.filter_cons_of_pos (by simp [hd])]
      by_cases h : k = d.1
      · simp [find?, h, hd]
      · simp only [find?, h, if_false, ih]

theorem get?_erase (t : Table α) (key k : String) :
    (t.erase key).get? k = if k = key then none else t.get? k :=
  find?_filter_ne key k t.entries

/-! ### Entries -/

/-- In ascending entries a key stands once, so a search finds all there is. -/
theorem find?_eq_some_iff {key : String} {value : α} {es : List (String × α)}
    (h : es.Pairwise fun a b => a.1 < b.1) : find? key es = some value ↔ (key, value) ∈ es := by
  induction es with
  | nil => simp [find?]
  | cons e es ih =>
    obtain ⟨hfirst, hrest⟩ := List.pairwise_cons.mp h
    rw [find?, List.mem_cons, Prod.ext_iff]
    by_cases hkey : key = e.1
    · subst hkey
      have hlater : (e.1, value) ∉ es := fun hmem =>
        String.lt_irrefl e.1 (hfirst (e.1, value) hmem)
      simp [hlater, eq_comm (a := value)]
    · simp [hkey, ih hrest]

theorem mem_entries_iff {t : Table α} {key : String} {value : α} :
    (key, value) ∈ t.entries ↔ t.get? key = some value :=
  (find?_eq_some_iff t.ascending).symm

end Table

end StatusBoard
