/-!
# Finite sets of texts

A set of texts is kept in strictly ascending order by code point, which is also the order
in which its members are shown.

## Main definitions

* `TextSet` — members in strictly ascending order
* `TextSet.insert`, `TextSet.ofList` — building a set

## Main results

* `mem_insert`, `mem_ofList` — the members of a built set
-/

namespace StatusBoard

/-- A finite set of texts, in ascending order. -/
structure TextSet where
  members : List String
  ascending : members.Pairwise (· < ·)
deriving DecidableEq

namespace TextSet

/-- The set without members. -/
def empty : TextSet := ⟨[], .nil⟩

instance : Inhabited TextSet := ⟨empty⟩

instance : Membership String TextSet := ⟨fun s text => text ∈ s.members⟩

/-- Whether a text is a member. -/
def contains (s : TextSet) (text : String) : Bool := decide (text ∈ s.members)

@[simp] theorem contains_iff {s : TextSet} {text : String} :
    s.contains text = true ↔ text ∈ s := decide_eq_true_iff

/-- Inserts a text into texts in ascending order, unless it is among them. -/
def insertMember (text : String) : List String → List String
  | [] => [text]
  | t :: ts =>
    if text < t then text :: t :: ts
    else if text = t then t :: ts
    else t :: insertMember text ts

theorem mem_insertMember {text x : String} {ts : List String} :
    x ∈ insertMember text ts ↔ x = text ∨ x ∈ ts := by
  induction ts with
  | nil => simp [insertMember]
  | cons t ts ih =>
    unfold insertMember
    split
    · simp
    · split
      · rename_i heq
        simp [heq]
      · simp [ih, or_left_comm]

theorem ascending_insertMember (text : String) {ts : List String}
    (h : ts.Pairwise (· < ·)) : (insertMember text ts).Pairwise (· < ·) := by
  induction ts with
  | nil => simp [insertMember]
  | cons t ts ih =>
    rw [List.pairwise_cons] at h
    unfold insertMember
    split
    · rename_i hlt
      refine List.pairwise_cons.mpr ⟨fun x hx => ?_, List.pairwise_cons.mpr h⟩
      rcases List.mem_cons.mp hx with rfl | hx
      · exact hlt
      · exact String.lt_trans hlt (h.1 x hx)
    · split
      · exact List.pairwise_cons.mpr h
      · rename_i hnlt hne
        refine List.pairwise_cons.mpr ⟨fun x hx => ?_, ih h.2⟩
        rcases mem_insertMember.mp hx with rfl | hx
        · exact Std.lt_of_le_of_ne (String.not_lt.mp hnlt) (Ne.symm hne)
        · exact h.1 x hx

/-- The set with one more member. -/
def insert (s : TextSet) (text : String) : TextSet :=
  ⟨insertMember text s.members, ascending_insertMember text s.ascending⟩

/-- The set of the texts in a list. -/
def ofList (texts : List String) : TextSet := texts.foldl insert empty

@[simp] theorem not_mem_empty (x : String) : x ∉ empty := List.not_mem_nil

@[simp] theorem mem_insert {s : TextSet} {text x : String} :
    x ∈ s.insert text ↔ x = text ∨ x ∈ s := mem_insertMember

@[simp] theorem mem_ofList {texts : List String} {x : String} :
    x ∈ ofList texts ↔ x ∈ texts := by
  suffices h : ∀ s : TextSet, x ∈ texts.foldl insert s ↔ x ∈ s ∨ x ∈ texts by
    simpa [ofList] using h empty
  induction texts with
  | nil => simp
  | cons t ts ih =>
    intro s
    rw [List.foldl_cons, ih, mem_insert, List.mem_cons, or_comm (a := x = t), or_assoc]

end TextSet

end StatusBoard
