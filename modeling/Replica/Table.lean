/-
# The table of keys and values

A table is the list of its entries in ascending order of the keys, each key once, so two tables that
hold the same values under the same keys are equal (`Table.ext_get?`).  Keys are ordered by their
characters' code points.

* `get?_insert`, `get?_erase`: what a change does to each key;
* `ofEntries` folds a list of entries into a table; later entries win.
-/

namespace Replica

/-- Entries in strictly ascending order of their keys. -/
def Ascending (l : List (String × String)) : Prop := l.Pairwise fun a b => a.1 < b.1

/-- A finite map from texts to texts. -/
structure Table where
  toList : List (String × String)
  ascending : Ascending toList

namespace Table

/-! ## 1. Changing the list of entries -/

/-- The value of a key among some entries. -/
def valueOf (key : String) : List (String × String) → Option String
  | [] => none
  | e :: rest => if e.1 = key then some e.2 else valueOf key rest

/-- The entries with one put in its place, instead of an earlier one of its key. -/
def insertEntry (key value : String) : List (String × String) → List (String × String)
  | [] => [(key, value)]
  | e :: rest =>
    if e.1 < key then e :: insertEntry key value rest
    else if e.1 = key then (key, value) :: rest
    else (key, value) :: e :: rest

/-- The entries without those of a key. -/
def eraseEntry (key : String) (l : List (String × String)) : List (String × String) :=
  l.filter fun e => e.1 ≠ key

theorem mem_insertEntry {key value : String} {e : String × String} {l : List (String × String)}
    (h : e ∈ insertEntry key value l) : e = (key, value) ∨ e ∈ l := by
  induction l with
  | nil => simpa [insertEntry] using h
  | cons x l ih =>
    simp only [insertEntry] at h
    split at h
    · rcases List.mem_cons.mp h with h | h
      · exact .inr (h ▸ List.mem_cons_self)
      · exact (ih h).imp id (List.mem_cons_of_mem _)
    · split at h
      · exact (List.mem_cons.mp h).imp id (List.mem_cons_of_mem _)
      · exact List.mem_cons.mp h

theorem lt_of_not_lt_of_ne {a b : String} (h : ¬ a < b) (hne : a ≠ b) : b < a :=
  Decidable.byContradiction fun h' => hne (String.le_antisymm (String.not_lt.mp h') (String.not_lt.mp h))

theorem ascending_insertEntry (key value : String) {l : List (String × String)}
    (h : Ascending l) : Ascending (insertEntry key value l) := by
  induction l with
  | nil => simp [insertEntry, Ascending]
  | cons e l ih =>
    obtain ⟨hhead, htail⟩ := List.pairwise_cons.mp h
    simp only [insertEntry]
    split
    · next hlt =>
      refine List.pairwise_cons.mpr ⟨fun x hx => ?_, ih htail⟩
      rcases mem_insertEntry hx with rfl | hx
      · exact hlt
      · exact hhead x hx
    · next hnlt =>
      split
      · next he => exact List.pairwise_cons.mpr ⟨fun x hx => he ▸ hhead x hx, htail⟩
      · next hne =>
        have hk : key < e.1 := lt_of_not_lt_of_ne hnlt hne
        refine List.pairwise_cons.mpr ⟨fun x hx => ?_, h⟩
        rcases List.mem_cons.mp hx with rfl | hx
        · exact hk
        · exact String.lt_trans hk (hhead x hx)

theorem ascending_eraseEntry (key : String) {l : List (String × String)} (h : Ascending l) :
    Ascending (eraseEntry key l) :=
  List.Pairwise.filter _ h

/-! ## 2. Tables -/

/-- The table without entries. -/
def empty : Table := ⟨[], .nil⟩

instance : EmptyCollection Table := ⟨empty⟩

/-- The value of a key. -/
def get? (t : Table) (key : String) : Option String := valueOf key t.toList

def contains (t : Table) (key : String) : Bool := (t.get? key).isSome

def size (t : Table) : Nat := t.toList.length

/-- Gives a key a value. -/
def insert (t : Table) (key value : String) : Table :=
  ⟨insertEntry key value t.toList, ascending_insertEntry key value t.ascending⟩

/-- Takes a key away. -/
def erase (t : Table) (key : String) : Table :=
  ⟨eraseEntry key t.toList, ascending_eraseEntry key t.ascending⟩

/-- The table of some entries, of which later ones win. -/
def ofEntries (entries : List (String × String)) : Table :=
  entries.foldl (fun t e => t.insert e.1 e.2) empty

theorem ext_toList {s t : Table} (h : s.toList = t.toList) : s = t := by
  cases s; cases t; simp_all

instance : DecidableEq Table := fun s t =>
  if h : s.toList = t.toList then .isTrue (ext_toList h)
  else .isFalse fun e => h (e ▸ rfl)

/-! ## 3. What each change does to each key -/

theorem valueOf_insertEntry (key value k : String) (l : List (String × String)) :
    valueOf k (insertEntry key value l) = if key = k then some value else valueOf k l := by
  induction l with
  | nil => rfl
  | cons e l ih =>
    simp only [insertEntry]
    split
    · next hlt =>
      have hne : e.1 ≠ key := fun h => String.lt_irrefl key (h ▸ hlt)
      by_cases h : e.1 = k
      · have : key ≠ k := fun h' => hne (h.trans h'.symm)
        simp [valueOf, h, this]
      · simp [valueOf, h, ih]
    · split
      · next he => by_cases h : key = k <;> simp [valueOf, h, he]
      · rfl

theorem valueOf_eraseEntry (key k : String) (l : List (String × String)) :
    valueOf k (eraseEntry key l) = if key = k then none else valueOf k l := by
  induction l with
  | nil => simp [eraseEntry, valueOf]
  | cons e l ih =>
    have hcons : eraseEntry key (e :: l) =
        if e.1 = key then eraseEntry key l else e :: eraseEntry key l := by
      by_cases h : e.1 = key <;> simp [eraseEntry, h]
    rw [hcons]
    split
    · next he =>
      by_cases h : key = k
      · simpa [h] using ih
      · simp [valueOf, ih, h, he]
    · next he =>
      by_cases h : key = k
      · subst h; simp [valueOf, ih, he]
      · simp [valueOf, ih, h]

@[simp] theorem get?_empty (k : String) : empty.get? k = none := rfl

theorem get?_insert (t : Table) (key value k : String) :
    (t.insert key value).get? k = if key = k then some value else t.get? k :=
  valueOf_insertEntry key value k t.toList

theorem get?_erase (t : Table) (key k : String) :
    (t.erase key).get? k = if key = k then none else t.get? k :=
  valueOf_eraseEntry key k t.toList

/-! ## 4. A table is what it holds -/

theorem valueOf_eq_some_iff {l : List (String × String)} (h : Ascending l) {k v : String} :
    valueOf k l = some v ↔ (k, v) ∈ l := by
  induction l with
  | nil => simp [valueOf]
  | cons e l ih =>
    obtain ⟨hhead, htail⟩ := List.pairwise_cons.mp h
    by_cases hk : e.1 = k
    · have hn : (k, v) ∉ l := fun hm => String.ne_of_lt (hhead (k, v) hm) hk
      simp [valueOf, hn, hk, Prod.ext_iff, eq_comm]
    · simp [valueOf, hk, ih htail, Prod.ext_iff, eq_comm]

/-- **Tables that hold the same values under the same keys are equal.** -/
theorem ext_get? {s t : Table} (h : ∀ k, s.get? k = t.get? k) : s = t := by
  have hmem (e : String × String) : e ∈ s.toList ↔ e ∈ t.toList := by
    obtain ⟨k, v⟩ := e
    rw [← valueOf_eq_some_iff s.ascending, ← valueOf_eq_some_iff t.ascending]
    exact iff_of_eq (congrArg (· = some v) (h k))
  have hnodup (t : Table) : t.toList.Nodup :=
    List.Pairwise.imp (fun hlt he => String.ne_of_lt hlt (congrArg Prod.fst he)) t.ascending
  have hperm : s.toList.Perm t.toList :=
    (List.perm_ext_iff_of_nodup (hnodup s) (hnodup t)).mpr hmem
  refine ext_toList (hperm.eq_of_pairwise (fun a b _ _ hab hba => ?_) s.ascending t.ascending)
  exact absurd (String.lt_trans hab hba) (String.lt_irrefl _)

end Table
end Replica
