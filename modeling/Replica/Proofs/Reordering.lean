/-
# Entries in another order

Changes of different keys do not see each other, so a log may be put into another order as long as the
entries that change one and the same key keep theirs.  Whether a removal is saved depends on the table
that it meets, but only on what that table holds for the removed key.

* `Change.PerKey`: two lists with the same changes of each key, in the same order;
* `Table.changed_of_perKey`, `Table.saves_of_perKey`: they leave the same table and take as many saves;
* `Reordering`: a list of entries in another order, with the place to which each entry moves;
* `Node.applyAll_reordered`: what each entry is answered, and the node at the end, do not depend on it.
-/
import Mathlib.Data.List.Sort
import Mathlib.Logic.Equiv.Basic
import Replica.Proofs.Entries

namespace Replica

/-! ## 1. Changes of different keys -/

namespace Change

theorem apply_comm {c d : Change} (h : c.key ≠ d.key) (t : Table) :
    d.apply (c.apply t) = c.apply (d.apply t) := by
  apply Table.ext_get?
  intro k
  simp only [get?_apply]
  by_cases hd : d.key = k
  · have hc : c.key ≠ k := fun hc => h (hc.trans hd.symm)
    rw [if_pos hd, if_neg hc, if_pos hd]
  · rw [if_neg hd, if_neg hd]

theorem isIdle_apply {c d : Change} (h : c.key ≠ d.key) (t : Table) :
    d.isIdle (c.apply t) = d.isIdle t := by
  cases d with
  | set key value => rfl
  | remove key =>
    have hsame : (c.apply t).get? key = t.get? key := by
      rw [get?_apply]
      exact if_neg h
    simp only [isIdle, Table.contains, hsame]

/-- Two lists of changes that agree on each key. -/
def PerKey (cs ds : List Change) : Prop :=
  ∀ key, (cs.filter fun c => c.key = key) = ds.filter fun c => c.key = key

theorem PerKey.eq_nil {ds : List Change} (h : PerKey [] ds) : ds = [] := by
  cases ds with
  | nil => rfl
  | cons d ds =>
    have hd := h d.key
    simp at hd

/-- The first change of one list stands in the other one behind changes of other keys. -/
theorem PerKey.of_cons {c : Change} {cs ds : List Change} (h : PerKey (c :: cs) ds) :
    ∃ front back, ds = front ++ c :: back ∧ (∀ d ∈ front, d.key ≠ c.key) ∧
      PerKey cs (front ++ back) := by
  have hkey : (ds.filter fun d => d.key = c.key) = c :: cs.filter fun d => d.key = c.key := by
    rw [← h c.key]
    simp
  obtain ⟨front, back, rfl, hfront, -, -⟩ := List.filter_eq_cons_iff.mp hkey
  have hother : ∀ d ∈ front, d.key ≠ c.key := fun d hd => by simpa using hfront d hd
  refine ⟨front, back, rfl, hother, ?_⟩
  intro key
  have hsame := h key
  rw [List.filter_append] at hsame ⊢
  by_cases hc : c.key = key
  · have hnone : (front.filter fun d => d.key = key) = [] := by
      simpa [List.filter_eq_nil_iff, ← hc] using hother
    simpa [hc, hnone] using hsame
  · simpa [hc] using hsame

end Change

namespace Table

/-- **Changes that agree on each key leave the same table.** -/
theorem changed_of_perKey (t : Table) {cs ds : List Change} (h : Change.PerKey cs ds) :
    t.changed cs = t.changed ds := by
  apply ext_get?
  intro k
  have hlast : lastOf k cs = lastOf k ds := congrArg List.getLast? (h k)
  rw [get?_changed, get?_changed, hlast]

/-- A change takes as many saves where it stands as it takes in front of changes of other keys. -/
theorem saves_move_front {c : Change} {front : List Change} (h : ∀ d ∈ front, d.key ≠ c.key)
    (t : Table) (back : List Change) :
    t.saves (front ++ c :: back) = t.saves (c :: (front ++ back)) := by
  induction front generalizing t with
  | nil => rfl
  | cons d front ih =>
    obtain ⟨hd, hfront⟩ := List.forall_mem_cons.mp h
    rw [List.cons_append, saves, ih hfront, List.cons_append, saves, saves, saves,
      Change.isIdle_apply hd, Change.isIdle_apply (Ne.symm hd), Change.apply_comm hd]
    omega

/-- **Changes that agree on each key take as many saves.** -/
theorem saves_of_perKey (t : Table) {cs ds : List Change} (h : Change.PerKey cs ds) :
    t.saves cs = t.saves ds := by
  -- Along one order, while the same change is brought to the front of the other.
  induction cs generalizing t ds with
  | nil => rw [h.eq_nil]
  | cons c cs ih =>
    obtain ⟨front, back, rfl, hother, hrest⟩ := h.of_cons
    rw [saves_move_front hother, saves, saves, ih _ hrest]

end Table

/-! ## 2. Entries that change places -/

/-- Two entries that ask for admissible changes of the same key. -/
def Change.SameKey (x y : Bytes) : Prop :=
  ∃ c d, ofEntry? x = some c ∧ ofEntry? y = some d ∧ c.key = d.key

instance (x y : Bytes) : Decidable (Change.SameKey x y) :=
  decidable_of_iff
    ((Change.ofEntry? x).any fun c => (Change.ofEntry? y).any fun d => c.key = d.key)
    (by unfold Change.SameKey; cases Change.ofEntry? x <;> cases Change.ofEntry? y <;> simp)

/-- Entries in another order, which is the old one for any two that change the same key. -/
structure Reordering (xs ys : List Bytes) where
  /-- Where each entry goes. -/
  place : Fin xs.length ≃ Fin ys.length
  same : ∀ i, ys[place i] = xs[i]
  ordered : ∀ i j, i < j → Change.SameKey xs[i] xs[j] → place i < place j

namespace Reordering

variable {xs ys : List Bytes}

/-- Whether an entry asks for an admissible change of a key. -/
def changes (key : String) (entry : Bytes) : Bool := (Change.ofEntry? entry).any (·.key = key)

theorem changes_iff {key : String} {entry : Bytes} :
    changes key entry = true ↔ ∃ c, Change.ofEntry? entry = some c ∧ c.key = key := by
  unfold changes
  cases Change.ofEntry? entry <;> simp

theorem sameKey_of_changes {key : String} {x y : Bytes} (hx : changes key x = true)
    (hy : changes key y = true) : Change.SameKey x y := by
  obtain ⟨c, hc, hck⟩ := changes_iff.mp hx
  obtain ⟨d, hd, hdk⟩ := changes_iff.mp hy
  exact ⟨c, d, hc, hd, hck.trans hdk.symm⟩

theorem filter_filterMap (key : String) (entries : List Bytes) :
    ((entries.filterMap Change.ofEntry?).filter fun c => c.key = key) =
      (entries.filter (changes key)).filterMap Change.ofEntry? := by
  induction entries with
  | nil => rfl
  | cons entry entries ih =>
    cases he : Change.ofEntry? entry with
    | none => simp [changes, he, ih]
    | some c => by_cases hc : c.key = key <;> simp [changes, he, hc, ih]

/-- The places of the entries that change a key, in ascending order. -/
def places (key : String) (entries : List Bytes) : List (Fin entries.length) :=
  (List.finRange entries.length).filter fun i => changes key entries[i]

theorem mem_places {key : String} {entries : List Bytes} {i : Fin entries.length} :
    i ∈ places key entries ↔ changes key entries[i] = true := by
  simp [places]

theorem places_ascending (key : String) (entries : List Bytes) :
    (places key entries).Pairwise (· < ·) :=
  (List.sortedLT_finRange _).pairwise.filter _

theorem map_places (key : String) (entries : List Bytes) :
    (places key entries).map (entries[·]) = entries.filter (changes key) := by
  conv_rhs => rw [← List.map_get_finRange entries, List.filter_map]
  rfl

/-- The places of the entries that change a key move in their order. -/
theorem map_place_places (r : Reordering xs ys) (key : String) :
    (places key xs).map r.place = places key ys := by
  have hmoved : ((places key xs).map r.place).Pairwise (· < ·) := by
    rw [List.pairwise_map]
    refine (places_ascending key xs).imp_of_mem fun hi hj hlt => ?_
    exact r.ordered _ _ hlt (sameKey_of_changes (mem_places.mp hi) (mem_places.mp hj))
  refine hmoved.eq_of_mem_iff (places_ascending key ys) fun j => ?_
  rw [List.mem_map, mem_places]
  constructor
  · rintro ⟨i, hi, rfl⟩
    rw [r.same]
    exact mem_places.mp hi
  · intro hj
    obtain ⟨i, rfl⟩ := r.place.surjective j
    rw [r.same] at hj
    exact ⟨i, mem_places.mpr hj, rfl⟩

theorem filter_eq (r : Reordering xs ys) (key : String) :
    xs.filter (changes key) = ys.filter (changes key) := by
  rw [← map_places key xs, ← map_places key ys, ← r.map_place_places, List.map_map]
  exact List.map_congr_left fun i _ => (r.same i).symm

theorem perKey (r : Reordering xs ys) :
    Change.PerKey (xs.filterMap Change.ofEntry?) (ys.filterMap Change.ofEntry?) := by
  intro key
  rw [filter_filterMap, filter_filterMap, r.filter_eq]

end Reordering

/-! ## 3. Runs of entries in another order -/

namespace Node

variable {γ : Type}

theorem memoryAfter_of_perKey (t : Table) (m : Memory) {cs ds : List Change}
    (h : Change.PerKey cs ds) : memoryAfter t m cs = memoryAfter t m ds := by
  unfold memoryAfter
  rw [t.saves_of_perKey h, t.changed_of_perKey h]

/-- **Only the order for each key matters.**  A node starts from any snapshot or from none, and its memory
accepts all saves.  Put the entries that it applies into another order, but keep the order of those
that change the same key; entries that ask for no admissible change may go anywhere.  Each entry gets
the same answer, and at the end the node is the same, with its table, snapshot and count of saves. -/
theorem applyAll_reordered (snapshot : Option Bytes) (gateway : γ) :
    ∃ n : Node Memory γ, start (Memory.ofSnapshot snapshot) gateway = .ok n ∧
      ∀ {xs ys : List Bytes} (r : Reordering xs ys),
        (∀ i : Fin xs.length, ∃ applied : Bool,
          (n.applyAll xs).1[(i : Nat)]? = some (.ok applied) ∧
          (n.applyAll ys).1[(r.place i : Nat)]? = some (.ok applied)) ∧
        (n.applyAll xs).2 = (n.applyAll ys).2 := by
  have hstart : start (Memory.ofSnapshot snapshot) gateway =
      .ok ⟨⟨⟨(Memory.ofSnapshot snapshot).table, .ofSnapshot snapshot⟩, .idle⟩, gateway⟩ := by
    rw [start, Memory.load_eq]
  refine ⟨_, hstart, ?_⟩
  intro xs ys r
  rw [applyAll_eq xs rfl, applyAll_eq ys rfl]
  constructor
  · intro i
    refine ⟨(Change.ofEntry? xs[i]).isSome, ?_, ?_⟩
    · simp
    · simp [← r.same i]
  · rw [Table.changed_of_perKey _ r.perKey, memoryAfter_of_perKey _ _ r.perKey]

/-- Two keys are changed twice each, and there is an entry that is no command. -/
def shuffled :
    Reordering
      [Command.encode (.set "a" "1"), Command.encode (.delete "b"), [0xC1],
        Command.encode (.set "b" "2"), Command.encode (.delete "a")]
      [[0xC1], Command.encode (.delete "b"), Command.encode (.set "a" "1"),
        Command.encode (.delete "a"), Command.encode (.set "b" "2")] where
  place := ((Equiv.swap 0 2).trans (Equiv.swap 3 4) : Fin 5 ≃ Fin 5)
  same := by decide
  ordered := by decide

theorem applyAll_reordered_shuffled :
    ∃ n : Node Memory Recording,
      start (Memory.ofSnapshot (some (Utf8.encode "b=0\n"))) (Recording.empty true) = .ok n ∧
      (n.applyAll [Command.encode (.set "a" "1"), Command.encode (.delete "b"), [0xC1],
        Command.encode (.set "b" "2"), Command.encode (.delete "a")]).2 =
        (n.applyAll [[0xC1], Command.encode (.delete "b"), Command.encode (.set "a" "1"),
          Command.encode (.delete "a"), Command.encode (.set "b" "2")]).2 ∧
      (n.applyAll [[0xC1], Command.encode (.delete "b"), Command.encode (.set "a" "1"),
        Command.encode (.delete "a"), Command.encode (.set "b" "2")]).2.storage =
        ⟨some (Utf8.encode "b=2\n"), 4, false⟩ := by
  obtain ⟨n, hstart, hall⟩ := applyAll_reordered (some (Utf8.encode "b=0\n")) (Recording.empty true)
  refine ⟨n, hstart, (hall shuffled).2, ?_⟩
  cases hstart
  rfl

end Node
end Replica
