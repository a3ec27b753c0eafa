/-
# Runs of committed entries

A node applies entries one after the other and goes on after one that failed.  What a whole run leaves
in the table are the changes that its entries ask for, in their order, whether or not they were saved.
Where no save fails, the storage follows: it stays as it is as long as all changes are left out, and
from the first save on it holds the snapshot of the table.

* `Node.applyAll_cons`: a run is done entry by entry;
* `Node.table_applyAll`: what the table holds after a run;
* `Table.saves`: how many of some changes are not left out;
* `Node.applyAll_of_idle`, `Node.mirrored_applyAll`: what a run without a failure leaves in the storage;
* `Node.applyAll_eq`: all that a run gives over a memory that accepts saves.
-/
import Replica.Node
import Replica.Proofs.Change
import Replica.Proofs.LawfulStorage

namespace Replica

/-! ## 1. Entry by entry -/

namespace Node

variable {σ γ : Type} [Storage σ]

/-- One entry after the results that are there already, the latest first. -/
def collect (s : List (Except Failure Bool) × Node σ γ) (entry : Bytes) :
    List (Except Failure Bool) × Node σ γ :=
  ((s.2.apply entry).1 :: s.1, (s.2.apply entry).2)

theorem applyAll_eq_foldl (entries : List Bytes) (n : Node σ γ) :
    n.applyAll entries =
      ((entries.foldl collect ([], n)).1.reverse, (entries.foldl collect ([], n)).2) := rfl

theorem foldl_collect (entries : List Bytes) (results : List (Except Failure Bool)) (n : Node σ γ) :
    entries.foldl collect (results, n) =
      ((entries.foldl collect ([], n)).1 ++ results, (entries.foldl collect ([], n)).2) := by
  induction entries generalizing results n with
  | nil => rfl
  | cons entry entries ih =>
    simp only [List.foldl_cons, collect]
    rw [ih ((n.apply entry).1 :: results), ih [(n.apply entry).1]]
    simp

theorem applyAll_cons (entry : Bytes) (entries : List Bytes) (n : Node σ γ) :
    n.applyAll (entry :: entries) =
      ((n.apply entry).1 :: ((n.apply entry).2.applyAll entries).1,
        ((n.apply entry).2.applyAll entries).2) := by
  simp only [applyAll_eq_foldl, List.foldl_cons, collect]
  rw [foldl_collect entries [(n.apply entry).1]]
  simp

theorem table_apply (entry : Bytes) (n : Node σ γ) :
    (n.apply entry).2.table = n.table.changed (Change.ofEntry? entry).toList :=
  Applier.table_applyEntry entry n.applier

/-- **What a run of entries leaves in the table.** -/
theorem table_applyAll (entries : List Bytes) (n : Node σ γ) :
    (n.applyAll entries).2.table = n.table.changed (entries.filterMap Change.ofEntry?) := by
  induction entries generalizing n with
  | nil => rfl
  | cons entry entries ih => rw [applyAll_cons, ih, table_apply, Table.changed_filterMap_cons]

theorem gateway_applyAll (entries : List Bytes) (n : Node σ γ) :
    (n.applyAll entries).2.gateway = n.gateway := by
  induction entries generalizing n with
  | nil => rfl
  | cons entry entries ih => rw [applyAll_cons, ih]; rfl

end Node

/-! ## 2. The changes that are not left out -/

namespace Table

/-- How many of some changes are not left out; so many saves they take. -/
def saves (t : Table) : List Change → Nat
  | [] => 0
  | c :: cs => (if c.isIdle t then 0 else 1) + (c.apply t).saves cs

theorem saves_singleton_of_isIdle {t : Table} {c : Change} (h : c.isIdle t = true) :
    t.saves [c] = 0 := by
  simp [saves, h]

theorem saves_singleton_of_not_isIdle {t : Table} {c : Change} (h : c.isIdle t = false) :
    t.saves [c] = 1 := by
  simp [saves, h]

theorem saves_append (t : Table) (cs ds : List Change) :
    t.saves (cs ++ ds) = t.saves cs + (t.changed cs).saves ds := by
  induction cs generalizing t with
  | nil => exact (Nat.zero_add _).symm
  | cons c cs ih => rw [List.cons_append, saves, saves, ih, changed_cons, Nat.add_assoc]

/-- Changes that are read off a list, taken off its front. -/
theorem saves_filterMap_cons {α : Type} (t : Table) (f : α → Option Change) (x : α) (xs : List α) :
    t.saves ((x :: xs).filterMap f) =
      t.saves (f x).toList + (t.changed (f x).toList).saves (xs.filterMap f) := by
  rw [← saves_append]
  cases h : f x with
  | none => rw [List.filterMap_cons_none h]; rfl
  | some c => rw [List.filterMap_cons_some h]; rfl

/-- If nothing is saved, the table never changes, and so each change is left out of this one table. -/
theorem saves_eq_zero_iff {t : Table} {cs : List Change} :
    t.saves cs = 0 ↔ ∀ c ∈ cs, c.isIdle t = true := by
  induction cs with
  | nil => simp [saves]
  | cons c cs ih =>
    rw [saves, List.forall_mem_cons]
    cases hidle : c.isIdle t with
    | false => simp
    | true => simp [Change.apply_of_isIdle hidle, ih]

theorem changed_of_saves_eq_zero {t : Table} {cs : List Change} (h : t.saves cs = 0) :
    t.changed cs = t := by
  rw [saves_eq_zero_iff] at h
  induction cs with
  | nil => rfl
  | cons c cs ih =>
    obtain ⟨hc, hcs⟩ := List.forall_mem_cons.mp h
    rw [changed_cons, Change.apply_of_isIdle hc, ih hcs]

end Table

/-! ## 3. Runs in which no save fails -/

namespace Node

variable {σ γ : Type} [Storage σ]

/-- No entry of a run fails, so all its saves succeed. -/
def Succeeds (n : Node σ γ) (entries : List Bytes) : Prop :=
  ∀ r ∈ (n.applyAll entries).1, ∃ applied, r = .ok applied

theorem succeeds_cons {n : Node σ γ} {entry : Bytes} {entries : List Bytes} :
    n.Succeeds (entry :: entries) ↔
      (∃ applied, (n.apply entry).1 = .ok applied) ∧ (n.apply entry).2.Succeeds entries := by
  unfold Succeeds
  rw [applyAll_cons, List.forall_mem_cons]

/-- **What an entry does that does not fail.**  It was applied if it asks for an admissible change; the
node stays as it is, or saves its table. -/
theorem apply_of_ok {n : Node σ γ} {entry : Bytes} {applied : Bool}
    (h : (n.apply entry).1 = .ok applied) :
    applied = (Change.ofEntry? entry).isSome ∧
    ((n.table.saves (Change.ofEntry? entry).toList = 0 ∧ (n.apply entry).2 = n) ∨
      (n.table.saves (Change.ofEntry? entry).toList = 1 ∧
        (n.apply entry).2.shutdown = n.shutdown ∧
        Storage.save (Snapshot.encode (n.apply entry).2.table) n.storage =
          (.ok (), (n.apply entry).2.storage))) := by
  obtain ⟨a, gateway⟩ := n
  have hrun : a.applyEntry entry = (.ok applied, (a.applyEntry entry).2) := Prod.ext h rfl
  rcases Applier.applyEntry_cases hrun with
    ⟨he, hr, ha⟩ | ⟨c, he, ⟨hidle, hr, ha⟩ | ⟨hidle, hr, hshutdown, htable, hsave⟩ | ⟨-, _, hr, -⟩⟩
  · cases hr
    exact ⟨by rw [he]; rfl, .inl ⟨by rw [he]; rfl, congrArg (Node.mk · gateway) ha⟩⟩
  · cases hr
    have hsaves := Table.saves_singleton_of_isIdle hidle
    rw [← Option.toList_some, ← he] at hsaves
    exact ⟨by rw [he]; rfl, .inl ⟨hsaves, congrArg (Node.mk · gateway) ha⟩⟩
  · cases hr
    have hsaves := Table.saves_singleton_of_not_isIdle hidle
    rw [← Option.toList_some, ← he] at hsaves
    rw [← htable] at hsave
    exact ⟨by rw [he]; rfl, .inr ⟨hsaves, hshutdown, hsave⟩⟩
  · cases hr

/-- In a run without a failure the entry alone decides what is answered for it. -/
theorem results_applyAll {entries : List Bytes} {n : Node σ γ} (h : n.Succeeds entries) :
    (n.applyAll entries).1 = entries.map fun e => .ok (Change.ofEntry? e).isSome := by
  induction entries generalizing n with
  | nil => rfl
  | cons entry entries ih =>
    obtain ⟨⟨applied, happlied⟩, hrest⟩ := succeeds_cons.mp h
    rw [applyAll_cons, List.map_cons, ih hrest, happlied, (apply_of_ok happlied).1]

theorem shutdown_applyAll {entries : List Bytes} {n : Node σ γ} (h : n.Succeeds entries) :
    (n.applyAll entries).2.shutdown = n.shutdown := by
  induction entries generalizing n with
  | nil => rfl
  | cons entry entries ih =>
    obtain ⟨⟨applied, happlied⟩, hrest⟩ := succeeds_cons.mp h
    rw [applyAll_cons, ih hrest]
    rcases (apply_of_ok happlied).2 with ⟨-, hn⟩ | ⟨-, hshutdown, -⟩
    · rw [hn]
    · exact hshutdown

/-- A run of which all changes are left out leaves the node as it is. -/
theorem applyAll_of_idle {entries : List Bytes} {n : Node σ γ} (h : n.Succeeds entries)
    (hidle : n.table.saves (entries.filterMap Change.ofEntry?) = 0) : (n.applyAll entries).2 = n := by
  induction entries with
  | nil => rfl
  | cons entry entries ih =>
    obtain ⟨⟨applied, happlied⟩, hrest⟩ := succeeds_cons.mp h
    rw [Table.saves_filterMap_cons, Nat.add_eq_zero_iff] at hidle
    rw [applyAll_cons]
    rcases (apply_of_ok happlied).2 with ⟨hzero, hn⟩ | ⟨hone, -⟩
    · rw [hn] at hrest ⊢
      rw [Table.changed_of_saves_eq_zero hzero] at hidle
      exact ih hrest hidle.2
    · omega

/-- The storage holds the snapshot of the table. -/
def Mirrored (n : Node σ γ) : Prop :=
  Storage.load n.storage = .ok (some (Snapshot.encode n.table))

theorem Mirrored.apply [LawfulStorage σ] {n : Node σ γ} (h : n.Mirrored) {entry : Bytes} {applied : Bool}
    (hr : (n.apply entry).1 = .ok applied) : (n.apply entry).2.Mirrored := by
  rcases (apply_of_ok hr).2 with ⟨-, hn⟩ | ⟨-, -, hsave⟩
  · rwa [hn]
  · exact LawfulStorage.load_save hsave

theorem Mirrored.applyAll [LawfulStorage σ] {entries : List Bytes} {n : Node σ γ} (h : n.Mirrored)
    (hs : n.Succeeds entries) : (n.applyAll entries).2.Mirrored := by
  induction entries generalizing n with
  | nil => exact h
  | cons entry entries ih =>
    obtain ⟨⟨applied, happlied⟩, hrest⟩ := succeeds_cons.mp hs
    rw [applyAll_cons]
    exact ih (h.apply happlied) hrest

/-- **From the first save on the storage holds the snapshot of the table.** -/
theorem mirrored_applyAll [LawfulStorage σ] {entries : List Bytes} {n : Node σ γ}
    (h : n.Succeeds entries) (hsaves : n.table.saves (entries.filterMap Change.ofEntry?) ≠ 0) :
    (n.applyAll entries).2.Mirrored := by
  induction entries generalizing n with
  | nil => exact absurd rfl hsaves
  | cons entry entries ih =>
    obtain ⟨⟨applied, happlied⟩, hrest⟩ := succeeds_cons.mp h
    rw [Table.saves_filterMap_cons] at hsaves
    rw [applyAll_cons]
    rcases (apply_of_ok happlied).2 with ⟨hzero, hn⟩ | ⟨-, -, hsave⟩
    · rw [Table.changed_of_saves_eq_zero hzero, hzero, Nat.zero_add] at hsaves
      rw [hn] at hrest ⊢
      exact ih hrest hsaves
    · exact Mirrored.applyAll (LawfulStorage.load_save hsave) hrest

/-! ## 4. Over memory -/

attribute [ext] Memory

/-- An entry over a memory that accepts saves. -/
theorem apply_memory {n : Node Memory γ} (h : n.storage.failing = false) (entry : Bytes) :
    (∃ applied, (n.apply entry).1 = .ok applied) ∧
      (n.apply entry).2.storage.failing = false ∧
      (n.apply entry).2.storage.saves =
        n.storage.saves + n.table.saves (Change.ofEntry? entry).toList := by
  have hok : ∃ applied, (n.apply entry).1 = .ok applied := by
    rcases Applier.applyEntry_cases (Prod.ext rfl rfl : n.applier.applyEntry entry = (_, _)) with
      ⟨-, hr, -⟩ | ⟨c, -, ⟨-, hr, -⟩ | ⟨-, hr, -⟩ | ⟨-, f, -, -, -, hsave⟩⟩
    · exact ⟨false, hr⟩
    · exact ⟨true, hr⟩
    · exact ⟨true, hr⟩
    · have hfailing : n.storage.failing = true := (Memory.of_save_error hsave).1
      rw [h] at hfailing
      cases hfailing
  refine ⟨hok, ?_⟩
  obtain ⟨applied, happlied⟩ := hok
  rcases (apply_of_ok happlied).2 with ⟨hzero, hn⟩ | ⟨hone, -, hsave⟩
  · rw [hn, hzero]
    exact ⟨h, rfl⟩
  · rw [(Memory.of_save_ok hsave).2, hone]
    exact ⟨rfl, rfl⟩

/-- A run over a memory that accepts saves has no failure, and all its saves are counted. -/
theorem applyAll_memory (entries : List Bytes) {n : Node Memory γ} (h : n.storage.failing = false) :
    n.Succeeds entries ∧
      (n.applyAll entries).2.storage.failing = false ∧
      (n.applyAll entries).2.storage.saves =
        n.storage.saves + n.table.saves (entries.filterMap Change.ofEntry?) := by
  induction entries generalizing n with
  | nil => exact ⟨fun _ hr => absurd hr List.not_mem_nil, h, rfl⟩
  | cons entry entries ih =>
    obtain ⟨hok, hfailing, hsaves⟩ := apply_memory h entry
    obtain ⟨hrest, hfailing', hsaves'⟩ := ih hfailing
    rw [applyAll_cons, Table.saves_filterMap_cons]
    refine ⟨succeeds_cons.mpr ⟨hok, hrest⟩, hfailing', ?_⟩
    rw [hsaves', hsaves, table_apply, Nat.add_assoc]

/-- The memory of a table after some changes that it accepted. -/
def memoryAfter (t : Table) (m : Memory) (cs : List Change) : Memory where
  snapshot := if t.saves cs = 0 then m.snapshot else some (Snapshot.encode (t.changed cs))
  saves := m.saves + t.saves cs
  failing := false

theorem storage_applyAll (entries : List Bytes) {n : Node Memory γ} (h : n.storage.failing = false) :
    (n.applyAll entries).2.storage =
      memoryAfter n.table n.storage (entries.filterMap Change.ofEntry?) := by
  obtain ⟨hs, hfailing, hsaves⟩ := applyAll_memory entries h
  have hsnapshot : (n.applyAll entries).2.storage.snapshot =
      (memoryAfter n.table n.storage (entries.filterMap Change.ofEntry?)).snapshot := by
    unfold memoryAfter
    split
    · next hzero => rw [applyAll_of_idle hs hzero]
    · next hsome =>
      rw [← table_applyAll]
      exact Except.ok.inj (mirrored_applyAll hs hsome)
  exact Memory.ext hsnapshot hsaves hfailing

/-- **A run over a memory that accepts saves.**  Each entry is answered by itself, and the node at the end
depends on nothing but the changes that the entries ask for. -/
theorem applyAll_eq (entries : List Bytes) {n : Node Memory γ} (h : n.storage.failing = false) :
    n.applyAll entries =
      (entries.map fun e => .ok (Change.ofEntry? e).isSome,
        ⟨⟨⟨n.table.changed (entries.filterMap Change.ofEntry?),
            memoryAfter n.table n.storage (entries.filterMap Change.ofEntry?)⟩, n.shutdown⟩,
          n.gateway⟩) := by
  have hs := (applyAll_memory entries h).1
  rw [← table_applyAll, ← storage_applyAll entries h, ← results_applyAll hs, ← shutdown_applyAll hs,
    ← gateway_applyAll entries n]
  rfl

end Node
end Replica
