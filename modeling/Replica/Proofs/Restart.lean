/-
# Restarts between entries

A restart drops the table and the signal to stop, and rebuilds both from the storage.  A node whose
saves have all succeeded loses nothing by it: its storage holds the snapshot of its table or, as long
as nothing was saved, what the table was read from, and its table fits the format of snapshots
(`Applier.Steady`).  Admitted entries keep both true.

* `Applier.Steady.applyEntry`: an applier stays steady with every entry that does not fail;
* `Node.restart_of_steady`: a steady node comes back as it was;
* `Node.runDeliveries_eq_applyAll`: a run with restarts anywhere is the run without them.
-/
import Replica.Proofs.Entries
import Replica.Proofs.LawfulStorage

namespace Replica

/-- What can happen to a node: the next committed entry comes, or it is restarted. -/
inductive Delivery where
  | entry (entry : Bytes)
  | restart
  deriving DecidableEq, Repr

def Delivery.entry? : Delivery → Option Bytes
  | .entry b => some b
  | .restart => none

/-! ## 1. What a restart cannot change -/

namespace Applier

variable {σ : Type} [Storage σ]

/-- An applier that its storage gives back as it is, and will give back after every save. -/
structure Steady (a : Applier σ) : Prop where
  fits : a.store.table.Fits
  stored : Store.load a.store.storage = .ok a.store
  running : a.shutdown = .idle

/-- What a storage gives is given again. -/
theorem steady_load {storage : σ} {store : Store σ} (h : Store.load storage = .ok store)
    (hfits : ∀ b, Storage.load storage = .ok (some b) → (Snapshot.decode b).Fits) :
    Steady ⟨store, .idle⟩ := by
  have hstorage : store.storage = storage := by
    unfold Store.load at h
    split at h <;> cases h <;> rfl
  refine ⟨?_, by rw [hstorage]; exact h, rfl⟩
  unfold Store.load at h
  split at h
  · next b hb => cases h; exact hfits b hb
  · cases h; exact Table.fits_empty
  · cases h

/-- An entry that does not fail leaves the table as it is or saves it. -/
theorem Steady.applyEntry [LawfulStorage σ] {a a' : Applier σ} (h : a.Steady) {entry : Bytes}
    {applied : Bool} (hr : a.applyEntry entry = (.ok applied, a')) : a'.Steady := by
  rcases applyEntry_cases hr with
    ⟨-, -, rfl⟩ | ⟨c, he, ⟨-, -, rfl⟩ | ⟨-, -, hs, ht, hsave⟩ | ⟨-, _, hr, -⟩⟩
  · exact h
  · exact h
  · have hfits : (c.apply a.store.table).Fits := (Change.fits_of_ofEntry? he).apply h.fits
    have hload := Store.load_of_saved hfits hsave
    rw [← ht] at hfits hload
    exact ⟨hfits, hload, hs.trans h.running⟩
  · cases hr

end Applier

/-! ## 2. Runs with restarts -/

namespace Node

variable {σ γ : Type} [Storage σ]

/-- The results of the entries among some deliveries, and the node after all of them; only a restart
that cannot read its storage ends the run. -/
def runDeliveries : List Delivery → Node σ γ → Except Failure (List (Except Failure Bool) × Node σ γ)
  | [], n => .ok ([], n)
  | .entry entry :: rest, n =>
    let (result, n) := n.apply entry
    match runDeliveries rest n with
    | .ok (results, n) => .ok (result :: results, n)
    | .error f => .error f
  | .restart :: rest, n =>
    match n.restart with
    | .ok n => runDeliveries rest n
    | .error f => .error f

theorem restart_of_steady {n : Node σ γ} (h : n.applier.Steady) : n.restart = .ok n := by
  obtain ⟨⟨store, shutdown⟩, gateway⟩ := n
  obtain ⟨-, hstored, hrunning⟩ := h
  simp only at hstored hrunning
  simp only [restart, start, storage, hstored, hrunning]

/-- A run of deliveries to a steady node is the run of its entries. -/
theorem runDeliveries_of_steady [LawfulStorage σ] : ∀ (deliveries : List Delivery) {n : Node σ γ},
    n.applier.Steady → n.Succeeds (deliveries.filterMap Delivery.entry?) →
    n.runDeliveries deliveries = .ok (n.applyAll (deliveries.filterMap Delivery.entry?))
  | [], _, _, _ => rfl
  | .restart :: rest, n, hsteady, hsaved => by
    have hskip : (Delivery.restart :: rest).filterMap Delivery.entry? =
        rest.filterMap Delivery.entry? := rfl
    rw [hskip] at hsaved ⊢
    unfold runDeliveries
    rw [restart_of_steady hsteady]
    exact runDeliveries_of_steady rest hsteady hsaved
  | .entry entry :: rest, n, hsteady, hsaved => by
    have hfirst : (Delivery.entry entry :: rest).filterMap Delivery.entry? =
        entry :: rest.filterMap Delivery.entry? := rfl
    rw [hfirst] at hsaved ⊢
    obtain ⟨⟨applied, hr⟩, hsaved⟩ := succeeds_cons.mp hsaved
    have hnext : (n.apply entry).2.applier.Steady :=
      hsteady.applyEntry (Prod.ext hr rfl : n.applier.applyEntry entry = (.ok applied, _))
    have hrest := runDeliveries_of_steady rest hnext hsaved
    rw [applyAll_cons]
    unfold runDeliveries
    simp only [hrest]

/-- **Restarts do not show.**  Deliver entries with restarts anywhere between them, to a node that
starts from no snapshot or from one whose records fit, and let no save fail.  The results, the table and
the storage as a whole, with its snapshot and its count of saves where it keeps one, are those of the
same entries without a restart. -/
theorem runDeliveries_eq_applyAll [LawfulStorage σ] {storage : σ} {gateway : γ} {n : Node σ γ}
    (deliveries : List Delivery) (hstart : start storage gateway = .ok n)
    (hfits : ∀ b, Storage.load storage = .ok (some b) → (Snapshot.decode b).Fits)
    (hsaved : ∀ r ∈ (n.applyAll (deliveries.filterMap Delivery.entry?)).1, ∃ applied, r = .ok applied) :
    n.runDeliveries deliveries = .ok (n.applyAll (deliveries.filterMap Delivery.entry?)) := by
  unfold start at hstart
  split at hstart
  · next store hload =>
    cases hstart
    exact runDeliveries_of_steady deliveries (Applier.steady_load hload hfits) hsaved
  · cases hstart

/-- Three entries between four restarts, over memory: two saves, and a value with the delimiter in it. -/
theorem runDeliveries_set_refused_delete :
    ∃ n : Node Memory Recording,
      start (Memory.ofSnapshot (some (Utf8.encode "a=1\n"))) (Recording.empty true) = .ok n ∧
      n.runDeliveries [.restart, .entry (Command.encode (.set "b" "x=y")), .restart, .entry [0xC1],
        .restart, .entry (Command.encode (.delete "a")), .restart] =
        .ok (n.applyAll [Command.encode (.set "b" "x=y"), [0xC1], Command.encode (.delete "a")]) ∧
      (n.applyAll [Command.encode (.set "b" "x=y"), [0xC1], Command.encode (.delete "a")]).1 =
        [.ok true, .ok false, .ok true] ∧
      (n.applyAll [Command.encode (.set "b" "x=y"), [0xC1], Command.encode (.delete "a")]).2.storage =
        ⟨some (Utf8.encode "b=x=y\n"), 2, false⟩ := by
  have hstart : start (Memory.ofSnapshot (some (Utf8.encode "a=1\n"))) (Recording.empty true) =
      .ok ⟨⟨⟨Snapshot.decode (Utf8.encode "a=1\n"), .ofSnapshot (some (Utf8.encode "a=1\n"))⟩, .idle⟩,
        .empty true⟩ := rfl
  refine ⟨_, hstart, runDeliveries_eq_applyAll _ hstart ?_ ?_, rfl, rfl⟩
  · intro b hb
    cases hb
    decide
  · intro r hr
    have hresults : r ∈ [Except.ok true, Except.ok false, Except.ok true] := hr
    simp only [List.mem_cons, List.not_mem_nil, or_false] at hresults
    rcases hresults with rfl | rfl | rfl <;> exact ⟨_, rfl⟩

end Node
end Replica
