/-
# Entries that are delivered again

A client that proposes a command again after its deadline, or a sidecar that delivers the end of its
log twice, makes a node apply entries that it has applied already.  On the way the table passes through
states that it had left behind: a key that was set and then removed is back for a while.  At the end
the last change of each key has been made once more, and the table is what it was.  So is the
snapshot: a change that is saved again shows that something was saved the first time, and then both
snapshots are that of the table; otherwise nothing at all happens.

* `Table.changed_changed`: changes that are made again change nothing;
* `Table.saves_replay_eq_zero`: where nothing was saved, nothing is saved again;
* `Node.replay_keeps`: what holds after a replay, over any storage that keeps what it saves.
-/
import Replica.Proofs.Entries

namespace Replica

/-! ## 1. Changes made again -/

namespace Table

/-- **Changes that are made again change nothing.** -/
theorem changed_changed (t : Table) (cs : List Change) : (t.changed cs).changed cs = t.changed cs := by
  apply ext_get?
  intro k
  rw [get?_changed (t.changed cs), get?_changed t]
  -- The last change of the key decides both times; without one the key is never touched.
  cases lastOf k cs with
  | none => rfl
  | some c => rfl

theorem changed_append_changed (t : Table) (cs ds : List Change) :
    (t.changed (cs ++ ds)).changed ds = t.changed (cs ++ ds) := by
  rw [changed_append, changed_changed]

/-- Where none of some changes is saved, those at their end are not saved either when they come again. -/
theorem saves_replay_eq_zero {t : Table} {cs ds : List Change} (h : t.saves (cs ++ ds) = 0) :
    (t.changed (cs ++ ds)).saves ds = 0 := by
  rw [changed_of_saves_eq_zero h, saves_eq_zero_iff]
  intro c hc
  exact saves_eq_zero_iff.mp h c (List.mem_append_right cs hc)

end Table

/-! ## 2. Entries applied again -/

namespace Node

variable {σ γ : Type} [Storage σ]

theorem table_replay (past tail : List Bytes) (n : Node σ γ) :
    ((n.applyAll (past ++ tail)).2.applyAll tail).2.table = (n.applyAll (past ++ tail)).2.table := by
  rw [table_applyAll, table_applyAll, List.filterMap_append, Table.changed_append_changed]

/-- **A replay changes nothing.**  A node applies some entries, and those at their end once more, and no
save fails.  The second time they are answered as the first time, and they leave the table and the
snapshot, if there is one, as they were. -/
theorem replay_keeps [LawfulStorage σ] {n : Node σ γ} {past tail : List Bytes}
    (hfirst : n.Succeeds (past ++ tail)) (hagain : (n.applyAll (past ++ tail)).2.Succeeds tail) :
    ((n.applyAll (past ++ tail)).2.applyAll tail).1 = (n.applyAll (past ++ tail)).1.drop past.length ∧
    ((n.applyAll (past ++ tail)).2.applyAll tail).2.table = (n.applyAll (past ++ tail)).2.table ∧
    Storage.load ((n.applyAll (past ++ tail)).2.applyAll tail).2.storage =
      Storage.load (n.applyAll (past ++ tail)).2.storage := by
  refine ⟨?_, table_replay past tail n, ?_⟩
  · rw [results_applyAll hagain, results_applyAll hfirst, List.map_append,
      List.drop_left' (List.length_map _)]
  -- Either nothing is saved at all, or the storage holds the snapshot of the table both times.
  by_cases hsaves : n.table.saves ((past ++ tail).filterMap Change.ofEntry?) = 0
  · have hidle : (n.applyAll (past ++ tail)).2.table.saves (tail.filterMap Change.ofEntry?) = 0 := by
      rw [List.filterMap_append] at hsaves
      rw [table_applyAll, List.filterMap_append]
      exact Table.saves_replay_eq_zero hsaves
    rw [applyAll_of_idle hagain hidle]
  · have hmirrored := mirrored_applyAll hfirst hsaves
    calc Storage.load ((n.applyAll (past ++ tail)).2.applyAll tail).2.storage
        = .ok (some (Snapshot.encode ((n.applyAll (past ++ tail)).2.applyAll tail).2.table)) :=
          hmirrored.applyAll hagain
      _ = .ok (some (Snapshot.encode (n.applyAll (past ++ tail)).2.table)) := by rw [table_replay]
      _ = Storage.load (n.applyAll (past ++ tail)).2.storage := hmirrored.symm

/-- A node that starts from a snapshot with a line that is no record. -/
def unruly : Node Memory Recording :=
  ⟨⟨⟨Snapshot.decode (Utf8.encode "b=2\nnoise\na=1"),
    .ofSnapshot (some (Utf8.encode "b=2\nnoise\na=1"))⟩, .idle⟩, .empty true⟩

/-- A key is set and removed in the entries that come again, among them one that is no command. -/
theorem replay_keeps_set_and_removed :
    let past := [Command.encode (.set "k" "1"), Command.encode (.delete "b")]
    let tail := [Command.encode (.set "k" "2"), [0xC1], Command.encode (.delete "k")]
    unruly.Succeeds (past ++ tail) ∧ (unruly.applyAll (past ++ tail)).2.Succeeds tail ∧
      ((unruly.applyAll (past ++ tail)).2.applyAll tail).1 = [.ok true, .ok false, .ok true] ∧
      Storage.load ((unruly.applyAll (past ++ tail)).2.applyAll tail).2.storage =
        .ok (some (Utf8.encode "a=1\n")) := by
  intro past tail
  have hfirst := applyAll_memory (past ++ tail) (n := unruly) rfl
  have hagain := applyAll_memory tail hfirst.2.1
  obtain ⟨hresults, -, hload⟩ := replay_keeps hfirst.1 hagain.1
  exact ⟨hfirst.1, hagain.1, hresults.trans rfl, hload.trans rfl⟩

end Node
end Replica
