/-
# Storages that keep what they save

All that a store asks of its storage is one law: what a successful save was given is what the next
load gives.  Memory keeps it by its definition, and a state file by `StateFile.load_save`.

* `LawfulStorage`: the law;
* `Store.load_of_saved`: a table that fits, once saved, is what a new store starts from.
-/
import Replica.Proofs.RoundTrip
import Replica.Proofs.Saving

namespace Replica

/-- A storage that gives back what it saved last. -/
class LawfulStorage (σ : Type) [Storage σ] : Prop where
  load_save : ∀ {b : Bytes} {s s' : σ}, Storage.save b s = (.ok (), s') → Storage.load s' = .ok (some b)

/-! ## 1. Memory -/

namespace Memory

/-- The table that a memory holds. -/
def table (m : Memory) : Table :=
  match m.snapshot with
  | some b => Snapshot.decode b
  | none => .empty

/-- A store over memory can always be rebuilt. -/
theorem load_eq (m : Memory) : Store.load m = .ok ⟨m.table, m⟩ := by
  obtain ⟨snapshot, saves, failing⟩ := m
  cases snapshot <;> rfl

/-- A save that succeeds replaces the snapshot and is counted. -/
theorem of_save_ok {b : Bytes} {m m' : Memory} (h : Storage.save b m = (.ok (), m')) :
    m.failing = false ∧ m' = ⟨some b, m.saves + 1, false⟩ := by
  obtain ⟨snapshot, saves, failing⟩ := m
  cases failing with
  | true => cases h
  | false => cases h; exact ⟨rfl, rfl⟩

/-- A save that fails leaves the memory as it is. -/
theorem of_save_error {b : Bytes} {m m' : Memory} {f : Failure}
    (h : Storage.save b m = (.error f, m')) : m.failing = true ∧ m' = m := by
  obtain ⟨snapshot, saves, failing⟩ := m
  cases failing with
  | true => cases h; exact ⟨rfl, rfl⟩
  | false => cases h

end Memory

instance : LawfulStorage Memory where
  load_save h := by rw [(Memory.of_save_ok h).2]; rfl

/-! ## 2. A state file -/

instance : LawfulStorage FileStorage where
  load_save {b s s'} h := by
    obtain ⟨hresult, hstorage⟩ := Prod.mk.inj h
    have hsave : s.file.save b s.disk = (.ok (), (s.file.save b s.disk).2) := Prod.ext hresult rfl
    rw [← hstorage]
    exact StateFile.load_save hsave

/-! ## 3. The table that was saved -/

theorem Store.load_of_snapshot {σ : Type} [Storage σ] {storage : σ} {b : Bytes}
    (h : Storage.load storage = .ok (some b)) :
    Store.load storage = .ok ⟨Snapshot.decode b, storage⟩ := by
  unfold Store.load
  rw [h]

/-- **A table that fits, once saved, is what a store starts from.** -/
theorem Store.load_of_saved {σ : Type} [Storage σ] [LawfulStorage σ] {t : Table} {s s' : σ}
    (hfits : t.Fits) (h : Storage.save (Snapshot.encode t) s = (.ok (), s')) :
    Store.load s' = .ok ⟨t, s'⟩ := by
  rw [load_of_snapshot (LawfulStorage.load_save h), Snapshot.decode_encode_of_fits hfits]

end Replica
