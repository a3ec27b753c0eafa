/-
# Snapshots do not depend on history

A store may be built from any snapshot, in any order of its lines and with keys that come again, and
then be changed and built anew any number of times.  Its entries still stand in one order, each key
once, so what a store answers to lookups settles the list of its entries and with it the bytes of its
next snapshot.  Replicas that agree on every key can be compared byte by byte.

The order is that of the characters of the keys.  It is also the order of their bytes: the first byte
of a character tells how many follow, longer sequences begin with larger bytes, and sequences of one
length spell their numbers with the most significant digit first.

* `Utf8.encode_lt_encode`: a smaller text has smaller bytes;
* `Store.Step`, `Store.history`: what is done to a store that was built from a storage;
* `Store.load_of_history`: a run that ends with a save leaves the snapshot of its table;
* `Store.snapshot_of_history`: what two runs have in common that end with the same answers to lookups.
-/
import Mathlib.Tactic.SplitIfs
import Replica.Proofs.Change
import Replica.Proofs.LawfulStorage

namespace Replica

/-! ## 1. The order of texts and of their bytes -/

namespace Utf8

theorem ofNat_cons_lt_cons {m n : Nat} (hm : m < 256) (hn : n < 256) {a b : Bytes} :
    UInt8.ofNat m :: a < UInt8.ofNat n :: b ↔ m < n ∨ m = n ∧ a < b := by
  rw [List.cons_lt_cons_iff, UInt8.lt_iff_toNat_lt, ← UInt8.toNat_inj, byte_toNat hm, byte_toNat hn]

/-- A smaller character decides the order of the bytes, whatever follows it. -/
theorem encodeChar_append_lt {c d : Char} (h : c < d) (a b : Bytes) :
    encodeChar c ++ a < encodeChar d ++ b := by
  have hlt : c.toNat < d.toNat := h
  have hd : d.toNat < 0xD800 ∨ (0xDFFF < d.toNat ∧ d.toNat < 0x110000) := d.valid
  unfold encodeChar
  generalize c.toNat = m at hlt
  generalize d.toNat = n at hlt hd
  simp only
  -- One case for each pair of lengths; in each the first digits that differ decide.
  split_ifs <;>
    simp (disch := omega) only [List.cons_append, List.nil_append, ofNat_cons_lt_cons] <;> omega

theorem encodeChar_ne_nil (c : Char) : encodeChar c ≠ [] := by
  unfold encodeChar
  simp only
  split_ifs <;> exact List.cons_ne_nil _ _

theorem flatMap_encodeChar_lt {a b : List Char} (h : a < b) :
    a.flatMap encodeChar < b.flatMap encodeChar := by
  induction h with
  | nil =>
    rename_i c cs
    obtain ⟨x, xs, hx⟩ := List.exists_cons_of_ne_nil (encodeChar_ne_nil c)
    rw [List.flatMap_nil, List.flatMap_cons, hx, List.cons_append]
    exact .nil
  | cons _ ih =>
    rw [List.flatMap_cons, List.flatMap_cons]
    exact List.append_left_lt ih
  | rel hlt =>
    rw [List.flatMap_cons, List.flatMap_cons]
    exact encodeChar_append_lt hlt _ _

/-- **A smaller text has smaller bytes.** -/
theorem encode_lt_encode {a b : String} (h : a < b) : encode a < encode b :=
  flatMap_encodeChar_lt (String.lt_iff.mp h)

end Utf8

/-! ## 2. What a table lists -/

namespace Table

theorem pairwise_encode (t : Table) : (t.toList.map fun e => Utf8.encode e.1).Pairwise (· < ·) :=
  List.pairwise_map.mpr (t.ascending.imp Utf8.encode_lt_encode)

theorem nodup_keys (t : Table) : (t.toList.map Prod.fst).Nodup :=
  List.pairwise_map.mpr (t.ascending.imp String.ne_of_lt)

theorem get?_eq_some_iff {t : Table} {k v : String} : t.get? k = some v ↔ (k, v) ∈ t.toList :=
  valueOf_eq_some_iff t.ascending

theorem contains_iff {t : Table} {k : String} : t.contains k = true ↔ k ∈ t.toList.map Prod.fst := by
  rw [contains, Option.isSome_iff_exists, List.mem_map]
  constructor
  · rintro ⟨v, hv⟩
    exact ⟨(k, v), get?_eq_some_iff.mp hv, rfl⟩
  · rintro ⟨⟨_, v⟩, hmem, rfl⟩
    exact ⟨v, get?_eq_some_iff.mpr hmem⟩

end Table

/-! ## 3. Runs of changes and reloads -/

namespace Store

/-- What is done to a store: it makes a change, or it is dropped and built anew. -/
inductive Step where
  | change (c : Change)
  | reload
  deriving DecidableEq, Repr

variable {σ τ : Type} [Storage σ] [Storage τ]

/-- Does a step; the answer is whether the table was saved.  A store that cannot be built anew stays. -/
def step (s : Store σ) : Step → Except Failure Bool × Store σ
  | .change c => c.run s
  | .reload =>
    match load s.storage with
    | .ok s => (.ok false, s)
    | .error f => (.error f, s)

/-- Does steps one after the other, also after one that failed. -/
def steps (s : Store σ) : List Step → List (Except Failure Bool) × Store σ
  | [] => ([], s)
  | x :: xs => ((s.step x).1 :: ((s.step x).2.steps xs).1, ((s.step x).2.steps xs).2)

/-- The same, to the store that is built from a storage. -/
def history (storage : σ) (xs : List Step) :
    Except Failure (List (Except Failure Bool) × Store σ) :=
  match load storage with
  | .ok s => .ok (s.steps xs)
  | .error f => .error f

theorem history_of_load {p : σ} {s : Store σ} (h : load p = .ok s) (xs : List Step) :
    history p xs = .ok ((s.steps xs).1, (s.steps xs).2) := by
  rw [history, h]

/-- A step that saves leaves the snapshot of the table. -/
theorem load_of_step [LawfulStorage σ] {s : Store σ} {x : Step} (h : (s.step x).1 = .ok true) :
    Storage.load (s.step x).2.storage = .ok (some (Snapshot.encode (s.step x).2.table)) := by
  cases x with
  | reload =>
    simp only [step] at h
    split at h <;> cases h
  | change c =>
    have hrun : c.run s = (.ok true, (c.run s).2) := Prod.ext h rfl
    rcases Change.run_cases hrun with ⟨-, hr, -⟩ | ⟨-, -, htable, hsave⟩ | ⟨-, f, hr, -⟩
    · cases hr
    · rw [← htable] at hsave
      exact LawfulStorage.load_save hsave
    · cases hr

/-- **So does a run that ends with a save**, whatever failed before. -/
theorem load_of_steps [LawfulStorage σ] {xs : List Step} {s : Store σ}
    (h : (s.steps xs).1.getLast? = some (.ok true)) :
    Storage.load (s.steps xs).2.storage = .ok (some (Snapshot.encode (s.steps xs).2.table)) := by
  induction xs generalizing s with
  | nil => cases h
  | cons x xs ih =>
    cases xs with
    | nil => exact load_of_step (Option.some.inj h)
    | cons y ys =>
      -- Another step follows, so the last answer is one of the rest.
      exact ih h

theorem load_of_history [LawfulStorage σ] {p : σ} {xs : List Step} {s : Store σ}
    {answers : List (Except Failure Bool)} (h : history p xs = .ok (answers, s))
    (hsaved : answers.getLast? = some (.ok true)) :
    Storage.load s.storage = .ok (some (Snapshot.encode s.table)) := by
  unfold history at h
  split at h
  · next start _ =>
    have hsteps : start.steps xs = (answers, s) := Except.ok.inj h
    have hlast : (start.steps xs).1.getLast? = some (.ok true) := by rw [hsteps]; exact hsaved
    have hload := load_of_steps hlast
    rwa [hsteps] at hload
  · cases h

/-- **Snapshots do not depend on history.**  Two stores are built from what any two storages hold, and
changes and reloads are run on each, also when some of them fail.  If both runs end with a save and then
every key is answered alike, both storages hold the same bytes.  At the end of any run the entries stand
in strictly ascending order of the bytes of their keys, so each key is there once; lookups answer what the
entries say, and the size is their number. -/
theorem snapshot_of_history [LawfulStorage σ] [LawfulStorage τ] {p : σ} {q : τ} {xs ys : List Step}
    {s : Store σ} {t : Store τ} {answers answers' : List (Except Failure Bool)}
    (hs : history p xs = .ok (answers, s)) (ht : history q ys = .ok (answers', t)) :
    (answers.getLast? = some (.ok true) → answers'.getLast? = some (.ok true) →
      (∀ k, s.get? k = t.get? k) →
      ∃ b, Storage.load s.storage = .ok (some b) ∧ Storage.load t.storage = .ok (some b)) ∧
    (s.entries.map fun e => Utf8.encode e.1).Pairwise (· < ·) ∧
    (s.entries.map Prod.fst).Nodup ∧
    (∀ k v, s.get? k = some v ↔ (k, v) ∈ s.entries) ∧
    (∀ k, s.contains k = true ↔ k ∈ s.entries.map Prod.fst) ∧
    s.size = s.entries.length := by
  refine ⟨?_, s.table.pairwise_encode, s.table.nodup_keys, ?_, ?_, rfl⟩
  · intro hsaved hsaved' hagree
    have htable : s.table = t.table := Table.ext_get? hagree
    refine ⟨Snapshot.encode s.table, load_of_history hs hsaved, ?_⟩
    rw [htable]
    exact load_of_history ht hsaved'
  · intro k v
    exact Table.get?_eq_some_iff
  · intro k
    exact Table.contains_iff

/-- Over memory from an unsorted snapshot in which a key comes twice, and over a state file from none: the
keys end up in the order of their bytes, in which an umlaut comes after `z`. -/
theorem snapshot_of_history_unsorted :
    let xs : List Step := [.change (.set "ü" "1"), .change (.set "c" "x"), .reload, .change (.remove "c")]
    let ys : List Step := [.change (.set "ü" "0"), .change (.set "z" "3"), .reload, .change (.set "ü" "1")]
    let p := Memory.ofSnapshot (some (Utf8.encode "z=2\nnoise\nz=3\n"))
    let q : FileStorage := ⟨⟨"kv.db", true⟩, .empty⟩
    ∃ s t, history p xs = .ok ([.ok true, .ok true, .ok false, .ok true], s) ∧
      history q ys = .ok ([.ok true, .ok true, .ok false, .ok true], t) ∧
      s.entries = [("z", "3"), ("ü", "1")] ∧
      ∃ b, Storage.load s.storage = .ok (some b) ∧ Storage.load t.storage = .ok (some b) := by
  intro xs ys p q
  let s : Store Memory := ⟨Snapshot.decode (Utf8.encode "z=2\nnoise\nz=3\n"), p⟩
  let t : Store FileStorage := ⟨.empty, q⟩
  have hs : (s.steps xs).1 = [.ok true, .ok true, .ok false, .ok true] := by decide +kernel
  have ht : (t.steps ys).1 = [.ok true, .ok true, .ok false, .ok true] := by decide +kernel
  have hrun := history_of_load (p := p) (s := s) rfl xs
  have hnone : Storage.load q = .ok none := by decide +kernel
  have hrun' := history_of_load (p := q) (s := t) (by rw [load, hnone]) ys
  rw [hs] at hrun
  rw [ht] at hrun'
  have hentries : (s.steps xs).2.entries = [("z", "3"), ("ü", "1")] := by decide +kernel
  have hentries' : (t.steps ys).2.entries = [("z", "3"), ("ü", "1")] := by decide +kernel
  have hagree (k : String) : (s.steps xs).2.get? k = (t.steps ys).2.get? k :=
    congrArg (Table.valueOf k) (hentries.trans hentries'.symm)
  have hsame := (snapshot_of_history hrun hrun').1 rfl rfl hagree
  exact ⟨(s.steps xs).2, (t.steps ys).2, hrun, hrun', hentries, hsame⟩

end Store
end Replica
