/-
# Table, snapshot and count of saves

A store over memory has three pieces of state: its table, the snapshot and the number of saves.  Saves
may start and stop failing at any point of a run, and then the three move apart: the table follows all
calls, also those that fail; the snapshot is the table as it stood at the last save, and the next save
carries over what failed before it.

* `Store.run`: a run of calls, with the answer to each;
* `Store.LastSave`: the snapshot is that of the table right after the last call that saved;
* `Store.table_snapshot_saves_run`: what holds after any run, over any starting snapshot.
-/
import Mathlib.Data.List.Induction
import Replica.Proofs.Change
import Replica.Proofs.LawfulStorage

namespace Replica.Store

/-! ## 1. Runs of calls -/

/-- A call on a store over memory, or an order to its memory. -/
inductive Call where
  | set (key value : String)
  | remove (key : String)
  /-- Saves fail from now on, or succeed again. -/
  | failWrites (failing : Bool)
  deriving DecidableEq, Repr

/-- The change that a call asks for. -/
def Call.change? : Call → Option Change
  | .set key value => some (.set key value)
  | .remove key => some (.remove key)
  | .failWrites _ => none

/-- What a call says about the saves after it. -/
def Call.failing? : Call → Option Bool
  | .failWrites failing => some failing
  | _ => none

/-- What a call gave. -/
inductive Answer where
  | set (result : Except Failure Unit)
  | remove (result : Except Failure Bool)
  | failWrites

namespace Answer

/-- The key got its value, or it was there and is gone. -/
def saved : Answer → Bool
  | .set (.ok ()) => true
  | .remove (.ok removed) => removed
  | _ => false

def failed : Answer → Bool
  | .set (.error _) => true
  | .remove (.error _) => true
  | _ => false

end Answer

def call (s : Store Memory) : Call → Answer × Store Memory
  | .set key value => (.set (s.set key value).1, (s.set key value).2)
  | .remove key => (.remove (s.remove key).1, (s.remove key).2)
  | .failWrites failing => (.failWrites, { s with storage := s.storage.failWrites failing })

/-- Calls one after the other, whatever their answers. -/
def run (s : Store Memory) : List Call → List Answer × Store Memory
  | [] => ([], s)
  | x :: calls => ((s.call x).1 :: ((s.call x).2.run calls).1, ((s.call x).2.run calls).2)

theorem run_append (s : Store Memory) (xs ys : List Call) :
    s.run (xs ++ ys) = ((s.run xs).1 ++ ((s.run xs).2.run ys).1, ((s.run xs).2.run ys).2) := by
  induction xs generalizing s with
  | nil => rfl
  | cons x xs ih => rw [List.cons_append, run, ih, run]; rfl

theorem run_concat (s : Store Memory) (xs : List Call) (x : Call) :
    s.run (xs ++ [x]) = ((s.run xs).1 ++ [((s.run xs).2.call x).1], ((s.run xs).2.call x).2) :=
  run_append s xs [x]

/-! ## 2. What one call does -/

/-- A table is saved unless saves fail, and it is the store's table either way. -/
theorem replace_cases (table : Table) (s : Store Memory) :
    (s.storage.failing = false ∧ s.replace table =
      (.ok (), ⟨table, ⟨some (Snapshot.encode table), s.storage.saves + 1, false⟩⟩)) ∨
    (s.storage.failing = true ∧
      s.replace table = (.error (.persistence "injected write failure"), ⟨table, s.storage⟩)) := by
  obtain ⟨t, snapshot, saves, failing⟩ := s
  cases failing with
  | false => exact .inl ⟨rfl, rfl⟩
  | true => exact .inr ⟨rfl, rfl⟩

theorem remove_of_absent {s : Store Memory} {key : String} (h : s.contains key = false) :
    s.remove key = (.ok false, s) := by
  have habsent : s.table.contains key = false := h
  simp [remove, habsent]

/-- **What a call does.**  It orders the memory, removes an absent key, saves, or fails to. -/
theorem call_cases (s : Store Memory) (x : Call) :
    (∃ failing, x = .failWrites failing ∧
      s.call x = (.failWrites, { s with storage := s.storage.failWrites failing })) ∨
    (∃ key, x = .remove key ∧ s.contains key = false ∧ s.call x = (.remove (.ok false), s)) ∨
    (∃ c, x.change? = some c ∧ s.storage.failing = false ∧ (s.call x).1.saved = true ∧
      (s.call x).1.failed = false ∧ (s.call x).2 =
        ⟨c.apply s.table, ⟨some (Snapshot.encode (c.apply s.table)), s.storage.saves + 1, false⟩⟩) ∨
    (∃ c, x.change? = some c ∧ s.storage.failing = true ∧ (s.call x).1.saved = false ∧
      (s.call x).1.failed = true ∧ (s.call x).2 = ⟨c.apply s.table, s.storage⟩) := by
  cases x with
  | failWrites failing => exact .inl ⟨failing, rfl, rfl⟩
  | set key value =>
    right; right
    rcases replace_cases (s.table.insert key value) s with ⟨hf, hr⟩ | ⟨hf, hr⟩
    · refine .inl ⟨.set key value, rfl, hf, ?_⟩
      simp only [call, set, hr]
      exact ⟨rfl, rfl, rfl⟩
    · refine .inr ⟨.set key value, rfl, hf, ?_⟩
      simp only [call, set, hr]
      exact ⟨rfl, rfl, rfl⟩
  | remove key =>
    right
    cases hc : s.contains key with
    | false => exact .inl ⟨key, rfl, hc, by rw [call, remove_of_absent hc]⟩
    | true =>
      right
      have hpresent : s.table.contains key = true := hc
      rcases replace_cases (s.table.erase key) s with ⟨hf, hr⟩ | ⟨hf, hr⟩
      · refine .inl ⟨.remove key, rfl, hf, ?_⟩
        simp only [call, remove, hpresent, hr]
        exact ⟨rfl, rfl, rfl⟩
      · refine .inr ⟨.remove key, rfl, hf, ?_⟩
        simp only [call, remove, hpresent, hr]
        exact ⟨rfl, rfl, rfl⟩

theorem table_call (s : Store Memory) (x : Call) :
    (s.call x).2.table = s.table.changed x.change?.toList := by
  rcases call_cases s x with
    ⟨failing, rfl, hcall⟩ | ⟨key, rfl, habsent, hcall⟩ | ⟨c, hc, -, -, -, hs⟩ | ⟨c, hc, -, -, -, hs⟩
  · rw [hcall]; rfl
  · have hidle : Change.isIdle s.table (.remove key) = true := by
      have habsent' : s.table.contains key = false := habsent
      simp [Change.isIdle, habsent']
    rw [hcall]
    exact (Change.apply_of_isIdle hidle).symm
  · rw [hs, hc]; rfl
  · rw [hs, hc]; rfl

theorem failing_call (s : Store Memory) (x : Call) :
    (s.call x).2.storage.failing = x.failing?.getD s.storage.failing := by
  rcases call_cases s x with
    ⟨failing, rfl, hcall⟩ | ⟨key, rfl, -, hcall⟩ | ⟨c, hc, hf, -, -, hs⟩ | ⟨c, hc, hf, -, -, hs⟩
  · rw [hcall]; rfl
  · rw [hcall]; rfl
  · rw [hs, hf]
    cases x with
    | failWrites failing => cases hc
    | set | remove => rfl
  · rw [hs]
    cases x with
    | failWrites failing => cases hc
    | set | remove => rfl

/-- A call that saves puts the table into the snapshot, and is counted. -/
theorem call_of_saved {s : Store Memory} {x : Call} (h : (s.call x).1.saved = true) :
    (s.call x).2.storage.snapshot = some (Snapshot.encode (s.call x).2.table) ∧
      (s.call x).2.storage.saves = s.storage.saves + 1 := by
  rcases call_cases s x with
    ⟨_, rfl, hcall⟩ | ⟨_, rfl, -, hcall⟩ | ⟨c, -, -, -, -, hs⟩ | ⟨_, -, -, hn, -⟩
  · rw [hcall] at h; cases h
  · rw [hcall] at h; cases h
  · rw [hs]; exact ⟨rfl, rfl⟩
  · rw [hn] at h; cases h

/-- A call that does not save leaves snapshot and count as they are. -/
theorem call_of_not_saved {s : Store Memory} {x : Call} (h : (s.call x).1.saved = false) :
    (s.call x).2.storage.snapshot = s.storage.snapshot ∧
      (s.call x).2.storage.saves = s.storage.saves := by
  rcases call_cases s x with
    ⟨_, rfl, hcall⟩ | ⟨_, rfl, -, hcall⟩ | ⟨_, -, -, hn, -⟩ | ⟨c, -, -, -, -, hs⟩
  · rw [hcall]; exact ⟨rfl, rfl⟩
  · rw [hcall]; exact ⟨rfl, rfl⟩
  · rw [hn] at h; cases h
  · rw [hs]; exact ⟨rfl, rfl⟩

/-- A call that fails leaves the whole memory as it is. -/
theorem storage_call_of_failed {s : Store Memory} {x : Call} (h : (s.call x).1.failed = true) :
    (s.call x).2.storage = s.storage := by
  rcases call_cases s x with
    ⟨_, rfl, hcall⟩ | ⟨_, rfl, -, hcall⟩ | ⟨_, -, -, -, hn, -⟩ | ⟨c, -, -, -, -, hs⟩
  · rw [hcall] at h; cases h
  · rw [hcall] at h; cases h
  · rw [hn] at h; cases h
  · rw [hs]

/-! ## 3. What holds after a run -/

/-- Whether saves fail after some calls: the last order to the memory decides. -/
def refusing (calls : List Call) : Bool := (calls.filterMap Call.failing?).getLast?.getD false

/-- The snapshot after some calls is that of the table right after the last call that saved; without
such a call it is the one from the start. -/
def LastSave (s : Store Memory) (calls : List Call) (snapshot : Option Bytes) : Prop :=
  ((∀ a ∈ (s.run calls).1, a.saved = false) ∧ snapshot = s.storage.snapshot) ∨
  ∃ before x after, calls = before ++ x :: after ∧
    ((s.run before).2.call x).1.saved = true ∧
    (∀ a ∈ ((s.run (before ++ [x])).2.run after).1, a.saved = false) ∧
    snapshot = some (Snapshot.encode (s.run (before ++ [x])).2.table)

/-- The table follows every call, also those that fail. -/
theorem table_run (s : Store Memory) (calls : List Call) :
    (s.run calls).2.table = s.table.changed (calls.filterMap Call.change?) := by
  induction calls generalizing s with
  | nil => rfl
  | cons x calls ih => rw [run, ih, table_call, Table.changed_filterMap_cons]

theorem failing_run (s : Store Memory) (calls : List Call) :
    (s.run calls).2.storage.failing =
      (calls.filterMap Call.failing?).getLast?.getD s.storage.failing := by
  induction calls using List.reverseRecOn with
  | nil => rfl
  | append_singleton calls x ih =>
    rw [run_concat, failing_call, ih, List.filterMap_append]
    cases hx : x.failing? with
    | none => rw [List.filterMap_cons_none hx]; simp
    | some failing => rw [List.filterMap_cons_some hx]; simp

theorem saves_run (s : Store Memory) (calls : List Call) :
    (s.run calls).2.storage.saves = s.storage.saves + (s.run calls).1.countP Answer.saved := by
  induction calls using List.reverseRecOn with
  | nil => rfl
  | append_singleton calls x ih =>
    rw [run_concat, List.countP_append]
    cases hsaved : ((s.run calls).2.call x).1.saved with
    | true => rw [(call_of_saved hsaved).2, ih]; simp [hsaved]; omega
    | false => rw [(call_of_not_saved hsaved).2, ih]; simp [hsaved]

theorem lastSave_run (s : Store Memory) (calls : List Call) :
    s.LastSave calls (s.run calls).2.storage.snapshot := by
  induction calls using List.reverseRecOn with
  | nil => exact .inl ⟨by simp [run], rfl⟩
  | append_singleton calls x ih =>
    cases hsaved : ((s.run calls).2.call x).1.saved with
    | true =>
      refine .inr ⟨calls, x, [], rfl, hsaved, by simp [run], ?_⟩
      rw [run_concat]
      exact (call_of_saved hsaved).1
    | false =>
      have hsame := (call_of_not_saved hsaved).1
      rcases ih with ⟨hnone, hstart⟩ | ⟨before, y, after, rfl, hy, hnone, hsnapshot⟩
      · refine .inl ⟨?_, ?_⟩
        · intro a ha
          rw [run_concat] at ha
          rcases List.mem_append.mp ha with ha | ha
          · exact hnone a ha
          · rw [List.mem_singleton.mp ha, hsaved]
        · rw [run_concat, hsame, hstart]
      · -- The last call that saved is still the one further back.
        refine .inr ⟨before, y, after ++ [x], by simp, hy, ?_, ?_⟩
        · intro a ha
          rw [run_concat] at ha
          rcases List.mem_append.mp ha with ha | ha
          · exact hnone a ha
          · have hrun : s.run (before ++ y :: after) =
                ((s.run (before ++ [y])).1 ++ ((s.run (before ++ [y])).2.run after).1,
                  ((s.run (before ++ [y])).2.run after).2) := by
              rw [← run_append, List.append_assoc]
              rfl
            rw [hrun] at hsaved
            rw [List.mem_singleton.mp ha, hsaved]
        · rw [run_concat, hsame, hsnapshot]

theorem set_error_iff (s : Store Memory) (key value : String) :
    (∃ f, (s.set key value).1 = .error f) ↔ s.storage.failing = true := by
  rcases replace_cases (s.table.insert key value) s with ⟨hf, hr⟩ | ⟨hf, hr⟩
  · simp [set, hr, hf]
  · simp [set, hr, hf]

theorem remove_error_iff (s : Store Memory) (key : String) :
    (∃ f, (s.remove key).1 = .error f) ↔ s.storage.failing = true ∧ s.contains key = true := by
  cases hc : s.contains key with
  | false => simp [remove_of_absent hc]
  | true =>
    have hpresent : s.table.contains key = true := hc
    rcases replace_cases (s.table.erase key) s with ⟨hf, hr⟩ | ⟨hf, hr⟩
    · simp [remove, hpresent, hr, hf]
    · simp [remove, hpresent, hr, hf]

/-- **Table, snapshot and count of saves after any run.**  Over any snapshot or none, a store can be
built, and after any calls on it: the table has all their changes; the snapshot is that of the last
save; the saves are counted; setting a key fails exactly while saves fail, removing it also needs the
key to be there; and a call that fails leaves the memory as it is. -/
theorem table_snapshot_saves_run (snapshot : Option Bytes) :
    ∃ start, load (Memory.ofSnapshot snapshot) = .ok start ∧
      ∀ calls, ∃ answers s, start.run calls = (answers, s) ∧
        s.table = (Memory.ofSnapshot snapshot).table.changed (calls.filterMap Call.change?) ∧
        start.LastSave calls s.storage.snapshot ∧
        s.storage.saves = answers.countP Answer.saved ∧
        (∀ key value, (∃ f, (s.set key value).1 = .error f) ↔ refusing calls = true) ∧
        (∀ key, (∃ f, (s.remove key).1 = .error f) ↔
          refusing calls = true ∧ s.contains key = true) ∧
        ∀ x, (s.call x).1.failed = true → (s.call x).2.storage = s.storage := by
  refine ⟨_, Memory.load_eq _, ?_⟩
  intro calls
  have hfailing := failing_run ⟨(Memory.ofSnapshot snapshot).table, .ofSnapshot snapshot⟩ calls
  refine ⟨_, _, rfl, table_run _ calls, lastSave_run _ calls, ?_, ?_, ?_, ?_⟩
  · rw [saves_run]
    exact Nat.zero_add _
  · intro key value
    rw [set_error_iff, hfailing]
    rfl
  · intro key
    rw [remove_error_iff, hfailing]
    rfl
  · intro x
    exact storage_call_of_failed

/-- The save of one change carries over another that failed before it, and the change that fails after
it shows in the table only. -/
theorem table_snapshot_saves_run_carried :
    let saved := some (Utf8.encode "a=1\nb=2\nc=3\n")
    let calls : List Call := [.failWrites true, .set "b" "2", .failWrites false, .set "c" "3",
      .failWrites true, .remove "a"]
    ∃ start, load (Memory.ofSnapshot (some (Utf8.encode "a=1\n"))) = .ok start ∧
      start.entries = [("a", "1")] ∧ ∃ answers s, start.run calls = (answers, s) ∧
        answers.map Answer.saved = [false, false, false, true, false, false] ∧
        s.entries = [("b", "2"), ("c", "3")] ∧ start.LastSave calls saved ∧
        s.storage = ⟨saved, 1, true⟩ ∧
        (∃ f, (s.set "a" "4").1 = .error f) ∧ (∃ f, (s.remove "b").1 = .error f) ∧
        ¬ ∃ f, (s.remove "a").1 = .error f := by
  intro saved calls
  obtain ⟨start, hload, hruns⟩ := table_snapshot_saves_run (some (Utf8.encode "a=1\n"))
  obtain ⟨answers, s, hrun, htable, hlast, -, hset, hremove, -⟩ := hruns calls
  have hentries : s.entries = [("b", "2"), ("c", "3")] := by
    rw [entries, htable]
    decide
  have hrefusing : refusing calls = true := rfl
  have hpresent : s.contains "b" = true := by
    rw [contains, htable]
    decide
  have habsent : ¬ s.contains "a" = true := by
    rw [contains, htable]
    decide
  -- What the calls answer and what the memory holds is computed, from the store that the snapshot gives.
  have hstart : start = ⟨(Memory.ofSnapshot (some (Utf8.encode "a=1\n"))).table, .ofSnapshot _⟩ :=
    (Except.ok.inj hload).symm
  have hanswers : answers.map Answer.saved = [false, false, false, true, false, false] := by
    have hfst : (start.run calls).1 = answers := congrArg Prod.fst hrun
    rw [← hfst, hstart]
    decide
  have hstorage : s.storage = ⟨saved, 1, true⟩ := by
    have hsnd : (start.run calls).2 = s := congrArg Prod.snd hrun
    rw [← hsnd, hstart]
    decide
  refine ⟨start, hload, ?_, answers, s, hrun, hanswers, hentries, ?_, hstorage, ?_, ?_, ?_⟩
  · rw [hstart]
    decide
  · rw [hstorage] at hlast
    exact hlast
  · exact (hset "a" "4").mpr hrefusing
  · exact (hremove "b").mpr ⟨hrefusing, hpresent⟩
  · exact fun h => habsent ((hremove "a").mp h).2

end Replica.Store
