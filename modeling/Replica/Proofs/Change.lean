/-
# Changes of one key

Whatever reaches a table comes down to changes of one key: the key gets a value, or it is taken away.
A store makes a change by saving the changed table anew, except that it takes away an absent key
without a save.  This module says once what a store and an applier can do with a change; what holds
over whole runs follows from it.

* `Change.run_cases`: a store leaves an idle change out, or makes it and tries to save it;
* `Applier.applyEntry_cases`: an entry that asks for no admissible change does nothing at all, any
  other is run as its change;
* `Table.get?_changed`: after many changes, the last one of a key decides what the key holds.
-/
import Replica.Machine
import Replica.Proofs.RoundTrip

namespace Replica

/-! ## 1. What a change does to a table -/

/-- A change of one key. -/
inductive Change where
  | set (key value : String)
  | remove (key : String)
  deriving DecidableEq, Repr

namespace Change

def key : Change → String
  | .set key _ => key
  | .remove key => key

@[simp] theorem key_set (key value : String) : (set key value).key = key := rfl

@[simp] theorem key_remove (key : String) : (remove key).key = key := rfl

/-- What the key holds afterwards. -/
def value? : Change → Option String
  | .set _ value => some value
  | .remove _ => none

/-- Makes a change in a table. -/
def apply (t : Table) : Change → Table
  | .set key value => t.insert key value
  | .remove key => t.erase key

/-- Whether a change is left out: it takes away a key that is not there. -/
def isIdle (t : Table) : Change → Bool
  | .set _ _ => false
  | .remove key => !t.contains key

theorem get?_apply (t : Table) (c : Change) (k : String) :
    (c.apply t).get? k = if c.key = k then c.value? else t.get? k := by
  cases c with
  | set key value => exact Table.get?_insert t key value k
  | remove key => exact Table.get?_erase t key k

/-- A change that is left out would have changed nothing. -/
theorem apply_of_isIdle {t : Table} {c : Change} (h : c.isIdle t = true) : c.apply t = t := by
  cases c with
  | set key value => exact Bool.noConfusion h
  | remove key =>
    have habsent : t.get? key = none := by simpa [isIdle, Table.contains] using h
    apply Table.ext_get?
    intro k
    rw [get?_apply]
    by_cases hk : key = k
    · simp [Change.key, value?, ← hk, habsent]
    · simp [Change.key, hk]

/-- Only its removal takes a key away. -/
theorem eq_remove_of_contains {t : Table} {c : Change} {key : String}
    (h : t.contains key = true) (h' : (c.apply t).contains key = false) : c = .remove key := by
  unfold Table.contains at h h'
  rw [get?_apply] at h'
  by_cases hk : c.key = key
  · rw [if_pos hk] at h'
    cases c with
    | set k value => cases h'
    | remove k => exact congrArg remove hk
  · rw [if_neg hk, h] at h'
    cases h'

/-- A change that keeps a table readable from its snapshot. -/
def Fits : Change → Prop
  | .set key value => Record.Fits (key, value)
  | .remove _ => True

theorem Fits.apply {t : Table} {c : Change} (hc : c.Fits) (ht : t.Fits) : (c.apply t).Fits := by
  cases c with
  | set key value => exact ht.insert hc
  | remove key => exact ht.erase key

end Change

namespace Table

/-- The table after some changes. -/
def changed (t : Table) (cs : List Change) : Table := cs.foldl Change.apply t

@[simp] theorem changed_nil (t : Table) : t.changed [] = t := rfl

@[simp] theorem changed_cons (t : Table) (c : Change) (cs : List Change) :
    t.changed (c :: cs) = (c.apply t).changed cs := rfl

theorem changed_append (t : Table) (cs ds : List Change) :
    t.changed (cs ++ ds) = (t.changed cs).changed ds :=
  List.foldl_append

/-- Changes that are read off a list, taken off its front. -/
theorem changed_filterMap_cons {α : Type} (t : Table) (f : α → Option Change) (x : α) (xs : List α) :
    t.changed ((x :: xs).filterMap f) = (t.changed (f x).toList).changed (xs.filterMap f) := by
  cases h : f x with
  | none => rw [List.filterMap_cons_none h]; rfl
  | some c => rw [List.filterMap_cons_some h]; rfl

/-- The last of some changes that is a change of a key. -/
def lastOf (key : String) (cs : List Change) : Option Change :=
  (cs.filter fun c => c.key = key).getLast?

theorem lastOf_cons (key : String) (c : Change) (cs : List Change) :
    lastOf key (c :: cs) =
      if c.key = key then some ((lastOf key cs).getD c) else lastOf key cs := by
  by_cases h : c.key = key <;> simp [lastOf, h, List.getLast?_cons]

theorem lastOf_eq_some {key : String} {cs : List Change} {c : Change} (h : lastOf key cs = some c) :
    c ∈ cs ∧ c.key = key := by
  have hmem := List.mem_of_getLast? h
  simpa using hmem

/-- **The last change of a key decides what it holds.** -/
theorem get?_changed (t : Table) (cs : List Change) (k : String) :
    (t.changed cs).get? k = ((lastOf k cs).map Change.value?).getD (t.get? k) := by
  induction cs generalizing t with
  | nil => rfl
  | cons c cs ih =>
    rw [changed_cons, ih, Change.get?_apply, lastOf_cons]
    by_cases hk : c.key = k
    · cases lastOf k cs <;> simp [hk]
    · simp [hk]

end Table

/-! ## 2. What a store does with a change -/

variable {σ : Type} [Storage σ]

namespace Change

/-- Makes a change in a store; the answer is whether it was saved, which any value given to a key is
where it does not fail. -/
def run (s : Store σ) : Change → Except Failure Bool × Store σ
  | .set key value =>
    match s.set key value with
    | (.ok (), s) => (.ok true, s)
    | (.error f, s) => (.error f, s)
  | .remove key => s.remove key

theorem run_of_isIdle {c : Change} {s : Store σ} (h : c.isIdle s.table = true) :
    c.run s = (.ok false, s) := by
  cases c with
  | set key value => exact Bool.noConfusion h
  | remove key =>
    have habsent : s.table.contains key = false := by simpa [isIdle] using h
    simp [run, Store.remove, habsent]

theorem run_of_not_isIdle {c : Change} {s : Store σ} (h : c.isIdle s.table = false) :
    c.run s =
      match s.replace (c.apply s.table) with
      | (.ok (), s) => (.ok true, s)
      | (.error f, s) => (.error f, s) := by
  cases c with
  | set key value => rfl
  | remove key =>
    have hpresent : s.table.contains key = true := by simpa [isIdle] using h
    simp only [run, Store.remove, hpresent, if_true]
    rfl

/-- **What a store can do with a change**: leave it out, save it, or make it and fail to save it. -/
theorem run_cases {c : Change} {s s' : Store σ} {r : Except Failure Bool} (h : c.run s = (r, s')) :
    (c.isIdle s.table = true ∧ r = .ok false ∧ s' = s) ∨
    (c.isIdle s.table = false ∧ r = .ok true ∧ s'.table = c.apply s.table ∧
      Storage.save (Snapshot.encode (c.apply s.table)) s.storage = (.ok (), s'.storage)) ∨
    (c.isIdle s.table = false ∧ ∃ f, r = .error f ∧ s'.table = c.apply s.table ∧
      Storage.save (Snapshot.encode (c.apply s.table)) s.storage = (.error f, s'.storage)) := by
  cases hidle : c.isIdle s.table with
  | true =>
    rw [run_of_isIdle hidle] at h
    cases h
    exact .inl ⟨rfl, rfl, rfl⟩
  | false =>
    rw [run_of_not_isIdle hidle] at h
    unfold Store.replace at h
    cases hsave : Storage.save (Snapshot.encode (c.apply s.table)) s.storage with
    | mk result storage =>
      rw [hsave] at h
      cases result with
      | ok =>
        cases h
        exact .inr (.inl ⟨rfl, rfl, rfl, rfl⟩)
      | error f =>
        cases h
        exact .inr (.inr ⟨rfl, f, rfl, rfl, rfl⟩)

/-- The table changes whether or not the save succeeds. -/
theorem table_run (c : Change) (s : Store σ) : (c.run s).2.table = c.apply s.table := by
  cases h : c.run s with
  | mk r s' =>
    rcases run_cases h with ⟨hidle, -, rfl⟩ | ⟨-, -, ht, -⟩ | ⟨-, _, -, ht, -⟩
    · exact (apply_of_isIdle hidle).symm
    · exact ht
    · exact ht

end Change

/-! ## 3. The change that an entry asks for -/

namespace Command

/-- What a command wants its key to hold. -/
def target (c : Command) : Option String :=
  match c.operation with
  | .set => some c.value
  | _ => none

/-- The change that a command asks for, if it is admissible. -/
def change? (c : Command) : Option Change :=
  match c.refusal?, c.operation with
  | none, .set => some (.set c.key c.value)
  | none, .delete => some (.remove c.key)
  | _, _ => none

theorem key_of_change? {c : Command} {d : Change} (h : c.change? = some d) : d.key = c.key := by
  unfold change? at h
  split at h <;> cases h <;> rfl

theorem value?_of_change? {c : Command} {d : Change} (h : c.change? = some d) :
    d.value? = c.target := by
  unfold change? at h
  unfold target
  split at h
  · next hop => cases h; rw [hop]; rfl
  · next hop => cases h; rw [hop]; rfl
  · cases h

theorem operation_of_change?_remove {c : Command} {key : String} (h : c.change? = some (.remove key)) :
    c.operation = .delete := by
  unfold change? at h
  split at h
  · cases h
  · next hop => exact hop
  · cases h

theorem operation_of_change?_set {c : Command} {key value : String}
    (h : c.change? = some (.set key value)) : c.operation = .set := by
  unfold change? at h
  split at h
  · next hop => exact hop
  · cases h
  · cases h

/-- Without an admissible change there is a refusal. -/
theorem refusal?_of_change?_eq_none {c : Command} (h : c.change? = none) :
    ∃ refusal, c.refusal? = some refusal := by
  cases hop : c.operation with
  | unknown name => exact ⟨.unknownOperation name, by simp [refusal?, hop]⟩
  | set | delete =>
    cases hr : c.refusal? with
    | some refusal => exact ⟨refusal, rfl⟩
    | none => simp [change?, hr, hop] at h

/-- An admissible change keeps a table readable from its snapshot. -/
theorem fits_of_change? {c : Command} {d : Change} (h : c.change? = some d) : d.Fits := by
  unfold change? at h
  split at h
  · next hr hop =>
    cases h
    simp only [refusal?, hop] at hr
    split at hr
    · cases hr
    split at hr
    · cases hr
    split at hr
    · cases hr
    · next hkey hvalue =>
      exact ⟨by simpa using hkey, by simpa using hvalue⟩
  · cases h; trivial
  · cases h

end Command

/-- The change that a log entry asks for: that of the command in it, if there is an admissible one. -/
def Change.ofEntry? (entry : Bytes) : Option Change :=
  match Command.decode entry with
  | .ok c => c.change?
  | .error _ => none

theorem Change.fits_of_ofEntry? {entry : Bytes} {c : Change} (h : ofEntry? entry = some c) :
    c.Fits := by
  unfold ofEntry? at h
  split at h
  · exact Command.fits_of_change? h
  · cases h

/-! ## 4. What the machine and the applier do -/

theorem Machine.apply_of_change?_eq_none {c : Command} (h : c.change? = none) (s : Store σ) :
    ∃ refusal, Machine.apply c s = (.ok (.rejected refusal), s) := by
  obtain ⟨refusal, hr⟩ := Command.refusal?_of_change?_eq_none h
  exact ⟨refusal, by simp [Machine.apply, hr]⟩

theorem Machine.apply_of_change? {c : Command} {d : Change} (h : c.change? = some d) (s : Store σ) :
    Machine.apply c s =
      match d.run s with
      | (.ok _, s) => (.ok .applied, s)
      | (.error f, s) => (.error f, s) := by
  unfold Command.change? at h
  split at h
  · next hr hop =>
    cases h
    rcases hset : s.set c.key c.value with ⟨_ | _, s'⟩ <;>
      simp only [Machine.apply, hr, Machine.perform, hop, Change.run, hset]
  · next hr hop =>
    cases h
    rcases hremove : s.remove c.key with ⟨_ | _, s'⟩ <;>
      simp only [Machine.apply, hr, Machine.perform, hop, Change.run, hremove]
  · cases h

namespace Applier

theorem applyEntry_of_none {entry : Bytes} (h : Change.ofEntry? entry = none) (a : Applier σ) :
    a.applyEntry entry = (.ok false, a) := by
  unfold Change.ofEntry? at h
  unfold applyEntry
  split
  · rfl
  · next c hdecode =>
    rw [hdecode] at h
    obtain ⟨refusal, happly⟩ := Machine.apply_of_change?_eq_none h a.store
    rw [happly]
    rfl

theorem applyEntry_of_some {entry : Bytes} {c : Change} (h : Change.ofEntry? entry = some c)
    (a : Applier σ) :
    a.applyEntry entry =
      match c.run a.store with
      | (.ok _, store) => (.ok true, { a with store })
      | (.error f, store) => (.error f, ⟨store, a.shutdown.trigger (.fatal f.message)⟩) := by
  unfold Change.ofEntry? at h
  unfold applyEntry
  split
  · next hdecode => rw [hdecode] at h; cases h
  · next command hdecode =>
    rw [hdecode] at h
    rw [Machine.apply_of_change? h]
    cases c.run a.store with
    | mk result s' => cases result <;> rfl

/-- **What an applier can do with an entry.**  It refuses it, leaves its change out, saves the change,
or makes it and stops because it is not saved. -/
theorem applyEntry_cases {entry : Bytes} {a a' : Applier σ} {r : Except Failure Bool}
    (h : a.applyEntry entry = (r, a')) :
    (Change.ofEntry? entry = none ∧ r = .ok false ∧ a' = a) ∨
    ∃ c, Change.ofEntry? entry = some c ∧
      ((c.isIdle a.store.table = true ∧ r = .ok true ∧ a' = a) ∨
      (c.isIdle a.store.table = false ∧ r = .ok true ∧ a'.shutdown = a.shutdown ∧
        a'.store.table = c.apply a.store.table ∧
        Storage.save (Snapshot.encode (c.apply a.store.table)) a.store.storage =
          (.ok (), a'.store.storage)) ∨
      (c.isIdle a.store.table = false ∧ ∃ f, r = .error f ∧
        a'.shutdown = a.shutdown.trigger (.fatal f.message) ∧
        a'.store.table = c.apply a.store.table ∧
        Storage.save (Snapshot.encode (c.apply a.store.table)) a.store.storage =
          (.error f, a'.store.storage))) := by
  cases hentry : Change.ofEntry? entry with
  | none =>
    rw [applyEntry_of_none hentry] at h
    cases h
    exact .inl ⟨rfl, rfl, rfl⟩
  | some c =>
    rw [applyEntry_of_some hentry] at h
    refine .inr ⟨c, rfl, ?_⟩
    cases hrun : c.run a.store with
    | mk result store =>
      rw [hrun] at h
      rcases Change.run_cases hrun with ⟨hi, rfl, rfl⟩ | ⟨hi, rfl, ht, hs⟩ | ⟨hi, f, rfl, ht, hs⟩
      · cases h
        exact .inl ⟨hi, rfl, rfl⟩
      · cases h
        exact .inr (.inl ⟨hi, rfl, rfl, ht, hs⟩)
      · cases h
        exact .inr (.inr ⟨hi, f, rfl, rfl, ht, hs⟩)

/-- The table after an entry is the one that the change of the entry makes. -/
theorem table_applyEntry (entry : Bytes) (a : Applier σ) :
    (a.applyEntry entry).2.store.table = a.store.table.changed (Change.ofEntry? entry).toList := by
  cases h : a.applyEntry entry with
  | mk r a' =>
    rcases applyEntry_cases h with
      ⟨he, -, rfl⟩ | ⟨c, he, ⟨hi, -, rfl⟩ | ⟨-, -, -, ht, -⟩ | ⟨-, _, -, -, ht, -⟩⟩
    · rw [he]; rfl
    · rw [he]; exact (Change.apply_of_isIdle hi).symm
    · rw [he]; exact ht
    · rw [he]; exact ht

end Applier
end Replica
