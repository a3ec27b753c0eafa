/-
# Whether an acknowledged entry is durable

An entry is acknowledged when the answer to it says that it was applied.  As long as saves succeed, a
store rebuilt at that moment holds what the entry asked for.  A failed save leaves the table ahead of
the snapshot, and if entries keep coming, one case slips through.  The removal of a key fails to be
saved, and a second removal of it finds the key gone from the table, so it is acknowledged without a
save, while the snapshot still holds the key.

* `Applier.UnsavedRemoval`: a run leaves such a key behind;
* `Applier.behind_run_iff`: exactly these keys are gone from the table and still in the snapshot;
* `Applier.durable_iff`: an acknowledged entry is durable unless it removes such a key;
* `Applier.acknowledged_removal_lost`: a run with an acknowledged entry that is not durable.
-/
import Mathlib.Data.List.Induction
import Replica.Proofs.LawfulStorage
import Replica.Proofs.Change

namespace Replica.Applier

/-! ## 1. Runs in which saves may fail -/

/-- What can happen to an applier over memory. -/
inductive Event where
  | entry (entry : Bytes)
  /-- Saves fail from now on, or succeed again. -/
  | failWrites (failing : Bool)
  deriving DecidableEq, Repr

/-- The change that an event asks for. -/
def Event.change? : Event → Option Change
  | .entry b => Change.ofEntry? b
  | .failWrites _ => none

/-- The applier that starts from a snapshot or from none. -/
def ofSnapshot (snapshot : Option Bytes) : Applier Memory :=
  ⟨⟨(Memory.ofSnapshot snapshot).table, .ofSnapshot snapshot⟩, .idle⟩

def step (a : Applier Memory) : Event → Applier Memory
  | .entry b => (a.applyEntry b).2
  | .failWrites failing =>
    { a with store := { a.store with storage := a.store.storage.failWrites failing } }

def run (a : Applier Memory) (events : List Event) : Applier Memory := events.foldl step a

/-- The table that a store rebuilt now would have. -/
def persisted (a : Applier Memory) : Table := a.store.storage.table

/-- The number of saves that succeeded. -/
def saves (a : Applier Memory) : Nat := a.store.storage.saves

theorem run_append (a : Applier Memory) (es fs : List Event) :
    a.run (es ++ fs) = (a.run es).run fs :=
  List.foldl_append

theorem run_concat (a : Applier Memory) (es : List Event) (e : Event) :
    a.run (es ++ [e]) = (a.run es).step e :=
  run_append a es [e]

/-- The snapshot and the count of saves move together: neither changes, or both do, and then the
snapshot is that of the table. -/
theorem step_cases {a : Applier Memory} (hfits : a.store.table.Fits) (e : Event) :
    ((a.step e).persisted = a.persisted ∧ (a.step e).saves = a.saves) ∨
      ((a.step e).persisted = (a.step e).store.table ∧ (a.step e).saves = a.saves + 1) := by
  cases e with
  | failWrites failing => exact .inl ⟨rfl, rfl⟩
  | entry b =>
    cases h : a.applyEntry b with
    | mk r a' =>
      have hstep : a.step (.entry b) = a' := congrArg Prod.snd h
      rw [hstep]
      rcases applyEntry_cases h with
        ⟨-, -, rfl⟩ | ⟨c, he, ⟨-, -, rfl⟩ | ⟨-, -, -, ht, hsave⟩ | ⟨-, f, -, -, -, hsave⟩⟩
      · exact .inl ⟨rfl, rfl⟩
      · exact .inl ⟨rfl, rfl⟩
      · right
        have hnew : (c.apply a.store.table).Fits := (Change.fits_of_ofEntry? he).apply hfits
        have hload := Store.load_of_saved hnew hsave
        rw [Memory.load_eq] at hload
        injection hload with hload
        exact ⟨(congrArg Store.table hload).trans ht.symm,
          congrArg Memory.saves (Memory.of_save_ok hsave).2⟩
      · have hsame := (Memory.of_save_error hsave).2
        exact .inl ⟨congrArg Memory.table hsame, congrArg Memory.saves hsame⟩

theorem table_step (a : Applier Memory) (e : Event) :
    (a.step e).store.table = a.store.table.changed e.change?.toList := by
  cases e with
  | failWrites failing => rfl
  | entry b => exact table_applyEntry b a

/-- The table follows every change, saved or not. -/
theorem table_run (a : Applier Memory) (events : List Event) :
    (a.run events).store.table = a.store.table.changed (events.filterMap Event.change?) := by
  induction events generalizing a with
  | nil => rfl
  | cons e events ih =>
    have hrun : a.run (e :: events) = (a.step e).run events := rfl
    rw [hrun, ih, table_step, Table.changed_filterMap_cons]

theorem fits_step {a : Applier Memory} (h : a.store.table.Fits) (e : Event) :
    (a.step e).store.table.Fits := by
  rw [table_step]
  cases hc : e.change? with
  | none => exact h
  | some c =>
    cases e with
    | failWrites failing => cases hc
    | entry b => exact (Change.fits_of_ofEntry? hc).apply h

theorem fits_run {a : Applier Memory} (h : a.store.table.Fits) (events : List Event) :
    (a.run events).store.table.Fits := by
  induction events generalizing a with
  | nil => exact h
  | cons e events ih => exact ih (fits_step h e)

/-- Without a save in between, the snapshot stays. -/
theorem persisted_run {a : Applier Memory} (h : a.store.table.Fits) (events : List Event) :
    a.saves ≤ (a.run events).saves ∧
      ((a.run events).saves = a.saves → (a.run events).persisted = a.persisted) := by
  induction events generalizing a with
  | nil => exact ⟨Nat.le_refl _, fun _ => rfl⟩
  | cons e events ih =>
    have hrun : a.run (e :: events) = (a.step e).run events := rfl
    obtain ⟨hle, hsame⟩ := ih (fits_step h e)
    rw [hrun]
    rcases step_cases h e with ⟨hp, hs⟩ | ⟨-, hs⟩
    · rw [hs] at hle hsame
      exact ⟨hle, fun heq => (hsame heq).trans hp⟩
    · exact ⟨by omega, fun heq => by omega⟩

/-! ## 2. Keys that a removal leaves behind -/

/-- A key is gone from the table, but not from the snapshot. -/
def Behind (a : Applier Memory) (key : String) : Prop :=
  a.store.table.contains key = false ∧ a.persisted.contains key = true

/-- In a run, an entry took a key away and could not be saved, while the snapshot held the key; and
since then no save succeeded and no entry asked for the key to get a value. -/
def UnsavedRemoval (a : Applier Memory) (events : List Event) (key : String) : Prop :=
  ∃ before removal after f, events = before ++ .entry removal :: after ∧
    Change.ofEntry? removal = some (.remove key) ∧
    ((a.run before).applyEntry removal).1 = .error f ∧
    (a.run before).persisted.contains key = true ∧
    (a.run events).saves = (a.run before).saves ∧
    ∀ entry value, .entry entry ∈ after → Change.ofEntry? entry ≠ some (.set key value)

/-- An event that puts a key behind is a removal of it that fails to be saved. -/
theorem step_of_behind {a : Applier Memory} {e : Event} {key : String} (hfits : a.store.table.Fits)
    (h : ¬ a.Behind key) (h' : (a.step e).Behind key) :
    ∃ removal f, e = .entry removal ∧ Change.ofEntry? removal = some (.remove key) ∧
      (a.applyEntry removal).1 = .error f ∧ a.persisted.contains key = true ∧
      (a.step e).saves = a.saves := by
  obtain ⟨hgone, hkept⟩ := h'
  rcases step_cases hfits e with ⟨hp, hs⟩ | ⟨hp, -⟩
  · rw [hp] at hkept
    have hpresent : a.store.table.contains key = true := by
      cases hc : a.store.table.contains key with
      | true => rfl
      | false => exact absurd ⟨hc, hkept⟩ h
    rw [table_step] at hgone
    cases hc : e.change? with
    | none => rw [hc, Option.toList_none, Table.changed_nil, hpresent] at hgone; cases hgone
    | some c =>
      rw [hc, Option.toList_some, Table.changed_cons, Table.changed_nil] at hgone
      obtain rfl := Change.eq_remove_of_contains hpresent hgone
      cases e with
      | failWrites failing => cases hc
      | entry b =>
        cases happly : a.applyEntry b with
        | mk r a' =>
          have hstep : a.step (.entry b) = a' := congrArg Prod.snd happly
          rcases applyEntry_cases happly with
            ⟨hnone, -, -⟩ | ⟨c, he, ⟨hidle, -, -⟩ | ⟨-, -, -, -, hsave⟩ | ⟨-, f, rfl, -⟩⟩
          · cases hnone.symm.trans hc
          · cases he.symm.trans hc
            simp [Change.isIdle, hpresent] at hidle
          · have hcounted := congrArg Memory.saves (Memory.of_save_ok hsave).2
            rw [hstep] at hs
            simp only [saves] at hs hcounted
            omega
          · exact ⟨b, f, rfl, hc, congrArg Prod.fst happly, hkept, hs⟩
  · rw [hp, hgone] at hkept
    cases hkept

/-- A key that is behind, and still is after an event, gets no value and no save in that event. -/
theorem step_keeps_behind {a : Applier Memory} {e : Event} {key : String} (hfits : a.store.table.Fits)
    (h : (a.step e).Behind key) :
    (a.step e).saves = a.saves ∧
      ∀ entry value, e = .entry entry → Change.ofEntry? entry ≠ some (.set key value) := by
  obtain ⟨hgone, hkept⟩ := h
  constructor
  · rcases step_cases hfits e with ⟨-, hs⟩ | ⟨hp, -⟩
    · exact hs
    · rw [hp, hgone] at hkept
      cases hkept
  · rintro entry value rfl hset
    rw [table_step, Event.change?, hset, Option.toList_some, Table.changed_cons,
      Table.changed_nil] at hgone
    unfold Table.contains at hgone
    rw [Change.get?_apply, Change.key_set, if_pos rfl] at hgone
    cases hgone

/-- A key that is behind after a run was put there by an unsaved removal. -/
theorem unsavedRemoval_of_behind {a : Applier Memory} {events : List Event} {key : String}
    (hfits : a.store.table.Fits) (h : ¬ a.Behind key) (h' : (a.run events).Behind key) :
    a.UnsavedRemoval events key := by
  induction events using List.reverseRecOn with
  | nil => exact absurd h' h
  | append_singleton events e ih =>
    rw [run_concat] at h'
    have hrun := fits_run hfits events
    by_cases hb : (a.run events).Behind key
    · -- The removal lies further back, and `e` is one more event after it.
      obtain ⟨before, removal, after, f, rfl, hasks, hfails, hkept, hcount, hset⟩ := ih hb
      obtain ⟨hs, hnoset⟩ := step_keeps_behind hrun h'
      refine ⟨before, removal, after ++ [e], f, by simp, hasks, hfails, hkept, ?_, ?_⟩
      · rw [run_concat, hs, hcount]
      · intro entry value hmem
        rcases List.mem_append.mp hmem with hmem | hmem
        · exact hset entry value hmem
        · exact hnoset entry value (List.mem_singleton.mp hmem).symm
    · obtain ⟨removal, f, rfl, hasks, hfails, hkept, hs⟩ := step_of_behind hrun hb h'
      refine ⟨events, removal, [], f, rfl, hasks, hfails, hkept, ?_, ?_⟩
      · rw [run_concat, hs]
      · intro entry value hmem
        cases hmem

/-- An unsaved removal leaves its key behind. -/
theorem UnsavedRemoval.behind {a : Applier Memory} {events : List Event} {key : String}
    (hfits : a.store.table.Fits) (h : a.UnsavedRemoval events key) : (a.run events).Behind key := by
  obtain ⟨before, removal, after, f, rfl, hasks, -, hkept, hcount, hset⟩ := h
  rw [run_append] at hcount ⊢
  constructor
  · have hchanges : (Event.entry removal :: after).filterMap Event.change? =
        .remove key :: after.filterMap Event.change? :=
      List.filterMap_cons_some hasks
    rw [table_run, hchanges, Table.contains, Table.get?_changed, Table.lastOf_cons,
      Change.key_remove, if_pos rfl]
    cases hlast : Table.lastOf key (after.filterMap Event.change?) with
    | none => rfl
    | some c =>
      obtain ⟨hmem, hkey⟩ := Table.lastOf_eq_some hlast
      obtain ⟨e, he, hc⟩ := List.mem_filterMap.mp hmem
      cases c with
      | remove k => rfl
      | set k value =>
        cases e with
        | failWrites failing => cases hc
        | entry b =>
          obtain rfl : k = key := hkey
          exact absurd hc (hset b value he)
  · rw [(persisted_run (fits_run hfits before) _).2 hcount]
    exact hkept

/-- **The keys that are behind after a run** are those with an unsaved removal. -/
theorem behind_run_iff {a : Applier Memory} {events : List Event} {key : String}
    (hfits : a.store.table.Fits) (h : ¬ a.Behind key) :
    (a.run events).Behind key ↔ a.UnsavedRemoval events key :=
  ⟨unsavedRemoval_of_behind hfits h, UnsavedRemoval.behind hfits⟩

/-! ## 3. Acknowledged entries -/

theorem not_behind_ofSnapshot (snapshot : Option Bytes) (key : String) :
    ¬ (ofSnapshot snapshot).Behind key := by
  rintro ⟨hgone, hkept⟩
  exact Bool.noConfusion (hgone.symm.trans hkept)

theorem fits_ofSnapshot {snapshot : Option Bytes}
    (h : ∀ b, snapshot = some b → (Snapshot.decode b).Fits) : (ofSnapshot snapshot).store.table.Fits := by
  cases snapshot with
  | none => exact Table.fits_empty
  | some b => exact h b rfl

/-- A key that is gone from the table is gone from the snapshot as well, unless it is behind. -/
theorem get?_persisted_iff {a : Applier Memory} {key : String}
    (h : a.store.table.contains key = false) : a.persisted.get? key = none ↔ ¬ a.Behind key := by
  constructor
  · rintro hnone ⟨-, hkept⟩
    rw [Table.contains, hnone] at hkept
    cases hkept
  · intro hbehind
    cases hkept : a.persisted.get? key with
    | none => rfl
    | some value => exact absurd ⟨h, by rw [Table.contains, hkept]; rfl⟩ hbehind

/-- An acknowledged entry is durable unless it deletes a key that is behind. -/
theorem durable_iff_not_behind {a a' : Applier Memory} {entry : Bytes} {c : Command}
    (hfits : a.store.table.Fits) (hdecode : Command.decode entry = .ok c)
    (hack : a.applyEntry entry = (.ok true, a')) :
    ∃ s, Store.load a'.store.storage = .ok s ∧
      (s.get? c.key = c.target ↔ ¬ (c.operation = .delete ∧ a.Behind c.key)) := by
  rcases applyEntry_cases hack with
    ⟨-, hr, -⟩ | ⟨d, he, ⟨hidle, -, hsame⟩ | ⟨hbusy, -, -, -, hsave⟩ | ⟨-, f, hr, -⟩⟩
  · cases hr
  · -- Nothing is saved, so all depends on whether the snapshot has lost the key as well.
    have hc : c.change? = some d := by rwa [Change.ofEntry?, hdecode] at he
    rw [hsame]
    refine ⟨_, Memory.load_eq _, ?_⟩
    cases d with
    | set key value => cases hidle
    | remove key =>
      have hkey : key = c.key := Command.key_of_change? hc
      have htarget : none = c.target := Command.value?_of_change? hc
      have hgone : a.store.table.contains c.key = false := by
        simpa [Change.isIdle, hkey] using hidle
      have hdelete := Command.operation_of_change?_remove hc
      rw [← htarget, and_iff_right hdelete]
      exact get?_persisted_iff hgone
  · have hc : c.change? = some d := by rwa [Change.ofEntry?, hdecode] at he
    have hnew := (Command.fits_of_change? hc).apply hfits
    have hholds : (d.apply a.store.table).get? c.key = c.target := by
      rw [Change.get?_apply, if_pos (Command.key_of_change? hc), Command.value?_of_change? hc]
    refine ⟨_, Store.load_of_saved hnew hsave, fun _ => ?_, fun _ => hholds⟩
    rintro ⟨hdelete, hgone, -⟩
    -- A deletion of a key that is gone would have been left out.
    cases d with
    | set key value => cases (Command.operation_of_change?_set hc).symm.trans hdelete
    | remove key =>
      obtain rfl : key = c.key := Command.key_of_change? hc
      simp [Change.isIdle, hgone] at hbusy
  · cases hr

/-- **When an acknowledged entry is durable.**  Over a snapshot that fits, and after any run, an entry
is acknowledged: then the store rebuilt at that moment holds under its key what its command asked for,
unless the command deletes a key with an unsaved removal. -/
theorem durable_iff {snapshot : Option Bytes} {events : List Event} {entry : Bytes} {c : Command}
    {a' : Applier Memory} (hfits : ∀ b, snapshot = some b → (Snapshot.decode b).Fits)
    (hdecode : Command.decode entry = .ok c)
    (hack : ((ofSnapshot snapshot).run events).applyEntry entry = (.ok true, a')) :
    ∃ s, Store.load a'.store.storage = .ok s ∧
      (s.get? c.key = c.target ↔
        ¬ (c.operation = .delete ∧ (ofSnapshot snapshot).UnsavedRemoval events c.key)) := by
  have hstart := fits_ofSnapshot hfits
  rw [← behind_run_iff hstart (not_behind_ofSnapshot snapshot c.key)]
  exact durable_iff_not_behind (fits_run hstart events) hdecode hack

/-- A key whose removal was not saved gets a new value, which is durable. -/
theorem durable_set_after_unsaved_removal :
    ∃ a' s, ((ofSnapshot (some (Utf8.encode "k=v\n"))).run
        [.failWrites true, .entry (Command.encode (.delete "k")), .failWrites false]).applyEntry
        (Command.encode (.set "k" "w")) = (.ok true, a') ∧
      Store.load a'.store.storage = .ok s ∧ s.get? "k" = some "w" := by
  have hack : ((ofSnapshot (some (Utf8.encode "k=v\n"))).run
      [.failWrites true, .entry (Command.encode (.delete "k")), .failWrites false]).applyEntry
      (Command.encode (.set "k" "w")) = (.ok true, _) := Prod.ext rfl rfl
  have hfits : ∀ b, some (Utf8.encode "k=v\n") = some b → (Snapshot.decode b).Fits := by
    intro b hb
    cases hb
    decide
  have hdecode : Command.decode (Command.encode (.set "k" "w")) = .ok (.set "k" "w") := by
    decide
  obtain ⟨s, hload, hholds⟩ := durable_iff hfits hdecode hack
  refine ⟨_, s, hack, hload, hholds.mpr ?_⟩
  rintro ⟨hdelete, -⟩
  cases hdelete

/-- **An acknowledged removal can be lost.**  The removal of a key fails to be saved; saves succeed
again, the removal is asked for once more and acknowledged, and the snapshot still holds the key. -/
theorem acknowledged_removal_lost :
    ∃ a' s, ((ofSnapshot (some (Utf8.encode "k=v\n"))).run
        [.failWrites true, .entry (Command.encode (.delete "k")), .failWrites false]).applyEntry
        (Command.encode (.delete "k")) = (.ok true, a') ∧
      Store.load a'.store.storage = .ok s ∧ s.get? "k" = some "v" :=
  ⟨_, _, rfl, rfl, rfl⟩

end Replica.Applier
