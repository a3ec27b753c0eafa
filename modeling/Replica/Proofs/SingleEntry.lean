/-
# What one entry does

An entry meets an applier in any state: any table, any snapshot, a count of saves, a signal that may be
triggered already, and saves that may be failing.  Three things can happen.

* The entry is refused, as it is no command or none that is admissible.  Nothing at all changes.
* Its change has to be saved, and saves fail.  The table has the change all the same, the memory is as
  it was, and the node stops for this reason unless it had one before.
* It is applied.  The table has its change, and the snapshot is that of the table, unless the change was
  to take away a key that was not there.

`Applier.applyEntry_contract` says which of them happens when, and what each leaves behind.
-/
import Replica.Proofs.Change
import Replica.Proofs.LawfulStorage

namespace Replica

/-! ## 1. Entries that hold an admissible command -/

namespace Command

/-- An entry is a command, and there is no reason against it. -/
def Admitted (entry : Bytes) (c : Command) : Prop := decode entry = .ok c ∧ c.refusal? = none

/-- An entry is no command, or there is a reason against the one that it is. -/
def Refused (entry : Bytes) : Prop :=
  (∃ fault, decode entry = .error fault) ∨
    ∃ c refusal, decode entry = .ok c ∧ c.refusal? = some refusal

/-- The table after a command; only setting a key looks at the value. -/
def edit (c : Command) (t : Table) : Table :=
  match c.operation with
  | .set => t.insert c.key c.value
  | .delete => t.erase c.key
  | .unknown _ => t

/-- What a command does has to be saved: it sets a key, or takes away one that is there. -/
def NeedsSave (c : Command) (t : Table) : Prop :=
  c.operation = .set ∨ (c.operation = .delete ∧ t.contains c.key = true)

theorem not_refused_of_admitted {entry : Bytes} {c : Command} (h : Admitted entry c) :
    ¬ Refused entry := by
  obtain ⟨hdecode, hnone⟩ := h
  rintro (⟨fault, hfault⟩ | ⟨c', refusal, hdecode', hrefusal⟩)
  · rw [hdecode] at hfault
    cases hfault
  · rw [hdecode] at hdecode'
    cases hdecode'
    rw [hnone] at hrefusal
    cases hrefusal

theorem Admitted.unique {entry : Bytes} {c c' : Command} (h : Admitted entry c)
    (h' : Admitted entry c') : c' = c := by
  have heq := h'.1.symm.trans h.1
  exact Except.ok.inj heq

end Command

namespace Change

/-- An entry without a change is refused. -/
theorem refused_of_ofEntry? {entry : Bytes} (h : ofEntry? entry = none) : Command.Refused entry := by
  unfold ofEntry? at h
  split at h
  · next c hdecode =>
    obtain ⟨refusal, hrefusal⟩ := Command.refusal?_of_change?_eq_none h
    exact .inr ⟨c, refusal, hdecode, hrefusal⟩
  · next fault hdecode => exact .inl ⟨fault, hdecode⟩

/-- The change of an entry is what the command in it does. -/
theorem admitted_of_ofEntry? {entry : Bytes} {d : Change} (h : ofEntry? entry = some d) :
    ∃ c, Command.Admitted entry c ∧ (∀ t, d.apply t = c.edit t) ∧
      ∀ t, d.isIdle t = false ↔ c.NeedsSave t := by
  unfold ofEntry? at h
  split at h
  · next c hdecode =>
    unfold Command.change? at h
    split at h
    · next hnone hop =>
      cases h
      refine ⟨c, ⟨hdecode, hnone⟩, ?_, ?_⟩
      · intro t
        simp only [Command.edit, hop, Change.apply]
      · intro t
        simp [isIdle, Command.NeedsSave, hop]
    · next hnone hop =>
      cases h
      refine ⟨c, ⟨hdecode, hnone⟩, ?_, ?_⟩
      · intro t
        simp only [Command.edit, hop, Change.apply]
      · intro t
        simp [isIdle, Command.NeedsSave, hop]
    · cases h
  · cases h

end Change

/-! ## 2. The contract -/

theorem Shutdown.reason?_trigger (s : Shutdown) (reason : StopReason) :
    (s.trigger reason).reason? = some (s.reason?.getD reason) := by
  obtain ⟨reason?⟩ := s
  cases reason? <;> rfl

theorem Memory.fatal_of_save_error {b : Bytes} {m m' : Memory} {f : Failure}
    (h : Storage.save b m = (.error f, m')) : f.isFatal = true := by
  obtain ⟨snapshot, saves, failing⟩ := m
  cases failing with
  | true => cases h; rfl
  | false => cases h

namespace Applier

/-- An applier over memory refuses an entry, has nothing to save for it, saves its table, or fails to. -/
theorem applyEntry_memory_cases {entry : Bytes} {a a' : Applier Memory} {r : Except Failure Bool}
    (h : a.applyEntry entry = (r, a')) :
    (Command.Refused entry ∧ r = .ok false ∧ a' = a) ∨
    ∃ c, Command.Admitted entry c ∧ a'.store.table = c.edit a.store.table ∧
      ((¬ c.NeedsSave a.store.table ∧ r = .ok true ∧ a' = a) ∨
      (c.NeedsSave a.store.table ∧ a.store.storage.failing = false ∧ r = .ok true ∧
        a'.shutdown = a.shutdown ∧ a'.store.storage =
          ⟨some (Snapshot.encode a'.store.table), a.store.storage.saves + 1, false⟩) ∨
      (c.NeedsSave a.store.table ∧ a.store.storage.failing = true ∧ ∃ f, r = .error f ∧
        f.isFatal = true ∧ a'.store.storage = a.store.storage ∧
        a'.shutdown = a.shutdown.trigger (.fatal f.message))) := by
  rcases applyEntry_cases h with ⟨hentry, hr, ha⟩ | ⟨d, hentry, hcases⟩
  · exact .inl ⟨Change.refused_of_ofEntry? hentry, hr, ha⟩
  obtain ⟨c, hc, hedit, hidle⟩ := Change.admitted_of_ofEntry? hentry
  refine .inr ⟨c, hc, ?_⟩
  rw [← hidle, ← hedit]
  rcases hcases with ⟨hi, hr, rfl⟩ | ⟨hi, hr, hshutdown, ht, hsave⟩ | ⟨hi, f, hr, hshutdown, ht, hsave⟩
  · exact ⟨(Change.apply_of_isIdle hi).symm, .inl ⟨by simp [hi], hr, rfl⟩⟩
  · obtain ⟨hfailing, hmemory⟩ := Memory.of_save_ok hsave
    exact ⟨ht, .inr (.inl ⟨hi, hfailing, hr, hshutdown, by rw [hmemory, ht]⟩)⟩
  · obtain ⟨hfailing, hmemory⟩ := Memory.of_save_error hsave
    have hfatal := Memory.fatal_of_save_error hsave
    exact ⟨ht, .inr (.inr ⟨hi, hfailing, f, hr, hfatal, hmemory, hshutdown⟩)⟩

/-- **What an entry does, in every state.**  It is refused exactly if it holds no admissible command,
and then nothing changes.  It fails exactly if saves fail and there is something to save; the failure
is fatal, the memory stays, and the first reason to stop counts.  In all other cases it is applied and
the signal stays.  Applied or failed, the table has what the command asked for; applied, the memory has
the snapshot of that table, one save more, or is as it was if there was nothing to save. -/
theorem applyEntry_contract (entry : Bytes) (a : Applier Memory) :
    ∃ r a', a.applyEntry entry = (r, a') ∧
      (r = .ok false ↔ Command.Refused entry) ∧
      (r = .ok false → a' = a) ∧
      ((∃ f, r = .error f) ↔ ∃ c, Command.Admitted entry c ∧ c.NeedsSave a.store.table ∧
        a.store.storage.failing = true) ∧
      (∀ f, r = .error f → f.isFatal = true ∧ a'.store.storage = a.store.storage ∧
        a'.shutdown.reason? = some (a.shutdown.reason?.getD (.fatal f.message))) ∧
      (r = .ok true → a'.shutdown = a.shutdown) ∧
      ∀ c, Command.Admitted entry c →
        a'.store.table = c.edit a.store.table ∧
        (r = .ok true → c.NeedsSave a.store.table → a'.store.storage =
          ⟨some (Snapshot.encode a'.store.table), a.store.storage.saves + 1, a.store.storage.failing⟩) ∧
        (r = .ok true → ¬ c.NeedsSave a.store.table → a'.store.storage = a.store.storage) := by
  cases h : a.applyEntry entry with
  | mk r a' =>
  refine ⟨r, a', rfl, ?_⟩
  rcases applyEntry_memory_cases h with ⟨hrefused, rfl, rfl⟩ | ⟨c, hc, htable, hcases⟩
  · -- The entry is refused, so that no command in it is admitted.
    have hnone : ∀ c, ¬ Command.Admitted entry c := fun c hc =>
      Command.not_refused_of_admitted hc hrefused
    simp [hrefused, hnone]
  have hrefused := Command.not_refused_of_admitted hc
  have honly (c' : Command) : Command.Admitted entry c' ↔ c' = c :=
    ⟨hc.unique, fun h => h ▸ hc⟩
  simp only [honly, hrefused, forall_eq, exists_eq_left]
  rcases hcases with ⟨hidle, rfl, rfl⟩ | ⟨hsaves, hfailing, rfl, hshutdown, hmemory⟩ |
    ⟨hsaves, hfailing, f, rfl, hfatal, hmemory, hshutdown⟩
  · simp [hidle, ← htable]
  · simp [hsaves, hfailing, hshutdown, hmemory, htable]
  · simp [hsaves, hfailing, hfatal, hshutdown, hmemory, htable, Shutdown.reason?_trigger]

/-- One entry at two appliers with the same table.  Where saves succeed the snapshot has both keys; where
they fail only the table has, and an operator's request for a stop stays. -/
theorem applyEntry_contract_set :
    let entry := Command.encode (.set "b" "2")
    let saved := some (Utf8.encode "a=1\n")
    let sound : Applier Memory := ⟨⟨.ofEntries [("a", "1")], ⟨saved, 3, false⟩⟩, .idle⟩
    let broken : Applier Memory := ⟨⟨.ofEntries [("a", "1")], ⟨saved, 3, true⟩⟩, ⟨some .requested⟩⟩
    (∃ a', sound.applyEntry entry = (.ok true, a') ∧ a'.store.entries = [("a", "1"), ("b", "2")] ∧
      a'.store.storage = ⟨some (Utf8.encode "a=1\nb=2\n"), 4, false⟩ ∧ a'.shutdown = .idle) ∧
    ∃ f a', broken.applyEntry entry = (.error f, a') ∧ f.isFatal = true ∧
      a'.store.entries = [("a", "1"), ("b", "2")] ∧ a'.store.storage = ⟨saved, 3, true⟩ ∧
      a'.shutdown.reason? = some .requested := by
  intro entry saved sound broken
  have hadmitted : Command.Admitted entry (.set "b" "2") := ⟨by decide +kernel, by decide⟩
  have haccepted := Command.not_refused_of_admitted hadmitted
  have hneeds (t : Table) : Command.NeedsSave (.set "b" "2") t := .inl rfl
  have hedited : (Command.edit (.set "b" "2") (.ofEntries [("a", "1")])).toList =
      [("a", "1"), ("b", "2")] := by decide
  constructor
  · obtain ⟨r, a', happly, hrefused, -, hfails, -, hsignal, hedit⟩ := applyEntry_contract entry sound
    obtain ⟨htable, hsaved, -⟩ := hedit _ hadmitted
    have happlied : r = .ok true := by
      rcases r with f | _ | _
      · obtain ⟨_, -, -, hfailing⟩ := hfails.mp ⟨f, rfl⟩
        cases hfailing
      · exact absurd (hrefused.mp rfl) haccepted
      · rfl
    subst happlied
    refine ⟨a', happly, ?_, ?_, hsignal rfl⟩
    · rw [Store.entries, htable]
      exact hedited
    · rw [hsaved rfl (hneeds _), htable]
      decide
  · obtain ⟨r, a', happly, -, -, hfails, herror, -, hedit⟩ := applyEntry_contract entry broken
    obtain ⟨htable, -⟩ := hedit _ hadmitted
    obtain ⟨f, rfl⟩ := hfails.mpr ⟨_, hadmitted, hneeds _, rfl⟩
    obtain ⟨hfatal, hstorage, hreason⟩ := herror f rfl
    refine ⟨f, a', happly, hfatal, ?_, hstorage, hreason⟩
    rw [Store.entries, htable]
    exact hedited

end Applier
end Replica
