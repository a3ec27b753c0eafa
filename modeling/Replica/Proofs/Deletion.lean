/-
# Deleting what a table holds

A key comes into a table through one of two gates.  A command is admissible only if its key is not empty
and holds no delimiter and no line break.  A snapshot is read line by line, and what is read of it has no
delimiter and no line feed in its keys (`Snapshot.readable_decode`), but an empty key passes, and so does
one with a carriage return in it.  A key of these two kinds cannot be taken away again: every command
that names it is refused, the one that would delete it included.

* `Command.Nameable`: the keys that commands may name;
* `Node.readable_applyAll`: what stays true of every key, from a loaded snapshot through any run;
* `Node.get?_applyAll_of_not_nameable`: a key that no command may name stays as it was loaded;
* `Node.deletes_iff`: which of the keys that a table holds can be deleted.
-/
import Replica.Proofs.Entries
import Replica.Proofs.Rewriting
import Replica.Proofs.Written

namespace Replica

/-! ## 1. Keys that commands may name -/

theorem Record.keyFits_iff {key : String} :
    keyFits key = true ↔ delimiter ∉ key.toList ∧ '\n' ∉ key.toList ∧ '\r' ∉ key.toList := by
  simp only [keyFits, isLineBreak, Bool.and_eq_true, Bool.not_eq_true', List.any_eq_false, beq_iff_eq,
    Bool.or_eq_true, decide_eq_true_eq, not_or]
  constructor
  · rintro ⟨hdelimiter, hbreak⟩
    exact ⟨fun h => hdelimiter _ h rfl, fun h => (hbreak _ h).1 rfl, fun h => (hbreak _ h).2 rfl⟩
  · rintro ⟨hdelimiter, hfeed, hreturn⟩
    exact ⟨fun c hc he => hdelimiter (he ▸ hc), fun c hc => ⟨fun he => hfeed (he ▸ hc),
      fun he => hreturn (he ▸ hc)⟩⟩

namespace Command

/-- A key that commands may name. -/
def Nameable (key : String) : Prop := key ≠ "" ∧ Record.keyFits key = true

/-- Of a readable record, a carriage return in the key is all that the rules for commands exclude besides
the empty key. -/
theorem nameable_iff {e : String × String} (h : Record.Readable e) :
    Nameable e.1 ↔ e.1 ≠ "" ∧ '\r' ∉ e.1.toList := by
  obtain ⟨hdelimiter, hfeed, -⟩ := h
  simp [Nameable, Record.keyFits_iff, hdelimiter, hfeed]

theorem nameable_iff_of_contains {t : Table} {key : String}
    (h : ∀ e ∈ t.toList, Record.Readable e) (hkey : t.contains key = true) :
    Nameable key ↔ key ≠ "" ∧ '\r' ∉ key.toList := by
  obtain ⟨value, hvalue⟩ := Option.isSome_iff_exists.mp hkey
  exact nameable_iff (h _ ((Table.valueOf_eq_some_iff t.ascending).mp hvalue))

theorem nameable_of_refusal? {c : Command} (h : c.refusal? = none) : Nameable c.key := by
  unfold refusal? at h
  split at h
  · cases h
  split at h
  · cases h
  · next hempty =>
    split at h
    · cases h
    · next hfits => exact ⟨by simpa using hempty, by simpa using hfits⟩

theorem nameable_of_change? {c : Command} {d : Change} (h : c.change? = some d) : Nameable d.key := by
  rw [key_of_change? h]
  unfold change? at h
  split at h
  · next hr _ => exact nameable_of_refusal? hr
  · next hr _ => exact nameable_of_refusal? hr
  · cases h

theorem change?_delete {key : String} (h : Nameable key) : (delete key).change? = some (.remove key) := by
  obtain ⟨hempty, hfits⟩ := h
  have hr : (delete key).refusal? = none := by simp [refusal?, delete, hempty, hfits]
  unfold change?
  rw [hr]
  rfl

theorem change?_delete_of_not_nameable {key : String} (h : ¬ Nameable key) :
    (delete key).change? = none := by
  cases hc : (delete key).change? with
  | none => rfl
  | some d =>
    have hd := nameable_of_change? hc
    rw [key_of_change? hc] at hd
    exact absurd hd h

/-- A written deletion is read as it was meant. -/
theorem decode_encode_delete {key : String} (h : (Utf8.encode key).length < Nat.pow 2 32) :
    decode (encode (delete key)) = .ok (delete key) := by
  have hwritable : (delete key).Writable :=
    ⟨by show (Utf8.encode "DELETE").length < Nat.pow 2 32; decide, h,
      by show (Utf8.encode "").length < Nat.pow 2 32; decide⟩
  have hread := (spelled_encode hwritable).read []
  rw [List.append_nil] at hread
  exact hread

end Command

theorem Change.ofEntry?_delete {key : String} (h : (Utf8.encode key).length < Nat.pow 2 32) :
    ofEntry? (Command.encode (.delete key)) = (Command.delete key).change? := by
  rw [Change.ofEntry?, Command.decode_encode_delete h]

theorem Change.nameable_of_ofEntry? {entry : Bytes} {c : Change} (h : ofEntry? entry = some c) :
    Command.Nameable c.key := by
  unfold ofEntry? at h
  split at h
  · exact Command.nameable_of_change? h
  · cases h

/-! ## 2. What a run keeps -/

theorem Table.readable_changed {t : Table} (h : ∀ e ∈ t.toList, Record.Readable e) {cs : List Change}
    (hcs : ∀ c ∈ cs, c.Readable) : ∀ e ∈ (t.changed cs).toList, Record.Readable e := by
  induction cs generalizing t with
  | nil => exact h
  | cons c cs ih =>
    obtain ⟨hc, hcs⟩ := List.forall_mem_cons.mp hcs
    exact ih (hc.apply h) hcs

theorem Table.lastOf_eq_none {key : String} {cs : List Change} (h : ∀ c ∈ cs, c.key ≠ key) :
    lastOf key cs = none := by
  cases hlast : lastOf key cs with
  | none => rfl
  | some c =>
    obtain ⟨hmem, hkey⟩ := lastOf_eq_some hlast
    exact absurd hkey (h c hmem)

theorem Snapshot.contains_decode_encode {t : Table} (h : ∀ e ∈ t.toList, Record.Readable e)
    (key : String) : (decode (encode t)).contains key = t.contains key := by
  rw [Table.contains, Table.contains, get?_decode_encode h, Option.isSome_map]

variable {σ γ : Type} [Storage σ]

theorem Store.readable_load {storage : σ} {s : Store σ} (h : load storage = .ok s) :
    ∀ e ∈ s.table.toList, Record.Readable e := by
  unfold load at h
  split at h
  · next b _ =>
    cases h
    exact Snapshot.readable_decode b
  · cases h
    exact fun _ he => absurd he List.not_mem_nil
  · cases h

namespace Node

variable {n : Node σ γ}

theorem readable_start {storage : σ} {gateway : γ} (h : start storage gateway = .ok n) :
    ∀ e ∈ n.table.toList, Record.Readable e := by
  unfold start at h
  split at h
  · next hload =>
    cases h
    exact Store.readable_load hload
  · cases h

/-- **No run brings a delimiter or a line feed into a key**, also where saves fail. -/
theorem readable_applyAll (h : ∀ e ∈ n.table.toList, Record.Readable e) (entries : List Bytes) :
    ∀ e ∈ (n.applyAll entries).2.table.toList, Record.Readable e := by
  rw [table_applyAll]
  refine Table.readable_changed h fun c hc => ?_
  obtain ⟨entry, -, hentry⟩ := List.mem_filterMap.mp hc
  exact (Change.fits_of_ofEntry? hentry).readable

/-- **A key that no command may name stays as it was loaded.** -/
theorem get?_applyAll_of_not_nameable {key : String} (h : ¬ Command.Nameable key)
    (entries : List Bytes) : (n.applyAll entries).2.table.get? key = n.table.get? key := by
  have hnever : ∀ c ∈ entries.filterMap Change.ofEntry?, c.key ≠ key := by
    intro c hc hkey
    obtain ⟨entry, -, hentry⟩ := List.mem_filterMap.mp hc
    exact h (hkey ▸ Change.nameable_of_ofEntry? hentry)
  rw [table_applyAll, Table.get?_changed, Table.lastOf_eq_none hnever]
  rfl

/-! ## 3. Which keys can be deleted -/

/-- An entry deletes a key: it is applied, and then neither the table has the key nor what is loaded from
the storage. -/
def Deletes (entry : Bytes) (key : String) (n : Node σ γ) : Prop :=
  (n.apply entry).1 = .ok true ∧ (n.apply entry).2.table.contains key = false ∧
    ∃ reloaded, Store.load (n.apply entry).2.storage = .ok reloaded ∧ reloaded.contains key = false

/-- A removal that does not fail deletes the key that was there. -/
theorem deletes_of_remove [LawfulStorage σ] {entry : Bytes} {key : String}
    (hreadable : ∀ e ∈ n.table.toList, Record.Readable e)
    (hentry : Change.ofEntry? entry = some (.remove key)) (hkey : n.table.contains key = true)
    (hsaved : ∀ f, (n.apply entry).1 ≠ .error f) : n.Deletes entry key := by
  have hrun : n.applier.applyEntry entry = ((n.apply entry).1, (n.apply entry).2.applier) := rfl
  rcases Applier.applyEntry_cases hrun with
    ⟨hnone, -, -⟩ | ⟨c, hsome, ⟨hidle, -, -⟩ | ⟨-, hr, -, htable, hsave⟩ | ⟨-, f, hr, -⟩⟩
  · cases hnone.symm.trans hentry
  · cases hsome.symm.trans hentry
    have hpresent : n.applier.store.table.contains key = true := hkey
    simp [Change.isIdle, hpresent] at hidle
  · cases hsome.symm.trans hentry
    have hgone : (n.table.erase key).contains key = false := by
      rw [Table.contains, Table.get?_erase, if_pos rfl, Option.isSome_none]
    have herased : ∀ e ∈ (n.table.erase key).toList, Record.Readable e :=
      Change.Readable.apply (c := .remove key) trivial hreadable
    have hnow : (n.apply entry).2.table = n.table.erase key := htable
    have hload : Storage.load (n.apply entry).2.storage =
        .ok (some (Snapshot.encode (n.table.erase key))) := LawfulStorage.load_save hsave
    refine ⟨hr, by rw [hnow, hgone], _, Store.load_of_snapshot hload, ?_⟩
    rw [Store.contains, Snapshot.contains_decode_encode herased, hgone]
  · exact absurd hr (hsaved f)

/-- A deletion of a key that no command may name is refused, and nothing changes. -/
theorem apply_delete_of_not_nameable {key : String} (h : ¬ Command.Nameable key)
    (hshort : (Utf8.encode key).length < Nat.pow 2 32) :
    n.apply (Command.encode (.delete key)) = (.ok false, n) := by
  have hnone : Change.ofEntry? (Command.encode (.delete key)) = none := by
    rw [Change.ofEntry?_delete hshort, Command.change?_delete_of_not_nameable h]
  rw [apply, onApplier, Applier.applyEntry_of_none hnone]

/-- Of the keys of a readable table, these can be deleted. -/
theorem deletes_delete_iff [LawfulStorage σ] {key : String}
    (hreadable : ∀ e ∈ n.table.toList, Record.Readable e) (hkey : n.table.contains key = true)
    (hshort : (Utf8.encode key).length < Nat.pow 2 32)
    (hsaved : ∀ f, (n.apply (Command.encode (.delete key))).1 ≠ .error f) :
    n.Deletes (Command.encode (.delete key)) key ↔ Command.Nameable key := by
  constructor
  · rintro ⟨happlied, -, -⟩
    by_cases hname : Command.Nameable key
    · exact hname
    · rw [apply_delete_of_not_nameable hname hshort] at happlied
      cases happlied
  · intro hname
    have hentry := (Change.ofEntry?_delete hshort).trans (Command.change?_delete hname)
    exact deletes_of_remove hreadable hentry hkey hsaved

/-- **Which keys can be deleted.**  A node starts from whatever its storage holds and applies any entries;
then its table holds a key.  The entry that asks to delete this key, if it does not fail to be saved,
deletes it exactly if the key is not empty and has no carriage return in it.  Otherwise the entry is
refused and changes nothing, and the key was loaded as it is now. -/
theorem deletes_iff [LawfulStorage σ] {storage : σ} {gateway : γ} {entries : List Bytes} {key : String}
    (hstart : start storage gateway = .ok n)
    (hkey : (n.applyAll entries).2.table.contains key = true)
    (hshort : (Utf8.encode key).length < Nat.pow 2 32)
    (hsaved : ∀ f, ((n.applyAll entries).2.apply (Command.encode (.delete key))).1 ≠ .error f) :
    ((n.applyAll entries).2.Deletes (Command.encode (.delete key)) key ↔
      key ≠ "" ∧ '\r' ∉ key.toList) ∧
    (¬ (key ≠ "" ∧ '\r' ∉ key.toList) →
      (n.applyAll entries).2.apply (Command.encode (.delete key)) =
        (.ok false, (n.applyAll entries).2) ∧
      n.table.get? key = (n.applyAll entries).2.table.get? key) := by
  have hreadable := readable_applyAll (readable_start hstart) entries
  have hdeletes := deletes_delete_iff hreadable hkey hshort hsaved
  have hname := Command.nameable_iff_of_contains hreadable hkey
  rw [← hname]
  refine ⟨hdeletes, fun h => ?_⟩
  exact ⟨apply_delete_of_not_nameable h hshort, (get?_applyAll_of_not_nameable h entries).symm⟩

/-- A loaded key is deleted after two other entries, though its value was loaded with a carriage return. -/
theorem deletes_loaded :
    let storage := Memory.ofSnapshot (some (Utf8.encode "a=1\r\r\nb=2\n"))
    let entries := [Command.encode (.set "c" "3"), Command.encode (.delete "b")]
    ∃ n : Node Memory Recording, start storage (.empty true) = .ok n ∧
      (n.applyAll entries).2.table.contains "a" = true ∧
      (n.applyAll entries).2.Deletes (Command.encode (.delete "a")) "a" := by
  intro storage entries
  let n : Node Memory Recording :=
    ⟨⟨⟨Snapshot.decode (Utf8.encode "a=1\r\r\nb=2\n"), storage⟩, .idle⟩, .empty true⟩
  have hstart : start storage (.empty true) = .ok n := rfl
  have hkey : (n.applyAll entries).2.table.contains "a" = true := by decide +kernel
  have hanswer : ((n.applyAll entries).2.apply (Command.encode (.delete "a"))).1 = .ok true := by
    decide +kernel
  have hsaved : ∀ f, ((n.applyAll entries).2.apply (Command.encode (.delete "a"))).1 ≠ .error f := by
    intro f hf
    rw [hanswer] at hf
    cases hf
  exact ⟨n, hstart, hkey, (deletes_iff hstart hkey (by decide) hsaved).1.mpr ⟨by decide, by decide⟩⟩

/-- **Two keys that cannot be deleted.**  A snapshot is loaded with a line that starts with its delimiter,
and with one that has a carriage return before it.  Both keys are there; both deletions are refused, and
the keys stay in the table and in what is loaded anew. -/
theorem loaded_key_not_deleted :
    let storage := Memory.ofSnapshot (some (Utf8.encode "=v\na\rb=w\n"))
    ∃ n : Node Memory Recording, start storage (.empty true) = .ok n ∧
      n.store.entries = [("", "v"), ("a\rb", "w")] ∧
      n.applyAll [Command.encode (.delete ""), Command.encode (.delete "a\rb")] =
        ([.ok false, .ok false], n) ∧
      ¬ n.Deletes (Command.encode (.delete "")) "" ∧
      ¬ n.Deletes (Command.encode (.delete "a\rb")) "a\rb" ∧
      n.restart = .ok n := by
  intro storage
  let n : Node Memory Recording :=
    ⟨⟨⟨Snapshot.decode (Utf8.encode "=v\na\rb=w\n"), storage⟩, .idle⟩, .empty true⟩
  have hempty : (n.apply (Command.encode (.delete ""))).1 = .ok false := by decide +kernel
  have hreturn : (n.apply (Command.encode (.delete "a\rb"))).1 = .ok false := by decide +kernel
  refine ⟨n, rfl, by decide +kernel, rfl, ?_, ?_, rfl⟩
  · rintro ⟨happlied, -⟩
    rw [hempty] at happlied
    cases happlied
  · rintro ⟨happlied, -⟩
    rw [hreturn] at happlied
    cases happlied

end Node
end Replica
