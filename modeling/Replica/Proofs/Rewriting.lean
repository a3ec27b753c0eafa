/-
# Snapshots that are read, and written anew

Reading makes a table of any bytes, and the first save after it puts what that table is written as in
their place.  What is read is almost what the format can carry: no key holds a delimiter, and neither
keys nor values hold a line feed (`Snapshot.readable_decode`).  One thing is left that can be lost.  A
line end takes a single carriage return with it, so that a line with two of them before its line
feed, or a last line without a line feed, leaves a value that ends in one; the next time the value is
written, that one stands before a line feed and is taken as well.

* `Snapshot.decode_encode_eq_iff`: the tables that are read back from what they are written as;
* `Snapshot.rewrite_keeps_iff`: when the snapshot that a store started from, saved anew with one
  change in it, still gives all else that it gave.
-/
import Replica.Proofs.Change
import Replica.Proofs.LawfulStorage

namespace Replica

/-! ## 1. What reading gives -/

namespace Text

theorem mem_of_mem_dropReturn {c : Char} {line : List Char} (h : c ∈ dropReturn line) : c ∈ line := by
  unfold dropReturn at h
  split at h
  · exact (List.dropLast_sublist line).subset h
  · exact h

namespace LineScan

/-- No line that was found has a line feed in it, nor has the line under way. -/
def Clean (s : LineScan) : Prop := (∀ line ∈ s.finished, '\n' ∉ line) ∧ '\n' ∉ s.current

theorem notMem_chomp {cs : List Char} (h : '\n' ∉ cs) : '\n' ∉ chomp cs := by
  rw [← List.reverse_reverse cs, chomp_reverse]
  intro hmem
  exact h (List.mem_reverse.mp (mem_of_mem_dropReturn hmem))

theorem Clean.step {s : LineScan} (h : s.Clean) (c : Char) : (s.step c).Clean := by
  obtain ⟨hfinished, hcurrent⟩ := h
  unfold LineScan.step
  split
  · refine ⟨?_, List.not_mem_nil⟩
    intro line hline
    rcases List.mem_cons.mp hline with rfl | hline
    · exact notMem_chomp hcurrent
    · exact hfinished line hline
  · next hc => exact ⟨hfinished, fun hmem => (List.mem_cons.mp hmem).elim (hc ·.symm) hcurrent⟩

theorem Clean.foldl {s : LineScan} (h : s.Clean) (cs : List Char) : (cs.foldl LineScan.step s).Clean := by
  induction cs generalizing s with
  | nil => exact h
  | cons c cs ih => exact ih (h.step c)

theorem Clean.lines {s : LineScan} (h : s.Clean) : ∀ line ∈ s.lines, '\n' ∉ line := by
  obtain ⟨hfinished, hcurrent⟩ := h
  intro line hline
  unfold LineScan.lines at hline
  split at hline
  · exact hfinished line (List.mem_reverse.mp hline)
  · rcases List.mem_cons.mp (List.mem_reverse.mp hline) with rfl | hline
    · exact fun hmem => hcurrent (List.mem_reverse.mp hmem)
    · exact hfinished line hline

end LineScan

theorem notMem_of_mem_lines {cs line : List Char} (h : line ∈ lines cs) : '\n' ∉ line := by
  have hstart : LineScan.Clean ⟨[], []⟩ := ⟨by simp, List.not_mem_nil⟩
  exact (hstart.foldl cs).lines line h

end Text

theorem Record.readable_of_read? {line : List Char} {e : String × String} (hline : '\n' ∉ line)
    (h : read? line = some e) : Readable e := by
  unfold read? at h
  obtain ⟨⟨key, value⟩, hcut, rfl⟩ := Option.map_eq_some_iff.mp h
  obtain ⟨hkey, rfl⟩ := Text.cut?_eq_some hcut
  simp only [List.mem_append, List.mem_cons, not_or] at hline
  simpa [Readable] using ⟨hkey, hline.1, hline.2.2⟩

namespace Table

theorem mem_of_mem_foldl_insert {l : List (String × String)} {t : Table} {e : String × String}
    (h : e ∈ (l.foldl (fun t e => t.insert e.1 e.2) t).toList) : e ∈ t.toList ∨ e ∈ l := by
  induction l generalizing t with
  | nil => exact .inl h
  | cons x l ih =>
    rcases ih h with h | h
    · rcases mem_insertEntry h with rfl | h
      · exact .inr List.mem_cons_self
      · exact .inl h
    · exact .inr (List.mem_cons_of_mem x h)

theorem mem_of_mem_ofEntries {l : List (String × String)} {e : String × String}
    (h : e ∈ (ofEntries l).toList) : e ∈ l :=
  (mem_of_mem_foldl_insert h).resolve_left List.not_mem_nil

end Table

/-- **Reading gives readable records**, whatever bytes it is given. -/
theorem Snapshot.readable_decode (b : Bytes) : ∀ e ∈ (decode b).toList, Record.Readable e := by
  intro e he
  obtain ⟨line, hline, hread⟩ := List.mem_filterMap.mp (Table.mem_of_mem_ofEntries he)
  exact Record.readable_of_read? (Text.notMem_of_mem_lines hline) hread

/-! ## 2. Which tables are read back -/

namespace Snapshot

/-- **The format carries these tables and no others**: no key has a delimiter or a line feed in it, and
no value has a line feed in it or a carriage return at its end.  All that is admitted is among them. -/
theorem decode_encode_eq_iff (t : Table) :
    (decode (encode t) = t ↔ ∀ e ∈ t.toList, Record.Survives e) ∧
    (t.Fits → decode (encode t) = t) := by
  refine ⟨⟨?_, decode_encode⟩, decode_encode_of_fits⟩
  intro heq e he
  -- What broken records might recombine into is read from bytes as well, so it is readable.
  have hreadable : ∀ e ∈ t.toList, Record.Readable e := heq ▸ readable_decode (encode t)
  exact (Record.survives_iff e).mpr
    ⟨hreadable e he, (decode_encode_eq_iff_readBack hreadable).mp heq e he⟩

/-- The empty key with the empty value is carried, and so is a value with delimiters in it. -/
theorem decode_encode_eq_of_empty_key :
    (Table.ofEntries [("", ""), ("k", "=a=b")]).Fits ∧
      decode (encode (.ofEntries [("", ""), ("k", "=a=b")])) = .ofEntries [("", ""), ("k", "=a=b")] :=
  ⟨by decide, (decode_encode_eq_iff _).2 (by decide)⟩

/-- A carriage return is lost at the end of a value, and nowhere else. -/
example :
    decode (encode (.ofEntries [("k\r", "\rv")])) = .ofEntries [("k\r", "\rv")] ∧
      decode (encode (.ofEntries [("k", "v\r")])) = .ofEntries [("k", "v")] := by
  decide

end Snapshot

/-! ## 3. A loaded snapshot that is written anew -/

theorem Record.map_readBack_eq_iff (value? : Option String) :
    value?.map readBack = value? ↔ ∀ v, value? = some v → v.toList.getLast? ≠ some '\r' := by
  cases value? with
  | none => simp
  | some v => simp [readBack_eq_iff]

namespace Change

/-- A change that leaves a readable table readable. -/
def Readable : Change → Prop
  | set key value => Record.Readable (key, value)
  | remove _ => True

theorem Readable.apply {c : Change} (hc : c.Readable) {t : Table}
    (ht : ∀ e ∈ t.toList, Record.Readable e) : ∀ e ∈ (c.apply t).toList, Record.Readable e := by
  intro e he
  cases c with
  | set key value =>
    rcases Table.mem_insertEntry he with rfl | he
    · exact hc
    · exact ht e he
  | remove key => exact ht e (List.mem_filter.mp he).1

/-- All admitted changes are among them. -/
theorem Fits.readable {c : Change} (h : c.Fits) : c.Readable := by
  cases c with
  | set key value => exact ((Record.survives_iff _).mp (Record.Fits.survives h)).1
  | remove key => trivial

end Change

namespace Store

variable {σ : Type} [Storage σ]

/-- A change that was saved is what the next store is loaded from. -/
theorem load_after_run [LawfulStorage σ] {c : Change} {s s' : Store σ} (h : c.run s = (.ok true, s')) :
    load s'.storage = .ok ⟨Snapshot.decode (Snapshot.encode (c.apply s.table)), s'.storage⟩ := by
  rcases Change.run_cases h with ⟨-, hidle, -⟩ | ⟨-, -, -, hsave⟩ | ⟨-, _, hfailed, -⟩
  · cases hidle
  · exact load_of_snapshot (LawfulStorage.load_save hsave)
  · cases hfailed

end Store

namespace Snapshot

variable {σ : Type} [Storage σ] [LawfulStorage σ]

/-- **What a rewrite keeps of a loaded snapshot.**  Whatever bytes a storage holds, a store starts from
what is read of them.  That table is read back from what it is written as exactly if no value in it
ends in a carriage return; each value that does loses one, and nothing else is lost.  So a store that
has saved a change of one key, with a record that is readable, comes back with all other values that
it started from exactly if none of those ends in a carriage return. -/
theorem rewrite_keeps_iff {storage : σ} {b : Bytes} (hload : Storage.load storage = .ok (some b)) :
    (decode (encode (decode b)) = decode b ↔
      ∀ e ∈ (decode b).toList, e.2.toList.getLast? ≠ some '\r') ∧
    (∀ k, (decode (encode (decode b))).get? k = ((decode b).get? k).map Record.readBack) ∧
    Store.load storage = .ok ⟨decode b, storage⟩ ∧
    ∀ {c : Change} {s : Store σ}, c.Readable → c.run ⟨decode b, storage⟩ = (.ok true, s) →
      ∃ reloaded, Store.load s.storage = .ok reloaded ∧
        ((∀ k, k ≠ c.key → reloaded.get? k = (decode b).get? k) ↔
          ∀ k, k ≠ c.key → ∀ v, (decode b).get? k = some v → v.toList.getLast? ≠ some '\r') := by
  have hreadable := readable_decode b
  refine ⟨?_, get?_decode_encode hreadable, Store.load_of_snapshot hload, ?_⟩
  · simp only [decode_encode_eq_iff_readBack hreadable, Record.readBack_eq_iff]
  intro c s hc hr
  refine ⟨_, Store.load_after_run hr, forall_congr' fun k => forall_congr' fun hk => ?_⟩
  have hkept : (c.apply (decode b)).get? k = (decode b).get? k := by
    rw [Change.get?_apply, if_neg (Ne.symm hk)]
  have hvalue := get?_decode_encode (hc.apply hreadable) k
  rw [hkept] at hvalue
  simp only [Store.get?, hvalue]
  exact Record.map_readBack_eq_iff _

/-- A snapshot with both kinds of line ends, a line that is no record, and a carriage return inside a
value. -/
def foreign : Bytes := Utf8.encode "a=1\r\nnoise\nb=x\ry\n"

/-- A third key is set, and the two that it holds come through the rewrite. -/
theorem rewrite_keeps_foreign :
    Storage.load (Memory.ofSnapshot (some foreign)) = .ok (some foreign) ∧
    decode (encode (decode foreign)) = decode foreign ∧
    ∃ s reloaded, (Change.set "c" "3").run ⟨decode foreign, Memory.ofSnapshot (some foreign)⟩ =
        (.ok true, s) ∧
      Store.load s.storage = .ok reloaded ∧ reloaded.get? "b" = some "x\ry" := by
  have hload : Storage.load (Memory.ofSnapshot (some foreign)) = .ok (some foreign) := rfl
  obtain ⟨hkept, -, -, hreload⟩ := rewrite_keeps_iff hload
  have hends : ∀ e ∈ (decode foreign).toList, e.2.toList.getLast? ≠ some '\r' := by decide
  have hvalue : (decode foreign).get? "b" = some "x\ry" := by decide
  have hfits : (Change.set "c" "3").Fits := ⟨rfl, rfl⟩
  have hrun : (Change.set "c" "3").run ⟨decode foreign, Memory.ofSnapshot (some foreign)⟩ =
      (.ok true, _) := rfl
  obtain ⟨reloaded, hreloaded, hvalues⟩ := hreload hfits.readable hrun
  refine ⟨hload, hkept.mpr hends, _, reloaded, hrun, hreloaded, ?_⟩
  rw [← hvalue]
  refine hvalues.mpr ?_ "b" (by decide)
  intro k _ v hv
  exact hends (k, v) ((Table.valueOf_eq_some_iff (Table.ascending _)).mp hv)

/-- **A carriage return is lost.**  The value is read with one at its end, as its line ends in two; after
another key was set and a store loaded anew, it is gone. -/
theorem rewrite_drops_carriage_return :
    decode (encode (decode (Utf8.encode "k=v\r\r\n"))) ≠ decode (Utf8.encode "k=v\r\r\n") ∧
    ∃ s s' reloaded, Store.load (Memory.ofSnapshot (some (Utf8.encode "k=v\r\r\n"))) = .ok s ∧
      s.set "other" "1" = (.ok (), s') ∧ Store.load s'.storage = .ok reloaded ∧
      s.get? "k" = some "v\r" ∧ reloaded.get? "k" = some "v" :=
  ⟨by decide, _, _, _, rfl, rfl, rfl, rfl, rfl⟩

end Snapshot
end Replica
