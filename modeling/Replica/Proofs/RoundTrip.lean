/-
# Tables that are read back from their snapshot

A snapshot has no escapes, so what a record cannot carry is lost when the snapshot is read.  The rule
that commands are admitted by (`Record.keyFits`, `Record.valueFits`) is stricter than what the format
can carry: a carriage return hurts only at the end of a value, where it stands before the line feed.

* `Record.Survives`: what the format carries; `Record.Fits`: what is admitted, which survives;
* `Record.Readable`: what is cut where it was joined, so that only the end of a value can be lost;
* `Snapshot.get?_decode_encode`: what is read back of a readable table, value by value;
* `Snapshot.decode_encode`: a table of surviving records is read back from its snapshot;
* `Table.Fits.insert`, `Table.Fits.erase`: a table that fits keeps fitting under admitted changes.
-/
import Mathlib.Data.List.Basic
import Replica.Snapshot

namespace Replica

/-! ## 1. One record -/

namespace Record

/-- A record that is read back from its line.  The key ends at the first delimiter, the line at the
first line feed, and a carriage return directly before that belongs to the line end. -/
def Survives (e : String × String) : Prop :=
  delimiter ∉ e.1.toList ∧ '\n' ∉ e.1.toList ∧ '\n' ∉ e.2.toList ∧ e.2.toList.getLast? ≠ some '\r'

/-- A record that commands may put into a table. -/
def Fits (e : String × String) : Prop := keyFits e.1 = true ∧ valueFits e.2 = true

instance (e : String × String) : Decidable (Fits e) := inferInstanceAs (Decidable (_ ∧ _))

theorem notMem_of_any_eq_false {p : Char → Bool} {c : Char} {cs : List Char} (hc : p c = true)
    (h : cs.any p = false) : c ∉ cs := by
  intro hm
  have hany : cs.any p = true := List.any_eq_true.mpr ⟨c, hm, hc⟩
  rw [h] at hany
  exact Bool.noConfusion hany

/-- What is admitted survives. -/
theorem Fits.survives {e : String × String} (h : Fits e) : Survives e := by
  obtain ⟨hk, hv⟩ := h
  simp only [keyFits, valueFits, Bool.and_eq_true, Bool.not_eq_true'] at hk hv
  refine ⟨notMem_of_any_eq_false (by simp) hk.1, notMem_of_any_eq_false (by simp [isLineBreak]) hk.2,
    notMem_of_any_eq_false (by simp [isLineBreak]) hv, ?_⟩
  intro hlast
  exact notMem_of_any_eq_false (by simp [isLineBreak]) hv (List.mem_of_getLast? hlast)

end Record

namespace Text

/-- A line without the carriage return at its end, if it has one there. -/
def dropReturn (line : List Char) : List Char :=
  if line.getLast? = some '\r' then line.dropLast else line

theorem dropReturn_concat (front : List Char) (c : Char) :
    dropReturn (front ++ [c]) = if c = '\r' then front else front ++ [c] := by
  simp [dropReturn]

theorem dropReturn_eq_iff (line : List Char) :
    dropReturn line = line ↔ line.getLast? ≠ some '\r' := by
  rcases List.eq_nil_or_concat' line with rfl | ⟨front, c, rfl⟩
  · simp [dropReturn]
  · rw [dropReturn_concat, List.getLast?_concat]
    by_cases hc : c = '\r'
    · simp [hc]
    · simp [hc]

/-- A carriage return is lost only from what stands behind the last other character. -/
theorem dropReturn_append {c : Char} (hc : c ≠ '\r') (front back : List Char) :
    dropReturn (front ++ c :: back) = front ++ c :: dropReturn back := by
  rcases List.eq_nil_or_concat' back with rfl | ⟨back, d, rfl⟩
  · rw [dropReturn_concat, if_neg hc]
    rfl
  · have hjoin : front ++ c :: (back ++ [d]) = (front ++ c :: back) ++ [d] := by simp
    rw [hjoin, dropReturn_concat, dropReturn_concat]
    split
    · rfl
    · exact hjoin.symm

theorem LineScan.chomp_reverse (line : List Char) : chomp line.reverse = dropReturn line := by
  rcases List.eq_nil_or_concat' line with rfl | ⟨front, c, rfl⟩
  · rfl
  · rw [dropReturn_concat, List.reverse_append]
    by_cases hc : c = '\r'
    · simp [chomp, hc]
    · simp [chomp, hc]

end Text

namespace Record

/-- A record whose line is cut where it was joined. -/
def Readable (e : String × String) : Prop :=
  delimiter ∉ e.1.toList ∧ '\n' ∉ e.1.toList ∧ '\n' ∉ e.2.toList

/-- What is read back of a value after it was written. -/
def readBack (value : String) : String := String.ofList (Text.dropReturn value.toList)

/-- The line of a readable record, read again. -/
theorem lines_write {e : String × String} (h : Readable e) :
    Text.lines (write e.1 e.2 ++ ['\n']) = [write e.1 (readBack e.2)] := by
  obtain ⟨-, hkey, hvalue⟩ := h
  have hmem : '\n' ∉ write e.1 e.2 := by
    simp only [write, List.mem_append, List.mem_cons, not_or]
    exact ⟨hkey, by decide, hvalue⟩
  rw [Text.lines_singleton hmem, Text.LineScan.chomp_reverse, write, write,
    Text.dropReturn_append (by decide), readBack, String.toList_ofList]

theorem readBack_eq_iff (value : String) :
    readBack value = value ↔ value.toList.getLast? ≠ some '\r' := by
  rw [readBack, ← Text.dropReturn_eq_iff, String.ext_iff, String.toList_ofList]

theorem survives_iff (e : String × String) : Survives e ↔ Readable e ∧ readBack e.2 = e.2 := by
  rw [readBack_eq_iff]
  simp only [Survives, Readable, and_assoc]

end Record

/-! ## 2. The whole table -/

namespace Table

/-- A table whose records commands may have put there. -/
def Fits (t : Table) : Prop := ∀ e ∈ t.toList, Record.Fits e

instance (t : Table) : Decidable t.Fits := inferInstanceAs (Decidable (∀ e ∈ t.toList, Record.Fits e))

theorem fits_empty : empty.Fits := fun _ he => absurd he List.not_mem_nil

theorem Fits.insert {t : Table} (h : t.Fits) {key value : String} (hr : Record.Fits (key, value)) :
    (t.insert key value).Fits := by
  intro e he
  rcases mem_insertEntry he with rfl | he
  · exact hr
  · exact h e he

theorem Fits.erase {t : Table} (h : t.Fits) (key : String) : (t.erase key).Fits :=
  fun e he => h e (List.mem_filter.mp he).1

/-- Entries put into a table in the order of their keys; none of them replaces another. -/
theorem get?_foldl_insert {l : List (String × String)} (h : Ascending l) (t : Table) (k : String) :
    (l.foldl (fun t e => t.insert e.1 e.2) t).get? k = (valueOf k l).or (t.get? k) := by
  induction l generalizing t with
  | nil => simp [valueOf]
  | cons e l ih =>
    obtain ⟨hhead, htail⟩ := List.pairwise_cons.mp h
    rw [List.foldl_cons, ih htail, get?_insert]
    by_cases hk : e.1 = k
    · have hnone : valueOf k l = none := by
        rw [Option.eq_none_iff_forall_ne_some]
        intro v hv
        exact String.ne_of_lt (hhead (k, v) ((valueOf_eq_some_iff htail).mp hv)) hk
      simp [valueOf, hk, hnone]
    · simp [valueOf, hk]

theorem valueOf_map (f : String → String) (k : String) (l : List (String × String)) :
    valueOf k (l.map fun e => (e.1, f e.2)) = (valueOf k l).map f := by
  induction l with
  | nil => rfl
  | cons e l ih => by_cases hk : e.1 = k <;> simp [valueOf, hk, ih]

end Table

namespace Snapshot

/-- The lines of readable records are read one by one. -/
theorem filterMap_lines_flatMap : ∀ l : List (String × String), (∀ e ∈ l, Record.Readable e) →
    (Text.lines (l.flatMap fun e => Record.write e.1 e.2 ++ ['\n'])).filterMap Record.read? =
      l.map fun e => (e.1, Record.readBack e.2)
  | [], _ => rfl
  | e :: l, h => by
    have hline := Record.lines_write (h e List.mem_cons_self)
    have hrecord := Record.read?_write (Record.readBack e.2) (h e List.mem_cons_self).1
    have htail := filterMap_lines_flatMap l fun e he => h e (List.mem_cons_of_mem _ he)
    rw [List.flatMap_cons, List.append_assoc, List.singleton_append, Text.lines_append, hline,
      List.singleton_append, List.filterMap_cons_some hrecord, htail, List.map_cons]

/-- **Each value of a readable table is read back by itself.** -/
theorem get?_decode_encode {t : Table} (h : ∀ e ∈ t.toList, Record.Readable e) (k : String) :
    (decode (encode t)).get? k = (t.get? k).map Record.readBack := by
  have hascending : Ascending (t.toList.map fun e => (e.1, Record.readBack e.2)) :=
    List.pairwise_map.mpr t.ascending
  rw [decode_encode_chars, read, chars, filterMap_lines_flatMap t.toList h, Table.ofEntries,
    Table.get?_foldl_insert hascending, Table.get?_empty, Option.or_none, Table.valueOf_map]
  rfl

/-- A readable table is read back if each value is. -/
theorem decode_encode_eq_iff_readBack {t : Table} (h : ∀ e ∈ t.toList, Record.Readable e) :
    decode (encode t) = t ↔ ∀ e ∈ t.toList, Record.readBack e.2 = e.2 := by
  have hmem (k v : String) : t.get? k = some v ↔ (k, v) ∈ t.toList :=
    Table.valueOf_eq_some_iff t.ascending
  constructor
  · intro heq e he
    have hvalue := get?_decode_encode h e.1
    rw [heq, (hmem e.1 e.2).mpr he] at hvalue
    exact (Option.some.inj hvalue).symm
  · intro hback
    apply Table.ext_get?
    intro k
    rw [get?_decode_encode h]
    cases hk : t.get? k with
    | none => rfl
    | some v => exact congrArg some (hback (k, v) ((hmem k v).mp hk))

/-- **A table of surviving records is read back from its snapshot.** -/
theorem decode_encode {t : Table} (h : ∀ e ∈ t.toList, Record.Survives e) : decode (encode t) = t := by
  have hrecord (e : String × String) (he : e ∈ t.toList) := (Record.survives_iff e).mp (h e he)
  exact (decode_encode_eq_iff_readBack fun e he => (hrecord e he).1).mpr fun e he => (hrecord e he).2

theorem decode_encode_of_fits {t : Table} (h : t.Fits) : decode (encode t) = t :=
  decode_encode fun e he => (h e he).survives

end Snapshot
end Replica
