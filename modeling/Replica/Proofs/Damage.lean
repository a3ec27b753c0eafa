/-
# Damage in a snapshot stays in its line

A snapshot is read as a whole: first the text is repaired, then it is cut into lines, and then each
line is cut at its first delimiter.  None of this looks across a line feed, so a snapshot may be cut
after any line feed and read in two parts, of which the second one wins.  A line that is damaged, or
put in between two others, matters to no key but the one that it names.

* `Table.override`: the entries of one table put into another;
* `Snapshot.decode_append_lineFeed`: a snapshot that is read in two parts;
* `Snapshot.Names`: the key of a line;
* `Snapshot.damage_stays_in_line`: what follows for lines that are put in or damaged.
-/
import Replica.Proofs.Repair
import Replica.Proofs.Rewriting

namespace Replica

/-! ## 1. Entries put into a table -/

namespace Table

/-- The table with the entries of another one put in, which win. -/
def override (t s : Table) : Table := s.toList.foldl (fun t e => t.insert e.1 e.2) t

theorem get?_override (t s : Table) (k : String) :
    (t.override s).get? k = (s.get? k).or (t.get? k) :=
  get?_foldl_insert s.ascending t k

theorem empty_override (t : Table) : empty.override t = t := by
  apply ext_get?
  intro k
  rw [get?_override, get?_empty, Option.or_none]

/-- Entries put into a table one by one, also some of the same key. -/
theorem get?_insertAll (l : List (String × String)) (t : Table) (k : String) :
    (l.foldl (fun t e => t.insert e.1 e.2) t).get? k = ((ofEntries l).get? k).or (t.get? k) := by
  induction l using List.reverseRecOn with
  | nil => rfl
  | append_singleton l e ih =>
    have hlast : (ofEntries (l ++ [e])).get? k = if e.1 = k then some e.2 else (ofEntries l).get? k := by
      rw [ofEntries, List.foldl_concat, get?_insert, ← ofEntries]
    rw [List.foldl_concat, get?_insert, ih, hlast]
    by_cases hk : e.1 = k
    · rw [if_pos hk, if_pos hk, Option.some_or]
    · rw [if_neg hk, if_neg hk]

theorem ofEntries_append (l m : List (String × String)) :
    ofEntries (l ++ m) = (ofEntries l).override (ofEntries m) := by
  apply ext_get?
  intro k
  rw [get?_override, ofEntries, List.foldl_append, get?_insertAll]
  rfl

theorem get?_ofEntries_eq_none {l : List (String × String)} {k : String} (h : ∀ v, (k, v) ∉ l) :
    (ofEntries l).get? k = none := by
  rw [Option.eq_none_iff_forall_ne_some]
  intro v hv
  exact h v (mem_of_mem_ofEntries ((valueOf_eq_some_iff (ofEntries l).ascending).mp hv))

end Table

/-! ## 2. One line -/

theorem Text.dropReturn_cases (line : List Char) :
    dropReturn line = line ∨ line = dropReturn line ++ ['\r'] := by
  rcases List.eq_nil_or_concat' line with rfl | ⟨front, c, rfl⟩
  · exact .inl rfl
  · rw [dropReturn_concat]
    split
    · next hc => exact .inr (by rw [hc])
    · exact .inl rfl

namespace Record

/-- The key of a line: what stands before the first delimiter in it. -/
def key? (line : List Char) : Option String := (read? line).map Prod.fst

theorem key?_eq_some_iff {line : List Char} {key : String} :
    key? line = some key ↔
      delimiter ∉ key.toList ∧ ∃ rest, line = key.toList ++ delimiter :: rest := by
  constructor
  · intro h
    obtain ⟨⟨_, value⟩, hread, rfl⟩ := Option.map_eq_some_iff.mp h
    obtain ⟨⟨front, rest⟩, hcut, heq⟩ := Option.map_eq_some_iff.mp hread
    obtain ⟨hfront, rfl⟩ := Text.cut?_eq_some hcut
    cases heq
    rw [String.toList_ofList]
    exact ⟨hfront, rest, rfl⟩
  · rintro ⟨hkey, rest, rfl⟩
    simp [key?, read?, Text.cut?_append hkey]

theorem key?_of_read? {line : List Char} {key value : String} (h : read? line = some (key, value)) :
    key? line = some key := by
  rw [key?, h]
  rfl

/-- The end of a line has no part in its key. -/
theorem key?_of_dropReturn {line : List Char} {key : String}
    (h : key? (Text.dropReturn line) = some key) : key? line = some key := by
  obtain ⟨hkey, rest, hline⟩ := key?_eq_some_iff.mp h
  rcases Text.dropReturn_cases line with hsame | hreturn
  · rwa [hsame] at h
  · refine key?_eq_some_iff.mpr ⟨hkey, rest ++ ['\r'], ?_⟩
    rw [hreturn, hline, List.append_assoc, List.cons_append]

end Record

namespace Snapshot

/-- The byte that ends a line. -/
def lineFeed : UInt8 := 0x0A

/-- The byte of the delimiter. -/
def delimiter : UInt8 := 0x3D

/-- The key of a line, which is some bytes without a line feed. -/
def Names (line : Bytes) (key : String) : Prop := Record.key? (Utf8.repair line).toList = some key

instance (line : Bytes) (key : String) : Decidable (Names line key) :=
  inferInstanceAs (Decidable (_ = _))

theorem notMem_repair {line : Bytes} (h : lineFeed ∉ line) : '\n' ∉ (Utf8.repair line).toList :=
  fun hmem => h (Utf8.mem_of_mem_repair (by decide) hmem)

/-- Without a delimiter, a line has no key. -/
theorem not_names_of_notMem {line : Bytes} (h : delimiter ∉ line) (key : String) : ¬ Names line key := by
  intro hnames
  obtain ⟨-, rest, hline⟩ := Record.key?_eq_some_iff.mp hnames
  refine h (Utf8.mem_of_mem_repair (c := Record.delimiter) (by decide) ?_)
  rw [hline]
  simp

/-- A line gives no other key than its own, whatever ends it. -/
theorem get?_decode_line {line : Bytes} (h : lineFeed ∉ line) {key : String} (hkey : ¬ Names line key) :
    (decode line).get? key = none ∧ (decode (line ++ [lineFeed])).get? key = none := by
  have hclean := notMem_repair h
  have htext : (Utf8.repair (line ++ [lineFeed])).toList = (Utf8.repair line).toList ++ ['\n'] :=
    Utf8.toList_repair_append (by decide) line []
  constructor
  · refine Table.get?_ofEntries_eq_none ?_
    intro value hmem
    obtain ⟨text, htext, hread⟩ := List.mem_filterMap.mp hmem
    rw [Text.lines_of_notMem hclean] at htext
    split at htext
    · cases htext
    · rw [List.mem_singleton.mp htext] at hread
      exact hkey (Record.key?_of_read? hread)
  · refine Table.get?_ofEntries_eq_none ?_
    intro value hmem
    obtain ⟨text, hline, hread⟩ := List.mem_filterMap.mp hmem
    rw [htext, Text.lines_singleton hclean, Text.LineScan.chomp_reverse] at hline
    rw [List.mem_singleton.mp hline] at hread
    exact hkey (Record.key?_of_dropReturn (Record.key?_of_read? hread))

/-- A line without a delimiter gives nothing. -/
theorem decode_noise {line : Bytes} (h : delimiter ∉ line) (h' : lineFeed ∉ line) :
    decode (line ++ [lineFeed]) = .empty := by
  apply Table.ext_get?
  intro key
  exact (get?_decode_line h' (not_names_of_notMem h key)).2

/-! ## 3. Many lines -/

/-- **A snapshot may be read in two parts**, if it is cut after a line feed. -/
theorem decode_append_lineFeed (front back : Bytes) :
    decode (front ++ lineFeed :: back) = (decode (front ++ [lineFeed])).override (decode back) := by
  have hlf : lineFeed.toNat < 0x80 := by decide
  simp only [decode, read, Utf8.toList_repair_append hlf]
  rw [← Table.ofEntries_append, ← List.filterMap_append]
  exact congrArg (fun ls => Table.ofEntries (List.filterMap Record.read? ls)) (Text.lines_append _ _)

/-- A line may begin after these bytes. -/
def AtLineStart (front : Bytes) : Prop := front = [] ∨ ∃ before, front = before ++ [lineFeed]

/-- A line may end before these bytes. -/
def AtLineEnd (back : Bytes) : Prop := back = [] ∨ ∃ after, back = lineFeed :: after

theorem decode_append {front : Bytes} (h : AtLineStart front) (back : Bytes) :
    decode (front ++ back) = (decode front).override (decode back) := by
  rcases h with rfl | ⟨before, rfl⟩
  · exact (Table.empty_override (decode back)).symm
  · rw [List.append_assoc]
    exact decode_append_lineFeed before back

/-- From a line on, each key that the line does not name has the value that the lines after it give. -/
theorem get?_decode_line_append {line back : Bytes} (h : lineFeed ∉ line) (hback : AtLineEnd back)
    {key : String} (hkey : ¬ Names line key) :
    (decode (line ++ back)).get? key = (decode back).get? key := by
  obtain ⟨hopen, hclosed⟩ := get?_decode_line h hkey
  rcases hback with rfl | ⟨after, rfl⟩
  · rw [List.append_nil, hopen]
    rfl
  · have hblank : decode ([] ++ lineFeed :: after) = _ := decode_append_lineFeed [] after
    rw [List.nil_append] at hblank
    rw [decode_append_lineFeed, Table.get?_override, hclosed, hblank, Table.get?_override]
    rfl

/-- **Damage stays in its line.**  A snapshot cut after a line feed is read as its first part, with the
entries of the second put in.  So a line without a delimiter may be put in where a line begins, and
nothing else is read; and while a line is damaged, with no line feed lost or won, all keys keep their
values but those that the line names before or after. -/
theorem damage_stays_in_line :
    (∀ front back, decode (front ++ lineFeed :: back) =
      (decode (front ++ [lineFeed])).override (decode back)) ∧
    (∀ front noise back, AtLineStart front → delimiter ∉ noise → lineFeed ∉ noise →
      decode (front ++ (noise ++ [lineFeed]) ++ back) = decode (front ++ back)) ∧
    ∀ front line damaged back, AtLineStart front → AtLineEnd back →
      lineFeed ∉ line → lineFeed ∉ damaged →
      ∀ key, ¬ Names line key → ¬ Names damaged key →
        (decode (front ++ line ++ back)).get? key = (decode (front ++ damaged ++ back)).get? key := by
  refine ⟨decode_append_lineFeed, ?_, ?_⟩
  · intro front noise back hfront hdelimiter hline
    have hnoise : decode (noise ++ lineFeed :: back) = decode back := by
      rw [decode_append_lineFeed, decode_noise hdelimiter hline, Table.empty_override]
    rw [List.append_assoc, List.append_assoc, List.singleton_append, decode_append hfront, hnoise,
      ← decode_append hfront]
  · intro front line damaged back hfront hback hline hdamaged key hold hnew
    rw [List.append_assoc, List.append_assoc, decode_append hfront, decode_append hfront,
      Table.get?_override, Table.get?_override, get?_decode_line_append hline hback hold,
      get?_decode_line_append hdamaged hback hnew]

/-- Between two records there is a line that loses its text to bytes that begin a sequence, right before
its delimiter and right before its line feed; what stands below it is read as before. -/
theorem damage_stays_in_line_unfinished :
    let whole := Utf8.encode "a=1\n" ++ Utf8.encode "k=v" ++ Utf8.encode "\nb=2\n"
    let damaged := Utf8.encode "a=1\n" ++ [0xE2, 0x3D, 0xF0, 0x90] ++ Utf8.encode "\nb=2\n"
    ¬ Names (Utf8.encode "k=v") "b" ∧ ¬ Names [0xE2, 0x3D, 0xF0, 0x90] "b" ∧
      (decode whole).get? "b" = some "2" ∧ (decode damaged).get? "b" = some "2" := by
  intro whole damaged
  have hold : ¬ Names (Utf8.encode "k=v") "b" := by decide
  have hnew : ¬ Names [0xE2, 0x3D, 0xF0, 0x90] "b" := by decide
  have hvalue : (decode whole).get? "b" = some "2" := by decide
  have hsame : (decode whole).get? "b" = (decode damaged).get? "b" :=
    damage_stays_in_line.2.2 _ _ _ _ (.inr ⟨Utf8.encode "a=1", by decide⟩)
      (.inr ⟨Utf8.encode "b=2\n", by decide⟩) (by decide) (by decide) "b" hold hnew
  exact ⟨hold, hnew, hvalue, hsame.symm.trans hvalue⟩

end Snapshot
end Replica
