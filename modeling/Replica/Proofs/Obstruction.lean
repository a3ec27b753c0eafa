/-
# An obstructed temporary path

A save cannot make its temporary file where a directory is in its place, or where its path is too long
for the system.  Then it fails at once and changes nothing; in all other cases it succeeds.

Only the place of the state file and that of its temporary file matter, and neither moves while snapshots
are saved and the directory comes and goes (`StateFile.Stands`).  This needs a path with a file name at its
end that does not lead through its own temporary file.

* `StateFile.obstructed`, `StateFile.obstruct`: whether a save fails, and how to bring that about;
* `StateFile.Stands.save`: a save succeeds unless the temporary path is obstructed;
* `StateFile.Stands.obstruct`: the directory leaves no trace in what is loaded;
* `StateFile.stands_of_prepare`: a state file has its two places once its directory was prepared.
-/
import Replica.Proofs.Saving

namespace Replica.StateFile

open Disk (IsName Legible names SameDirectories)

/-! ## 1. The directory in the way -/

/-- Whether the temporary path is short enough for the system. -/
def tempFits (f : StateFile) : Bool :=
  f.tempPath.utf8ByteSize ≤ Disk.maxPathBytes &&
    ((Disk.names f.tempPath).getLastD "").utf8ByteSize ≤ Disk.maxNameBytes

/-- Whether no temporary file can be made: there is a directory, or the path is too long. -/
def obstructed (f : StateFile) (d : Disk) : Bool :=
  d.isDirectory f.tempPath || !f.tempFits

/-- Puts a directory in the place of the temporary file, or takes away the one that is there. -/
def obstruct (f : StateFile) (on : Bool) (d : Disk) : Disk :=
  match d.place? f.tempPath with
  | none => d
  | some t =>
    if on then d.put t .directory
    else if d.get? t = some .directory then d.removeTree t
    else d

/-! ## 2. Two places that do not move -/

/-- A path with a file name at its end. -/
def EndsInName (f : StateFile) : Prop :=
  ∃ dirs name, names f.path = dirs ++ [name] ∧ IsName name

/-- The path does not lead through the temporary file: it leads to the same place if whatever is at the
temporary path is taken away. -/
def Apart (f : StateFile) (d : Disk) : Prop :=
  ∀ t, d.place? f.tempPath = some t → (d.removeTree t).place? f.path = d.place? f.path

/-- The state file is, or would be, in one place, and its temporary file in another, if it can be made.
Nothing that happens to the temporary file changes that. -/
structure Stands (f : StateFile) (p : Location) (t? : Option Location) (d : Disk) : Prop where
  path : d.place? f.path = some p
  free : d.get? p ≠ some .directory
  temp : d.place? f.tempPath = t?
  fits : f.tempFits = t?.isSome
  beside : ∀ t ∈ t?, ¬ t <+: p
  /-- Both paths lead to the same places once the temporary one is cleared. -/
  cleared : ∀ t ∈ t?, (d.removeTree t).place? f.path = some p ∧
    (d.removeTree t).place? f.tempPath = some t

variable {f : StateFile} {p t : Location} {t? : Option Location} {d d' : Disk}

theorem Stands.of_sameDirectories (h : f.Stands p t? d) (hdirs : SameDirectories d d') :
    f.Stands p t? d' where
  path := (hdirs.place? f.path).trans h.path
  free := mt (hdirs p).mpr h.free
  temp := (hdirs.place? f.tempPath).trans h.temp
  fits := h.fits
  beside := h.beside
  cleared := by
    intro t ht
    have hne : t ≠ [] := Disk.place?_ne_nil (h.temp.trans ht)
    have hremoved := Disk.sameDirectories_removeTree hne fun l _ => hdirs l
    rw [hremoved.place?, hremoved.place?]
    exact h.cleared t ht

/-- What is loaded is what stands in the place of the state file. -/
theorem Stands.load_eq (h : f.Stands p t? d) :
    f.load d = .ok (match d.get? p with | some (.file b) => some b | _ => none) := by
  simp only [load, Disk.read, Disk.find_of_place? h.path]
  cases hget : d.get? p with
  | none => rfl
  | some e =>
    cases e with
    | directory => exact absurd hget h.free
    | file b => rfl

theorem Stands.obstructed_eq (h : f.Stands p t? d) :
    f.obstructed d = t?.all fun t => decide (d.get? t = some .directory) := by
  unfold obstructed
  rw [h.fits]
  cases t? with
  | none => simp
  | some t =>
    rw [Option.all_some, Option.isSome_some, Bool.not_true, Bool.or_false, Bool.eq_iff_iff,
      Disk.isDirectory_iff, Disk.find_of_place? h.temp, decide_eq_true_iff]
    cases d.get? t with
    | none => simp
    | some e => simp

/-- **A save succeeds unless the temporary path is obstructed**, and then it changes nothing. -/
theorem Stands.save (h : f.Stands p t? d) (b : Bytes) :
    (f.obstructed d = true ∧ ∃ message, f.save b d = (.error (.persistence message), d)) ∨
    (f.obstructed d = false ∧ ∃ d', f.save b d = (.ok (), d') ∧ f.Stands p t? d' ∧
      f.load d' = .ok (some b) ∧ f.obstructed d' = false ∧ d'.find f.tempPath = .error .notFound) := by
  cases hobstructed : f.obstructed d with
  | true =>
    refine .inl ⟨rfl, ?_⟩
    have hdir : ∀ t, d.place? f.tempPath = some t → d.get? t = some .directory := by
      intro t hplace
      obtain rfl : t? = some t := h.temp.symm.trans hplace
      rw [h.obstructed_eq] at hobstructed
      simpa using hobstructed
    obtain ⟨e, hcreate⟩ := Disk.exists_create_eq_error hdir
    exact ⟨_, save_of_blocked hcreate⟩
  | false =>
    refine .inr ⟨rfl, ?_⟩
    rw [h.obstructed_eq] at hobstructed
    obtain ⟨t, rfl, hfree⟩ : ∃ t, t? = some t ∧ d.get? t ≠ some .directory := by
      cases t? with
      | none => cases hobstructed
      | some t => exact ⟨t, rfl, by simpa using hobstructed⟩
    obtain ⟨d', hsaved, hmoved⟩ := save_of_free (b := b) h.temp hfree h.path h.free
    have hstands := h.of_sameDirectories hmoved.sameDirectories
    have hget : d'.get? t = none := by
      have hne : t ≠ p := fun heq => h.beside t rfl (heq ▸ List.prefix_refl p)
      rw [hmoved.get, if_neg hne, if_pos rfl]
    refine ⟨d', hsaved, hstands, hmoved.load, ?_, ?_⟩
    · simp [hstands.obstructed_eq, hget]
    · rw [Disk.find_of_place? hstands.temp, hget]

/-- What is at or below the temporary path makes no difference, as long as both paths lead to the same
places. -/
theorem Stands.of_below (h : f.Stands p (some t) d) (hoff : ∀ l, ¬ t <+: l → d'.get? l = d.get? l)
    (hpath : d'.place? f.path = some p) (htemp : d'.place? f.tempPath = some t) :
    f.Stands p (some t) d' ∧ f.load d' = f.load d := by
  have hp := hoff p (h.beside t rfl)
  have hstands : f.Stands p (some t) d' := by
    refine ⟨hpath, by rw [hp]; exact h.free, htemp, h.fits, h.beside, ?_⟩
    rintro _ ⟨⟩
    have hne : t ≠ [] := Disk.place?_ne_nil h.temp
    have hremoved : SameDirectories (d.removeTree t) (d'.removeTree t) := by
      refine Disk.sameDirectories_removeTree hne ?_
      intro l hl
      rw [hoff l hl]
    rw [hremoved.place?, hremoved.place?]
    exact h.cleared t rfl
  exact ⟨hstands, by rw [hstands.load_eq, h.load_eq, hp]⟩

/-- A directory in the place of the temporary file comes and goes without a trace. -/
theorem Stands.obstruct (h : f.Stands p t? d) (on : Bool) :
    f.Stands p t? (f.obstruct on d) ∧ f.load (f.obstruct on d) = f.load d ∧
      f.obstructed (f.obstruct on d) = (on || !f.tempFits) := by
  cases t? with
  | none =>
    have hsame : f.obstruct on d = d := by rw [StateFile.obstruct, h.temp]
    rw [hsame]
    exact ⟨h, rfl, by simp [h.obstructed_eq, h.fits]⟩
  | some t =>
    have hne : t ≠ [] := Disk.place?_ne_nil h.temp
    rw [StateFile.obstruct, h.temp, h.fits]
    cases on with
    | true =>
      have hget := Disk.get?_put_below d hne .directory
      have hwithin : Disk.Within d (d.put t .directory) := by
        intro l hl
        rw [hget, hl, ite_self]
      have hoff : ∀ l, ¬ t <+: l → (d.put t .directory).get? l = d.get? l := by
        intro l hl
        have hlt : l ≠ t := by
          rintro rfl
          exact hl (List.prefix_refl l)
        rw [hget, if_neg hlt]
      obtain ⟨hstands, hload⟩ := h.of_below hoff (hwithin.place? h.path) (hwithin.place? h.temp)
      exact ⟨hstands, hload, by simp [hstands.obstructed_eq, hget]⟩
    | false =>
      by_cases hdir : d.get? t = some .directory
      · have hget := Disk.get?_removeTree d hne
        obtain ⟨hpath, htemp⟩ := h.cleared t rfl
        have hoff : ∀ l, ¬ t <+: l → (d.removeTree t).get? l = d.get? l := by
          intro l hl
          rw [hget, if_neg hl]
        obtain ⟨hstands, hload⟩ := h.of_below hoff hpath htemp
        simp only [Bool.false_eq_true, if_false, if_pos hdir]
        exact ⟨hstands, hload, by simp [hstands.obstructed_eq, hget]⟩
      · simp only [Bool.false_eq_true, if_false, if_neg hdir]
        exact ⟨h, trivial, by simp [h.obstructed_eq, hdir]⟩

/-- A state file that was opened once is opened anew. -/
theorem Stands.prepare (h : f.Stands p t? d) (hname : f.EndsInName) :
    prepare f.path d = (.ok (), d) := by
  obtain ⟨dirs, name, hnames, hname⟩ := hname
  obtain ⟨hlegible, -, loc, hwalk, -⟩ := (Disk.place?_concat_iff hnames hname).mp h.path
  exact prepare_of_walk hlegible hnames hwalk

/-! ## 3. Where the two places are -/

/-- The temporary file is made beside the state file, if its path is not too long. -/
theorem place?_tempPath {dirs : List String} {name : String} {loc : Location}
    (hlegible : Legible f.path) (hnames : names f.path = dirs ++ [name])
    (hwalk : d.walk [] dirs = .ok loc) :
    d.place? f.tempPath = if f.tempFits then some (loc ++ [name ++ ".tmp"]) else none := by
  obtain ⟨hempty, hnul, -⟩ := hlegible
  have hnames := names_tempPath hnames
  have hlegible : Legible f.tempPath ↔ f.tempPath.utf8ByteSize ≤ Disk.maxPathBytes := by
    have hempty : f.tempPath ≠ "" := by
      intro h
      simp [tempPath] at h
    have hnul : '\x00' ∉ f.tempPath.toList := by
      rw [tempPath, String.toList_append, List.mem_append, not_or]
      exact ⟨hnul, by decide⟩
    simp [Legible, hempty, hnul]
  have hfits : f.tempFits = true ↔ f.tempPath.utf8ByteSize ≤ Disk.maxPathBytes ∧
      (name ++ ".tmp").utf8ByteSize ≤ Disk.maxNameBytes := by
    simp [tempFits, hnames]
  apply Option.ext
  intro l
  rw [Disk.place?_concat_iff hnames (isName_temp name), hlegible, ← and_assoc, ← hfits, hwalk]
  by_cases hshort : f.tempFits = true
  · simp [hshort, eq_comm]
  · simp [hshort]

/-- A path does not lead through its temporary file if no directory in it has that name. -/
theorem apart_of_notMem {dirs : List String} {name : String} (hnames : names f.path = dirs ++ [name])
    (hname : IsName name) (h : name ++ ".tmp" ∉ dirs) (d : Disk) : f.Apart d := by
  intro t ht
  obtain ⟨-, -, loc, -, rfl⟩ :=
    (Disk.place?_concat_iff (names_tempPath hnames) (isName_temp name)).mp ht
  have hwalk : (d.removeTree (loc ++ [name ++ ".tmp"])).walk [] dirs = d.walk [] dirs := by
    refine Disk.walk_eq_of_subset ?_ (List.Subset.refl dirs) (List.nil_subset dirs)
    intro l hl
    have hbelow : ¬ loc ++ [name ++ ".tmp"] <+: l := by
      intro hfront
      exact h (hl (hfront.subset (List.mem_append_right loc (List.mem_singleton_self _))))
    rw [Disk.get?_removeTree d (List.concat_ne_nil _ _), if_neg hbelow]
  apply Option.ext
  intro l
  rw [Disk.place?_concat_iff hnames hname, Disk.place?_concat_iff hnames hname, hwalk]

/-- Once the directory of the path was prepared, the two places are fixed. -/
theorem stands_of_prepare {d₀ : Disk} (hname : f.EndsInName)
    (hready : StateFile.prepare f.path d₀ = (.ok (), d))
    (hfile : d.find f.path = .error .notFound ∨ ∃ l b, d.find f.path = .ok (l, .file b))
    (hapart : f.Apart d) : ∃ p t?, f.Stands p t? d := by
  obtain ⟨dirs, name, hnames, hname⟩ := hname
  obtain ⟨p, hpath, hfree⟩ : ∃ p, d.place? f.path = some p ∧ d.get? p ≠ some .directory := by
    rcases hfile with habsent | ⟨l, b, hfound⟩
    · have hwalk : d.walk [] dirs ≠ .error .notFound := by
        rcases walk_of_prepare hnames hname hready with ⟨loc, hwalk⟩ | hwalk <;> simp [hwalk]
      obtain ⟨p, hpath, hnone⟩ := Disk.place?_of_find_notFound hnames hname habsent hwalk
      exact ⟨p, hpath, by simp [hnone]⟩
    · obtain ⟨hpath, hget⟩ := Disk.place?_of_find_file hfound
      exact ⟨l, hpath, by simp [hget]⟩
  obtain ⟨hlegible, -, loc, hwalk, rfl⟩ := (Disk.place?_concat_iff hnames hname).mp hpath
  have htemp := place?_tempPath hlegible hnames hwalk
  refine ⟨_, _, hpath, hfree, htemp, ?_, ?_, ?_⟩
  · cases f.tempFits <;> rfl
  · intro t ht
    obtain ⟨-, rfl⟩ : f.tempFits = true ∧ loc ++ [name ++ ".tmp"] = t := by simpa using ht
    intro hfront
    have heq := hfront.eq_of_length (by simp)
    exact ne_append_temp name (by simpa using heq.symm)
  · intro t ht
    have hcleared := (hapart t (htemp.trans ht)).trans hpath
    refine ⟨hcleared, ?_⟩
    obtain ⟨-, -, loc', hwalk', heq⟩ := (Disk.place?_concat_iff hnames hname).mp hcleared
    obtain rfl : loc = loc' := (List.append_inj' heq rfl).1
    exact (place?_tempPath hlegible hnames hwalk').trans ht

end Replica.StateFile
