/-
# A state file on its disk

A save of a state file makes a second file beside it, fills it, and moves it into place.  No step makes
or takes away a directory, so both paths lead to the same places before and after every step; and up to
the move only the second file has changed, which the path of the state file never leads through.

* `Disk.place?`: where the file at a path is, or would be;
* `StateFile.find_path_eq`: what stands at the temporary path has no part in what the path finds;
* `StateFile.prepare_of_walk`, `StateFile.walk_of_prepare`: a directory that is there is left alone, and
  one that was prepared is there;
* `StateFile.Pending.runSteps`: until the move, the disk is as it was or has a temporary file;
* `StateFile.runSteps_saveSteps`: a whole save moves the new snapshot into place, or fails before that;
* `StateFile.load_save`: what a state file was given last is what it gives back.
-/
import Replica.Proofs.Paths
import Replica.Storage.StateFile

namespace Replica

/-! ## 1. A disk on which only files change -/

namespace Disk

/-- Two disks with the same directories. -/
def SameDirectories (d d' : Disk) : Prop :=
  ∀ loc, d.get? loc = some .directory ↔ d'.get? loc = some .directory

theorem SameDirectories.within {d d' : Disk} (h : SameDirectories d d') : Within d d' :=
  fun loc => (h loc).mp

theorem SameDirectories.symm {d d' : Disk} (h : SameDirectories d d') : SameDirectories d' d :=
  fun loc => (h loc).symm

/-- Something else in a place, but a directory neither before nor after. -/
theorem sameDirectories_of_eq_off {d d' : Disk} {t : Location} (hsame : ∀ l, l ≠ t → d'.get? l = d.get? l)
    (h : d.get? t ≠ some .directory) (h' : d'.get? t ≠ some .directory) : SameDirectories d d' := by
  intro l
  by_cases hl : l = t
  · rw [hl]
    exact iff_of_false h h'
  · rw [hsame l hl]

/-- Whatever is at or below a place that is taken away. -/
theorem sameDirectories_removeTree {d d' : Disk} {t : Location} (ht : t ≠ [])
    (h : ∀ l, ¬ t <+: l → (d.get? l = some .directory ↔ d'.get? l = some .directory)) :
    SameDirectories (d.removeTree t) (d'.removeTree t) := by
  intro l
  rw [get?_removeTree d ht, get?_removeTree d' ht]
  split
  · exact Iff.rfl
  · next hl => exact h l hl

/-- Below the root, an entry is put where it is put and nowhere else. -/
theorem get?_put_below (d : Disk) {t : Location} (h : t ≠ []) (e : Entry) (l : Location) :
    (d.put t e).get? l = if l = t then some e else d.get? l := by
  by_cases hl : l = []
  · rw [hl, if_neg (Ne.symm h)]
    rfl
  · exact get?_put d t e hl

theorem get?_remove_below (d : Disk) {t : Location} (h : t ≠ []) (l : Location) :
    (d.remove t).get? l = if l = t then none else d.get? l := by
  by_cases hl : l = []
  · rw [hl, if_neg (Ne.symm h)]
    rfl
  · exact get?_remove d hl

/-- Where the file is that a path leads to, whether or not there is one. -/
def place? (d : Disk) (path : String) : Option Location :=
  match d.resolve path with
  | .ok (.child loc name false) => some (loc ++ [name])
  | _ => none

theorem place?_eq_some_iff {d : Disk} {path : String} {l : Location} :
    d.place? path = some l ↔
      ∃ loc name, l = loc ++ [name] ∧ d.resolve path = .ok (.child loc name false) := by
  unfold place?
  constructor
  · intro h
    split at h
    · next loc name hresolve => cases h; exact ⟨loc, name, rfl, hresolve⟩
    · cases h
  · rintro ⟨loc, name, rfl, hresolve⟩
    rw [hresolve]

theorem place?_ne_nil {d : Disk} {path : String} {l : Location} (h : d.place? path = some l) : l ≠ [] := by
  obtain ⟨loc, name, rfl, -⟩ := place?_eq_some_iff.mp h
  simp

theorem Within.place? {d d' : Disk} (h : Within d d') {path : String} {l : Location}
    (hl : d.place? path = some l) : d'.place? path = some l := by
  obtain ⟨loc, name, hplace, hresolve⟩ := place?_eq_some_iff.mp hl
  exact place?_eq_some_iff.mpr ⟨loc, name, hplace, h.resolve hresolve⟩

theorem SameDirectories.place? {d d' : Disk} (h : SameDirectories d d') (path : String) :
    d'.place? path = d.place? path := by
  apply Option.ext
  intro l
  exact ⟨h.symm.within.place?, h.within.place?⟩

/-- The file at a path is in the directory where the walk along all names but the last one ends. -/
theorem place?_concat_iff {d : Disk} {path name : String} {dirs : List String} {l : Location}
    (hnames : names path = dirs ++ [name]) (hname : IsName name) :
    d.place? path = some l ↔ Legible path ∧ name.utf8ByteSize ≤ maxNameBytes ∧
      ∃ loc, d.walk [] dirs = .ok loc ∧ l = loc ++ [name] := by
  rw [place?_eq_some_iff]
  constructor
  · rintro ⟨loc, last, rfl, hresolve⟩
    have hlegible := legible_of_resolve hresolve
    rw [resolve_concat hlegible hnames hname] at hresolve
    cases hwalk : d.walk [] dirs with
    | error e => rw [hwalk] at hresolve; cases hresolve
    | ok loc' =>
      rw [hwalk] at hresolve
      simp only [bind, Except.bind] at hresolve
      split at hresolve
      · cases hresolve
      · next hlong => cases hresolve; exact ⟨hlegible, Nat.not_lt.mp hlong, _, rfl, rfl⟩
  · rintro ⟨hlegible, hshort, loc, hwalk, rfl⟩
    refine ⟨loc, name, rfl, ?_⟩
    rw [resolve_concat hlegible hnames hname, hwalk]
    exact if_neg (Nat.not_lt.mpr hshort)

theorem find_of_place? {d : Disk} {path : String} {l : Location} (h : d.place? path = some l) :
    d.find path = match d.get? l with
      | none => .error .notFound
      | some e => .ok (l, e) := by
  obtain ⟨loc, name, rfl, hresolve⟩ := place?_eq_some_iff.mp h
  simp only [find, hresolve, bind, Except.bind]
  cases d.get? (loc ++ [name]) with
  | none => rfl
  | some e => cases e <;> rfl

theorem place?_of_find_file {d : Disk} {path : String} {l : Location} {b : Bytes}
    (h : d.find path = .ok (l, .file b)) : d.place? path = some l ∧ d.get? l = some (.file b) := by
  obtain ⟨loc, name, rfl, hresolve, hfile⟩ := resolve_of_find_file h
  exact ⟨place?_eq_some_iff.mpr ⟨loc, name, rfl, hresolve⟩, hfile⟩

/-- A path that finds nothing, though the walk to its last name goes through, leads to a free place. -/
theorem place?_of_find_notFound {d : Disk} {path name : String} {dirs : List String}
    (hnames : names path = dirs ++ [name]) (hname : IsName name)
    (hfind : d.find path = .error .notFound) (hwalk : d.walk [] dirs ≠ .error .notFound) :
    ∃ l, d.place? path = some l ∧ d.get? l = none := by
  have hlegible := legible_of_find_notFound hfind (ne_empty_of_names hnames hname)
  rw [find_concat hlegible hnames hname] at hfind
  cases hloc : d.walk [] dirs with
  | error e =>
    rw [hloc] at hfind
    cases hfind
    exact absurd hloc hwalk
  | ok loc =>
    rw [hloc] at hfind
    simp only [bind, Except.bind] at hfind
    split at hfind
    · cases hfind
    · next hlong =>
      split at hfind
      · next hnone =>
        exact ⟨_, (place?_concat_iff hnames hname).mpr ⟨hlegible, Nat.not_lt.mp hlong, loc, hloc, rfl⟩,
          hnone⟩
      · cases hfind

/-- A file can be made where no directory is. -/
theorem create_eq_ok_iff {d d' : Disk} {path : String} {t : Location} :
    d.create path = .ok (t, d') ↔
      d.place? path = some t ∧ d.get? t ≠ some .directory ∧ d' = d.put t (.file []) := by
  unfold create place?
  cases d.resolve path with
  | error e => simp [bind, Except.bind]
  | ok target =>
    match target with
    | .here _ => simp [bind, Except.bind]
    | .child _ _ true => simp [bind, Except.bind]
    | .child loc name false =>
      simp only [bind, Except.bind, Option.some.injEq]
      split
      · next hdir =>
        refine iff_of_false (by simp) ?_
        rintro ⟨rfl, hfree, -⟩
        exact hfree hdir
      · next hfree =>
        constructor
        · intro h
          cases h
          exact ⟨rfl, hfree, rfl⟩
        · rintro ⟨rfl, -, rfl⟩
          rfl

theorem exists_create_eq_error {d : Disk} {path : String}
    (h : ∀ t, d.place? path = some t → d.get? t = some .directory) :
    ∃ e, d.create path = .error e := by
  cases hcreate : d.create path with
  | error e => exact ⟨e, rfl⟩
  | ok made =>
    obtain ⟨hplace, hfree, -⟩ := create_eq_ok_iff.mp hcreate
    exact absurd (h _ hplace) hfree

/-- A file can be moved to where no directory is. -/
theorem rename_eq_ok_iff {d d' : Disk} {source target : String} {t : Location} {e : Entry}
    (hsource : d.find source = .ok (t, e)) :
    d.rename source target = .ok d' ↔
      ∃ p, d.place? target = some p ∧ d.get? p ≠ some .directory ∧ d' = (d.remove t).put p e := by
  unfold rename place?
  rw [hsource]
  cases d.resolve target with
  | error e => simp [bind, Except.bind]
  | ok goal =>
    match goal with
    | .here _ => simp [bind, Except.bind]
    | .child _ _ true => simp [bind, Except.bind]
    | .child loc name false =>
      simp only [bind, Except.bind, Option.some.injEq]
      split
      · next hdir =>
        refine iff_of_false (by simp) ?_
        rintro ⟨p, rfl, hfree, -⟩
        exact hfree hdir
      · next hfree =>
        constructor
        · intro h
          cases h
          exact ⟨_, rfl, hfree, rfl⟩
        · rintro ⟨p, rfl, -, rfl⟩
          rfl

theorem put_remove (d : Disk) (t : Location) (e : Entry) : (d.remove t).put t e = d.put t e := by
  simp [put, remove, List.filter_filter]

end Disk

namespace StateFile

open Disk (Legible IsName names SameDirectories)

/-! ## 2. The temporary path -/

theorem isName_temp (last : String) : IsName (last ++ ".tmp") := by
  intro h
  have hlength : (last ++ ".tmp").toList.length = last.toList.length + 4 := by
    rw [String.toList_append, List.length_append]
    rfl
  simp only [List.mem_cons, List.not_mem_nil, or_false] at h
  rcases h with h | h | h <;> rw [h] at hlength <;> simp at hlength

theorem names_temp (f : StateFile) :
    ∃ dirs last, names f.path = dirs ++ [last] ∧ names f.tempPath = dirs ++ [last ++ ".tmp"] :=
  Disk.names_append_of_notMem f.path (by decide)

theorem names_tempPath {f : StateFile} {dirs : List String} {name : String}
    (h : names f.path = dirs ++ [name]) : names f.tempPath = dirs ++ [name ++ ".tmp"] := by
  obtain ⟨dirs', name', hpath, htemp⟩ := f.names_temp
  rw [hpath] at h
  obtain ⟨rfl, hname⟩ := List.append_inj' h rfl
  cases hname
  exact htemp

theorem ne_append_temp (last : String) : last ≠ last ++ ".tmp" := by
  intro h
  have hsize := congrArg String.utf8ByteSize h
  rw [String.utf8ByteSize_append] at hsize
  have htmp : (".tmp" : String).utf8ByteSize = 4 := by decide
  omega

/-- **The path of a state file never leads through its temporary file.**  Only names in front of the
last one are walked along, and those make the same walk to both files. -/
theorem find_path_eq {f : StateFile} {d d' : Disk} {t : Location} (h : d.place? f.tempPath = some t)
    (hsame : ∀ l, l ≠ t → d'.get? l = d.get? l) (ht : d.get? t ≠ some .directory)
    (ht' : d'.get? t ≠ some .directory) : d'.find f.path = d.find f.path := by
  obtain ⟨dirs, last, hpath, htemp⟩ := f.names_temp
  obtain ⟨hlegible, -, loc, hwalk, rfl⟩ := (Disk.place?_concat_iff htemp (isName_temp last)).mp h
  have hwithin := (Disk.sameDirectories_of_eq_off hsame ht ht').within
  by_cases hempty : f.path = ""
  · rw [hempty]
    rfl
  have hlegible := hlegible.of_append hempty
  by_cases hname : IsName last
  · have hplace : loc ++ [last] ≠ loc ++ [last ++ ".tmp"] := by
      simpa using ne_append_temp last
    rw [Disk.find_concat hlegible hpath hname, Disk.find_concat hlegible hpath hname, hwalk,
      hwithin.walk _ hwalk]
    simp only [bind, Except.bind, hsame _ hplace]
  · -- The path has a slash or dots at its end, so it finds a directory.
    obtain ⟨l, hl⟩ : ∃ l, d.enter loc last = .ok l := by
      simp only [IsName, List.mem_cons, List.not_mem_nil, or_false, Decidable.not_not] at hname
      rcases hname with rfl | rfl | rfl <;> exact ⟨_, rfl⟩
    have hfind : d.find f.path = .ok (l, .directory) := by
      refine Disk.find_eq_directory_iff.mpr ⟨hlegible, ?_⟩
      rw [hpath, Disk.walk_append, hwalk]
      simp only [bind, Except.bind, Disk.walk, hl]
    rw [hfind, hwithin.find hfind]

theorem load_congr {f : StateFile} {d d' : Disk} (h : d'.find f.path = d.find f.path) :
    f.load d' = f.load d := by
  simp only [load, Disk.read, h]

theorem load_of_place? {f : StateFile} {d : Disk} {p : Location} {b : Bytes}
    (h : d.place? f.path = some p) (hf : d.get? p = some (.file b)) : f.load d = .ok (some b) := by
  simp only [load, Disk.read, Disk.find_of_place? h, hf, bind, Except.bind]

/-! ## 3. Preparing the directory -/

/-- Where the directories above a path are there, nothing has to be made. -/
theorem prepare_of_walk {path last : String} {dirs : List String} {d : Disk} {loc : Location}
    (hpath : Legible path) (hnames : names path = dirs ++ [last]) (hwalk : d.walk [] dirs = .ok loc) :
    prepare path d = (.ok (), d) := by
  unfold prepare
  by_cases hnone : Disk.above path = []
  · simp [hnone]
  · obtain ⟨more, hmore⟩ := Disk.above_prefix_dirs hnames
    rw [← hmore] at hwalk
    obtain ⟨l, hl⟩ := Disk.walk_of_append hwalk
    rw [← Disk.names_pathOf_above hnone] at hl
    have hfind := Disk.find_eq_directory_iff.mpr ⟨Disk.legible_above hpath hnone, hl⟩
    simp [Disk.pathExists, hfind, Except.isOk, Except.toBool]

/-- Where the directory of a path was prepared, it is there, unless a file is in its place. -/
theorem walk_of_prepare {path last : String} {dirs : List String} {d d' : Disk}
    (hnames : names path = dirs ++ [last]) (hlast : IsName last) (h : prepare path d = (.ok (), d')) :
    (∃ loc, d'.walk [] dirs = .ok loc) ∨ d'.walk [] dirs = .error .notADirectory := by
  rw [Disk.walk_eq_above hnames hlast]
  by_cases hnone : Disk.above path = []
  · rw [hnone]
    exact .inl ⟨[], rfl⟩
  have hdirectory {l : Location} (hfind : d'.find (Disk.pathOf (Disk.above path)) = .ok (l, .directory)) :
      d'.walk [] (Disk.above path).reverse = .ok l := by
    rw [← Disk.names_pathOf_above hnone]
    exact (Disk.find_eq_directory_iff.mp hfind).2
  unfold prepare at h
  simp only [List.isEmpty_eq_false_iff.mpr hnone, Bool.false_or] at h
  split at h
  · next hexists =>
    cases h
    cases hfind : d.find (Disk.pathOf (Disk.above path)) with
    | error e => simp [Disk.pathExists, hfind, Except.isOk, Except.toBool] at hexists
    | ok found =>
      obtain ⟨l, e⟩ := found
      cases e with
      | directory => exact .inl ⟨l, hdirectory hfind⟩
      | file b =>
        rw [← Disk.names_pathOf_above hnone]
        exact .inr (Disk.walk_of_find_file hfind)
  · split at h
    · next hmade =>
      cases h
      obtain ⟨name, up, habove⟩ := List.exists_cons_of_ne_nil hnone
      rw [habove] at hmade
      obtain ⟨l, hfind⟩ := Disk.find_of_makeDirectories (Disk.not_isIdle_of_above habove) hmade
      exact .inl ⟨l, hdirectory (habove ▸ hfind)⟩
    · cases h

/-! ## 4. Until the move -/

/-- The temporary file has a content, and nothing else has changed. -/
structure Filled (f : StateFile) (d : Disk) (t : Location) (content : Bytes) (d' : Disk) : Prop where
  temp : d.place? f.tempPath = some t
  free : d.get? t ≠ some .directory
  get : ∀ l, d'.get? l = if l = t then some (.file content) else d.get? l

theorem Filled.sameDirectories {f : StateFile} {d d' : Disk} {t : Location} {content : Bytes}
    (h : f.Filled d t content d') : SameDirectories d d' := by
  refine Disk.sameDirectories_of_eq_off ?_ h.free ?_
  · intro l hl
    rw [h.get, if_neg hl]
  · rw [h.get, if_pos rfl]
    simp

theorem filled_create {f : StateFile} {d d' : Disk} {t : Location}
    (h : d.create f.tempPath = .ok (t, d')) : f.Filled d t [] d' := by
  obtain ⟨hplace, hfree, rfl⟩ := Disk.create_eq_ok_iff.mp h
  exact ⟨hplace, hfree, Disk.get?_put_below d (Disk.place?_ne_nil hplace) _⟩

/-- A file that is made again is emptied. -/
theorem Filled.create {f : StateFile} {d d' d'' : Disk} {t t' : Location} {content : Bytes}
    (h : f.Filled d t content d') (hcreate : d'.create f.tempPath = .ok (t', d'')) :
    f.Filled d t' [] d'' := by
  obtain ⟨hplace, -, rfl⟩ := Disk.create_eq_ok_iff.mp hcreate
  rw [h.sameDirectories.place?, h.temp] at hplace
  cases hplace
  refine ⟨h.temp, h.free, ?_⟩
  intro l
  rw [Disk.get?_put_below d' (Disk.place?_ne_nil h.temp), h.get]
  split
  · rfl
  · rfl

theorem Filled.append {f : StateFile} {d d' : Disk} {t : Location} {content : Bytes}
    (h : f.Filled d t content d') (b : Bytes) : f.Filled d t (content ++ b) (d'.append t b) := by
  refine ⟨h.temp, h.free, ?_⟩
  intro l
  have hfile : d'.get? t = some (.file content) := by rw [h.get, if_pos rfl]
  have happend : d'.append t b = d'.put t (.file (content ++ b)) := by
    unfold Disk.append
    rw [hfile]
  rw [happend, Disk.get?_put_below d' (Disk.place?_ne_nil h.temp), h.get]
  split
  · rfl
  · rfl

/-- A save that has moved nothing yet: it has not begun, or there is a temporary file. -/
def Pending (f : StateFile) (d : Disk) (s : Progress) : Prop :=
  s = ⟨d, []⟩ ∨ ∃ content, f.Filled d s.temp content s.disk

theorem Pending.step {f : StateFile} {d : Disk} {s s' : Progress} {step : SaveStep}
    (h : f.Pending d s) (hstep : step ≠ .rename) (hrun : step.run f s = .ok s') :
    f.Pending d s' := by
  cases step with
  | create =>
    simp only [SaveStep.run] at hrun
    split at hrun
    · next t made hcreate =>
      cases hrun
      rcases h with rfl | ⟨content, hfilled⟩
      · exact .inr ⟨[], filled_create hcreate⟩
      · exact .inr ⟨[], hfilled.create hcreate⟩
    · cases hrun
  | write b =>
    cases hrun
    rcases h with rfl | ⟨content, hfilled⟩
    · -- Nothing is written where no file was made.
      exact .inl rfl
    · exact .inr ⟨content ++ b, hfilled.append b⟩
  | flush =>
    cases hrun
    exact h
  | sync =>
    cases hrun
    exact h
  | rename => exact absurd rfl hstep

/-- **As long as nothing is moved, only the temporary file changes**, whichever steps are done. -/
theorem Pending.runSteps {f : StateFile} {d : Disk} {s s' : Progress} {steps : List SaveStep}
    {r : Except Failure Unit} (h : f.Pending d s) (hsteps : .rename ∉ steps)
    (hrun : f.runSteps s steps = (r, s')) : f.Pending d s' := by
  induction steps generalizing s with
  | nil =>
    cases hrun
    exact h
  | cons step rest ih =>
    rw [List.mem_cons, not_or] at hsteps
    rw [StateFile.runSteps] at hrun
    split at hrun
    · next next hstep => exact ih (h.step (Ne.symm hsteps.1) hstep) hsteps.2 hrun
    · cases hrun
      exact h

theorem Pending.load {f : StateFile} {d : Disk} {s : Progress} (h : f.Pending d s) :
    f.load s.disk = f.load d := by
  rcases h with rfl | ⟨content, hfilled⟩
  · rfl
  · refine load_congr (find_path_eq hfilled.temp ?_ hfilled.free ?_)
    · intro l hl
      rw [hfilled.get, if_neg hl]
    · rw [hfilled.get, if_pos rfl]
      simp

theorem Pending.get?_eq {f : StateFile} {d : Disk} {s : Progress} (h : f.Pending d s) {l : Location}
    (htemp : d.place? f.tempPath ≠ some l) : s.disk.get? l = d.get? l := by
  rcases h with rfl | ⟨content, hfilled⟩
  · rfl
  · have hl : l ≠ s.temp := by
      rintro rfl
      exact htemp hfilled.temp
    rw [hfilled.get, if_neg hl]

/-! ## 5. A whole save -/

/-- The state file has a content, the temporary file is gone, and nothing else has changed. -/
structure Moved (f : StateFile) (d : Disk) (t p : Location) (content : Bytes) (d' : Disk) : Prop where
  temp : d.place? f.tempPath = some t
  tempFree : d.get? t ≠ some .directory
  path : d.place? f.path = some p
  pathFree : d.get? p ≠ some .directory
  get : ∀ l, d'.get? l = if l = p then some (.file content) else if l = t then none else d.get? l

theorem Moved.sameDirectories {f : StateFile} {d d' : Disk} {t p : Location} {content : Bytes}
    (h : f.Moved d t p content d') : SameDirectories d d' := by
  intro l
  rw [h.get]
  by_cases hp : l = p
  · rw [if_pos hp, hp]
    exact iff_of_false h.pathFree (by simp)
  · rw [if_neg hp]
    by_cases ht : l = t
    · rw [if_pos ht, ht]
      exact iff_of_false h.tempFree (by simp)
    · rw [if_neg ht]

/-- The move succeeds if no directory is in the place of the state file. -/
theorem Filled.rename_eq_ok_iff {f : StateFile} {d d' d'' : Disk} {t : Location} {b : Bytes}
    (h : f.Filled d t b d') :
    d'.rename f.tempPath f.path = .ok d'' ↔
      ∃ p, d.place? f.path = some p ∧ d.get? p ≠ some .directory ∧
        d'' = (d'.remove t).put p (.file b) := by
  have hdirs := h.sameDirectories
  have hsource : d'.find f.tempPath = .ok (t, .file b) := by
    rw [Disk.find_of_place? ((hdirs.place? f.tempPath).trans h.temp), h.get, if_pos rfl]
  simp only [Disk.rename_eq_ok_iff hsource, hdirs.place?, ne_eq, ← hdirs _]

theorem Filled.moved {f : StateFile} {d d' d'' : Disk} {t : Location} {b : Bytes}
    (h : f.Filled d t b d') (hrename : d'.rename f.tempPath f.path = .ok d'') :
    ∃ p, f.Moved d t p b d'' := by
  obtain ⟨p, hp, hfree, rfl⟩ := h.rename_eq_ok_iff.mp hrename
  refine ⟨p, h.temp, h.free, hp, hfree, ?_⟩
  intro l
  rw [Disk.get?_put_below _ (Disk.place?_ne_nil hp),
    Disk.get?_remove_below d' (Disk.place?_ne_nil h.temp), h.get]
  split
  · rfl
  · split
    · rfl
    · rfl

theorem Moved.load {f : StateFile} {d d' : Disk} {t p : Location} {b : Bytes}
    (h : f.Moved d t p b d') : f.load d' = .ok (some b) := by
  have hplace := (h.sameDirectories.place? f.path).trans h.path
  exact load_of_place? hplace (by rw [h.get, if_pos rfl])

theorem Moved.get?_eq {f : StateFile} {d d' : Disk} {t p : Location} {b : Bytes}
    (h : f.Moved d t p b d') {l : Location} (hpath : d.place? f.path ≠ some l)
    (htemp : d.place? f.tempPath ≠ some l) : d'.get? l = d.get? l := by
  have hp : l ≠ p := by
    rintro rfl
    exact hpath h.path
  have ht : l ≠ t := by
    rintro rfl
    exact htemp h.temp
  rw [h.get, if_neg hp, if_neg ht]

/-- What a save does: it moves the new snapshot into place, or fails with or without a file left. -/
theorem runSteps_saveSteps {f : StateFile} {b : Bytes} {d : Disk} {r : Except Failure Unit}
    {s : Progress} (hrun : f.runSteps ⟨d, []⟩ (f.saveSteps b) = (r, s)) :
    (r ≠ .ok () ∧ f.Pending d s) ∨ (r = .ok () ∧ ∃ t p, f.Moved d t p b s.disk) := by
  rw [saveSteps, runSteps, SaveStep.run] at hrun
  cases hcreate : d.create f.tempPath with
  | error e =>
    rw [hcreate] at hrun
    cases hrun
    exact .inl ⟨by simp, .inl rfl⟩
  | ok made =>
    obtain ⟨t, d₁⟩ := made
    have hfilled : f.Filled d t b (d₁.append t b) := (filled_create hcreate).append b
    have hlast : f.runSteps ⟨d₁.append t b, t⟩ [.rename] = (r, s) := by
      cases hsync : f.sync <;>
        simpa only [hcreate, runSteps, SaveStep.run, hsync, reduceIte, Bool.false_eq_true] using hrun
    simp only [runSteps, SaveStep.run] at hlast
    split at hlast
    · next next hrename =>
      cases hlast
      split at hrename
      · next moved hmoved =>
        cases hrename
        obtain ⟨p, hmoved⟩ := hfilled.moved hmoved
        exact .inr ⟨rfl, t, p, hmoved⟩
      · cases hrename
    · cases hlast
      exact .inl ⟨by simp, .inr ⟨b, hfilled⟩⟩

/-- **What a state file was given last is what it gives back.** -/
theorem load_save {f : StateFile} {b : Bytes} {d d' : Disk} (h : f.save b d = (.ok (), d')) :
    f.load d' = .ok (some b) := by
  obtain ⟨hresult, rfl⟩ := Prod.mk.inj h
  rcases runSteps_saveSteps (Prod.ext hresult rfl) with ⟨hr, -⟩ | ⟨-, t, p, hmoved⟩
  · exact absurd rfl hr
  · exact hmoved.load

/-- A save succeeds if both paths lead to places where no directory is. -/
theorem save_of_free {f : StateFile} {b : Bytes} {d : Disk} {t p : Location}
    (htemp : d.place? f.tempPath = some t) (hfree : d.get? t ≠ some .directory)
    (hplace : d.place? f.path = some p) (hp : d.get? p ≠ some .directory) :
    ∃ d', f.save b d = (.ok (), d') ∧ f.Moved d t p b d' := by
  have hcreate : d.create f.tempPath = .ok (t, d.put t (.file [])) :=
    Disk.create_eq_ok_iff.mpr ⟨htemp, hfree, rfl⟩
  have hfilled := (filled_create hcreate).append b
  have hrename := hfilled.rename_eq_ok_iff.mpr ⟨p, hplace, hp, rfl⟩
  obtain ⟨q, hmoved⟩ := hfilled.moved hrename
  obtain rfl : p = q := Option.some.inj (hplace.symm.trans hmoved.path)
  refine ⟨_, ?_, hmoved⟩
  rw [save, saveSteps, runSteps, SaveStep.run, hcreate]
  cases f.sync <;> simp only [runSteps, SaveStep.run, hrename, reduceIte, Bool.false_eq_true]

/-- A save does nothing if the temporary file cannot be made. -/
theorem save_of_blocked {f : StateFile} {b : Bytes} {d : Disk} {e : DiskError}
    (h : d.create f.tempPath = .error e) :
    f.save b d =
      (.error (.persistence ("Failed to create temp snapshot file: " ++ e.message)), d) := by
  rw [save, saveSteps, runSteps, SaveStep.run, h]

end StateFile
end Replica
