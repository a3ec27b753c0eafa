/-
# Where paths lead

A path is a text, and what it leads to depends on the names in it, one after the other, and on the
directories of the disk.  This module keeps the two apart.

* `Disk.walk`: names followed to a directory, with no exception for the last one;
* `Disk.walk_eq_follow`, `Disk.find_eq_directory_iff`: a path finds a directory where the walk along its
  names ends, and nowhere else;
* `Disk.follow_concat`: a path with a proper name at its end leads to that name in the directory where
  the walk along the names before it ends;
* `Disk.Within`: on a disk with more directories all these paths lead where they led before;
* `Disk.exists_pathOf_append`: the directories above a path are written as a front part of it.
-/
import Replica.Storage.Disk

namespace Replica.Disk

/-! ## 1. The names in a path -/

/-- A name that leads to an entry of its own. -/
def IsName (name : String) : Prop := name ∉ ["", ".", ".."]

instance (name : String) : Decidable (IsName name) := inferInstanceAs (Decidable (_ ∉ _))

theorem IsName.not_idle {name : String} (h : IsName name) : isIdle name = false := by
  simp only [IsName, List.mem_cons, not_or] at h
  simp [isIdle, h]

/-- A path that the system takes at all. -/
def Legible (path : String) : Prop :=
  path ≠ "" ∧ '\x00' ∉ path.toList ∧ path.utf8ByteSize ≤ maxPathBytes

theorem resolve_of_legible {path : String} (h : Legible path) (d : Disk) :
    d.resolve path = d.follow [] (names path) := by
  obtain ⟨hempty, hnul, hlong⟩ := h
  simp [resolve, hempty, hnul, Nat.not_lt.mpr hlong]

theorem legible_of_resolve {d : Disk} {path : String} {t : Target} (h : d.resolve path = .ok t) :
    Legible path := by
  unfold resolve at h
  split at h
  · cases h
  · next hempty =>
    split at h
    · cases h
    · next hnul =>
      split at h
      · cases h
      · next hlong => exact ⟨hempty, by simpa using hnul, Nat.not_lt.mp hlong⟩

/-- The front of a legible path is legible. -/
theorem Legible.of_append {front rest : String} (h : Legible (front ++ rest)) (hne : front ≠ "") :
    Legible front := by
  obtain ⟨-, hnul, hlong⟩ := h
  rw [String.toList_append, List.mem_append, not_or] at hnul
  rw [String.utf8ByteSize_append] at hlong
  exact ⟨hne, hnul.1, by omega⟩

theorem names_ne_nil (path : String) : names path ≠ [] :=
  mt List.map_eq_nil_iff.mp (Text.pieces_ne_nil '/' path.toList)

theorem names_of_notMem {path : String} (h : '/' ∉ path.toList) : names path = [path] := by
  rw [names, Text.pieces_of_notMem h, List.map_singleton, String.ofList_toList]

theorem exists_names_eq_concat (path : String) : ∃ dirs last, names path = dirs ++ [last] := by
  obtain ⟨dirs, last, hnames⟩ := (List.eq_nil_or_concat (names path)).resolve_left (names_ne_nil path)
  exact ⟨dirs, last, hnames.trans (List.concat_eq_append ..)⟩

theorem notMem_of_mem_names {path name : String} (h : name ∈ names path) : '/' ∉ name.toList := by
  obtain ⟨piece, hpiece, rfl⟩ := List.mem_map.mp h
  rw [String.toList_ofList]
  exact Text.notMem_of_mem_pieces hpiece

/-- What has no slash in it becomes part of the last name. -/
theorem names_append_of_notMem (path : String) {suffix : String} (h : '/' ∉ suffix.toList) :
    ∃ dirs last, names path = dirs ++ [last] ∧ names (path ++ suffix) = dirs ++ [last ++ suffix] := by
  obtain ⟨front, last, hpath, hlonger⟩ := Text.pieces_append_of_notMem path.toList h
  refine ⟨front.map String.ofList, String.ofList last, ?_, ?_⟩
  · simp [names, hpath]
  · simp [names, hlonger, String.ofList_append]

theorem toList_pathOf (up : List String) :
    (pathOf up).toList = ['/'].intercalate (up.reverse.map String.toList) := by
  rw [pathOf, String.toList_intercalate]
  rfl

/-- A path is written with the names in it. -/
theorem pathOf_names (path : String) : pathOf (names path).reverse = path := by
  have hpieces : (names path).map String.toList = Text.pieces '/' path.toList := by
    simp [names, Function.comp_def]
  rw [← String.toList_inj, toList_pathOf, List.reverse_reverse, hpieces, Text.intercalate_pieces]

theorem names_pathOf {up : List String} (hne : up ≠ []) (h : ∀ name ∈ up, '/' ∉ name.toList) :
    names (pathOf up) = up.reverse := by
  have hpieces : up.reverse.map String.toList ≠ [] := by simpa using hne
  have hclean : ∀ p ∈ up.reverse.map String.toList, '/' ∉ p := by
    intro p hp
    obtain ⟨name, hname, rfl⟩ := List.mem_map.mp hp
    exact h name (List.mem_reverse.mp hname)
  rw [names, toList_pathOf, Text.pieces_intercalate hpieces hclean]
  simp [Function.comp_def]

theorem pathOf_cons (name : String) {up : List String} (h : up ≠ []) :
    pathOf (name :: up) = pathOf up ++ ("/" ++ name) := by
  rw [← String.toList_inj, String.toList_append, toList_pathOf, toList_pathOf, List.reverse_cons]
  have hne : up.reverse ≠ [] := by simpa using h
  generalize up.reverse = names at hne
  induction names with
  | nil => exact absurd rfl hne
  | cons x names ih =>
    cases names with
    | nil => simp
    | cons y names =>
      have htail := ih (List.cons_ne_nil y names)
      simp only [List.cons_append, List.map_cons, List.intercalate_cons_cons] at htail ⊢
      rw [htail]
      simp

/-- The first names of a path are written as a front part of it. -/
theorem exists_pathOf_append {path : String} {up : List String} (hne : up ≠ [])
    (h : up.reverse <+: names path) : ∃ rest, path = pathOf up ++ rest := by
  obtain ⟨more, hmore⟩ := h
  have hup : (names path).reverse = more.reverse ++ up := by
    rw [← hmore, List.reverse_append, List.reverse_reverse]
  rw [← pathOf_names path, hup]
  generalize more.reverse = more
  induction more with
  | nil => exact ⟨"", by simp⟩
  | cons name more ih =>
    obtain ⟨rest, hrest⟩ := ih
    refine ⟨rest ++ ("/" ++ name), ?_⟩
    rw [List.cons_append, pathOf_cons name (List.append_ne_nil_of_right_ne_nil more hne), hrest,
      String.append_assoc]

/-! ## 2. Walking along names -/

/-- The directory that names lead to, one after the other. -/
def walk (d : Disk) (loc : Location) : List String → Except DiskError Location
  | [] => .ok loc
  | name :: rest => do
    let loc ← d.enter loc name
    d.walk loc rest

theorem walk_append (d : Disk) (loc : Location) (xs ys : List String) :
    d.walk loc (xs ++ ys) = d.walk loc xs >>= fun loc => d.walk loc ys := by
  induction xs generalizing loc with
  | nil => rfl
  | cons x xs ih =>
    simp only [List.cons_append, walk]
    cases d.enter loc x with
    | error e => rfl
    | ok next => exact ih next

theorem walk_of_append {d : Disk} {loc l : Location} {xs ys : List String}
    (h : d.walk loc (xs ++ ys) = .ok l) : ∃ m, d.walk loc xs = .ok m := by
  rw [walk_append] at h
  cases hx : d.walk loc xs with
  | error e => rw [hx] at h; cases h
  | ok m => exact ⟨m, rfl⟩

theorem enter_of_isIdle {name : String} (h : isIdle name = true) (d : Disk) (loc : Location) :
    d.enter loc name = .ok loc := by
  simp [enter, h]

theorem walk_of_isIdle {names : List String} (h : ∀ name ∈ names, isIdle name = true) (d : Disk)
    (loc : Location) : d.walk loc names = .ok loc := by
  induction names with
  | nil => rfl
  | cons name names ih =>
    rw [walk, enter_of_isIdle (h name List.mem_cons_self)]
    exact ih fun x hx => h x (List.mem_cons_of_mem name hx)

theorem enter_of_isName {name : String} (h : IsName name) (hlong : name.utf8ByteSize ≤ maxNameBytes)
    (d : Disk) (loc : Location) :
    d.enter loc name = match d.get? (loc ++ [name]) with
      | some .directory => .ok (loc ++ [name])
      | some (.file _) => .error .notADirectory
      | none => .error .notFound := by
  have hidle := h.not_idle
  simp only [IsName, List.mem_cons, not_or] at h
  rw [enter, if_neg (by simp [hidle]), if_neg h.2.2.1]
  refine (if_neg (Nat.not_lt.mpr hlong)).trans ?_
  cases d.get? (loc ++ [name]) with
  | none => rfl
  | some e => cases e <;> rfl

/-- The directory at a target. -/
def enterTarget (d : Disk) : Target → Except DiskError Location
  | .here loc => .ok loc
  | .child loc name _ => d.enter loc name

/-- The last name that is no idle one is no exception. -/
theorem walk_eq_follow (d : Disk) (loc : Location) (names : List String) :
    d.walk loc names = d.follow loc names >>= d.enterTarget := by
  induction names generalizing loc with
  | nil => rfl
  | cons name rest ih =>
    unfold walk follow
    split
    · next hlast =>
      have hidle : ∀ x ∈ rest, isIdle x = true := by
        intro x hx
        simp [isIdle, of_decide_eq_true (List.all_eq_true.mp hlast.1 x hx)]
      have hrest : (d.enter loc name >>= fun loc => d.walk loc rest) = d.enter loc name := by
        cases d.enter loc name with
        | error e => rfl
        | ok next => exact walk_of_isIdle hidle d next
      rw [hrest]
      split
      · next hlong =>
        have hname : IsName name := hlast.2
        have hproper := hname.not_idle
        simp only [IsName, List.mem_cons, not_or] at hname
        simp [enter, hproper, hname.2.2.1, hlong]
        rfl
      · rfl
    · cases d.enter loc name with
      | error e => rfl
      | ok next => exact ih next

/-- A target in a directory is a proper name. -/
theorem isName_of_follow {d : Disk} {loc l : Location} {names : List String} {name : String} {slash : Bool}
    (h : d.follow loc names = .ok (.child l name slash)) :
    IsName name ∧ name.utf8ByteSize ≤ maxNameBytes := by
  induction names generalizing loc with
  | nil => cases h
  | cons x rest ih =>
    unfold follow at h
    split at h
    · next hlast =>
      split at h
      · cases h
      · next hlong => cases h; exact ⟨hlast.2, Nat.not_lt.mp hlong⟩
    · cases hx : d.enter loc x with
      | error e => rw [hx] at h; cases h
      | ok next => rw [hx] at h; exact ih h

/-- A proper name at the end is looked for where the names before it end. -/
theorem follow_concat {name : String} (h : IsName name) (d : Disk) (loc : Location) (dirs : List String) :
    d.follow loc (dirs ++ [name]) = d.walk loc dirs >>= fun l =>
      if maxNameBytes < name.utf8ByteSize then .error .nameTooLong else .ok (.child l name false) := by
  induction dirs generalizing loc with
  | nil =>
    have hlast : ([] : List String).all (· = "") = true ∧ name ∉ ["", ".", ".."] := ⟨rfl, h⟩
    simp only [List.nil_append, follow, if_pos hlast]
    rfl
  | cons x dirs ih =>
    have hempty : name ≠ "" := by
      intro hname
      exact h (hname ▸ List.mem_cons_self)
    have hmore : ¬ ((dirs ++ [name]).all (· = "") = true ∧ x ∉ ["", ".", ".."]) := by
      simp [hempty]
    simp only [List.cons_append, follow, if_neg hmore, walk]
    cases d.enter loc x with
    | error e => rfl
    | ok next => exact ih next

/-! ## 3. What a path finds -/

/-- A path with a proper name at its end leads to that name. -/
theorem resolve_concat {path name : String} {dirs : List String} (hlegible : Legible path)
    (hnames : names path = dirs ++ [name]) (hname : IsName name) (d : Disk) :
    d.resolve path = d.walk [] dirs >>= fun loc =>
      if maxNameBytes < name.utf8ByteSize then .error .nameTooLong else .ok (.child loc name false) := by
  rw [resolve_of_legible hlegible, hnames, follow_concat hname]

theorem find_concat {path name : String} {dirs : List String} (hlegible : Legible path)
    (hnames : names path = dirs ++ [name]) (hname : IsName name) (d : Disk) :
    d.find path = d.walk [] dirs >>= fun loc =>
      if maxNameBytes < name.utf8ByteSize then .error .nameTooLong
      else match d.get? (loc ++ [name]) with
        | none => .error .notFound
        | some e => .ok (loc ++ [name], e) := by
  unfold find
  rw [resolve_concat hlegible hnames hname]
  cases d.walk [] dirs with
  | error e => rfl
  | ok loc =>
    simp only [bind, Except.bind]
    by_cases hlong : maxNameBytes < name.utf8ByteSize
    · simp only [if_pos hlong]
    · simp only [if_neg hlong]
      cases d.get? (loc ++ [name]) with
      | none => rfl
      | some e => cases e <;> rfl

/-- **A path finds a directory where the walk along its names ends.** -/
theorem find_eq_directory_iff {d : Disk} {path : String} {l : Location} :
    d.find path = .ok (l, .directory) ↔ Legible path ∧ d.walk [] (names path) = .ok l := by
  by_cases hlegible : Legible path
  · simp only [hlegible, true_and, walk_eq_follow, find, resolve_of_legible hlegible]
    cases hfollow : d.follow [] (names path) with
    | error e => simp [bind, Except.bind]
    | ok t =>
      cases t with
      | here loc => simp [bind, Except.bind, enterTarget]
      | child loc name slash =>
        obtain ⟨hname, hlong⟩ := isName_of_follow hfollow
        simp only [bind, Except.bind, enterTarget, enter_of_isName hname hlong]
        cases d.get? (loc ++ [name]) with
        | none => simp
        | some e =>
          cases e with
          | directory => simp
          | file b => cases slash <;> simp
  · simp only [hlegible, false_and, iff_false]
    intro hfind
    unfold find at hfind
    cases hresolve : d.resolve path with
    | error e => rw [hresolve] at hfind; cases hfind
    | ok t => exact hlegible (legible_of_resolve hresolve)

theorem isDirectory_iff {d : Disk} {path : String} :
    d.isDirectory path = true ↔ ∃ l, d.find path = .ok (l, .directory) := by
  unfold isDirectory
  split
  · next l hfind => exact iff_of_true rfl ⟨l, hfind⟩
  · next hnot =>
    refine iff_of_false (by simp) ?_
    rintro ⟨l, hfind⟩
    exact hnot l hfind

/-- A path that finds a file leads to a name, without a slash behind it. -/
theorem resolve_of_find_file {d : Disk} {path : String} {l : Location} {b : Bytes}
    (h : d.find path = .ok (l, .file b)) :
    ∃ loc name, l = loc ++ [name] ∧ d.resolve path = .ok (.child loc name false) ∧
      d.get? l = some (.file b) := by
  unfold find at h
  cases hresolve : d.resolve path with
  | error e => rw [hresolve] at h; cases h
  | ok t =>
    rw [hresolve] at h
    cases t with
    | here loc => cases h
    | child loc name slash =>
      simp only [bind, Except.bind] at h
      split at h
      · cases h
      · cases h
      · next content hfile =>
        cases slash with
        | true => cases h
        | false => cases h; exact ⟨loc, name, rfl, rfl, hfile⟩

theorem ne_empty_of_names {path name : String} {dirs : List String} (hnames : names path = dirs ++ [name])
    (hname : IsName name) : path ≠ "" := by
  rintro rfl
  have hmem : name ∈ names "" := hnames ▸ List.mem_append_right dirs (List.mem_singleton_self name)
  have hblank : name ∈ [""] := hmem
  exact hname (List.mem_singleton.mp hblank ▸ List.mem_cons_self)

/-- Where nothing is found, the path is not at fault, unless it is empty. -/
theorem legible_of_find_notFound {d : Disk} {path : String} (h : d.find path = .error .notFound)
    (hempty : path ≠ "") : Legible path := by
  have hnul : '\x00' ∉ path.toList := by
    intro hnul
    simp [find, resolve, hempty, hnul, bind, Except.bind] at h
  refine ⟨hempty, hnul, Nat.not_lt.mp ?_⟩
  intro hlong
  simp [find, resolve, hempty, hnul, hlong, bind, Except.bind] at h

/-- The walk along the names of a path to a file stops at the file. -/
theorem walk_of_find_file {d : Disk} {path : String} {l : Location} {b : Bytes}
    (h : d.find path = .ok (l, .file b)) : d.walk [] (names path) = .error .notADirectory := by
  obtain ⟨loc, name, rfl, hresolve, hfile⟩ := resolve_of_find_file h
  rw [resolve_of_legible (legible_of_resolve hresolve)] at hresolve
  obtain ⟨hname, hlong⟩ := isName_of_follow hresolve
  rw [walk_eq_follow, hresolve]
  simp only [bind, Except.bind, enterTarget, enter_of_isName hname hlong, hfile]

/-! ## 4. More directories -/

/-- All directories of one disk are directories of another. -/
def Within (d d' : Disk) : Prop :=
  ∀ loc, d.get? loc = some .directory → d'.get? loc = some .directory

theorem Within.enter {d d' : Disk} (h : Within d d') {loc loc' : Location} {name : String}
    (he : d.enter loc name = .ok loc') : d'.enter loc name = .ok loc' := by
  unfold Disk.enter at he ⊢
  split
  · next hidle => rwa [if_pos hidle] at he
  · next hidle =>
    rw [if_neg hidle] at he
    split
    · next hup => rwa [if_pos hup] at he
    · next hup =>
      rw [if_neg hup] at he
      split
      · next hlong => rw [if_pos hlong] at he; cases he
      · next hlong =>
        rw [if_neg hlong] at he
        split at he
        · next hdir => rw [h _ hdir]; exact he
        · cases he
        · cases he

/-- A path that leads somewhere leads there as well where there are more directories. -/
theorem Within.follow {d d' : Disk} (h : Within d d') :
    ∀ (names : List String) {loc : Location} {t : Target},
      d.follow loc names = .ok t → d'.follow loc names = .ok t
  | [], _, _, ht => ht
  | name :: rest, loc, t, ht => by
    unfold Disk.follow at ht ⊢
    split
    · next hlast => rwa [if_pos hlast] at ht
    · next hlast =>
      rw [if_neg hlast] at ht
      cases he : d.enter loc name with
      | error e => rw [he] at ht; cases ht
      | ok next =>
        rw [he] at ht
        rw [h.enter he]
        exact Within.follow h rest ht

theorem Within.resolve {d d' : Disk} (h : Within d d') {path : String} {t : Target}
    (ht : d.resolve path = .ok t) : d'.resolve path = .ok t := by
  have hlegible := legible_of_resolve ht
  rw [resolve_of_legible hlegible] at ht ⊢
  exact h.follow _ ht

theorem Within.walk {d d' : Disk} (h : Within d d') :
    ∀ (names : List String) {loc l : Location}, d.walk loc names = .ok l → d'.walk loc names = .ok l
  | [], _, _, hl => hl
  | name :: rest, loc, l, hl => by
    unfold Disk.walk at hl ⊢
    cases he : d.enter loc name with
    | error e => rw [he] at hl; cases hl
    | ok next =>
      rw [he] at hl
      rw [h.enter he]
      exact Within.walk h rest hl

theorem Within.find {d d' : Disk} (h : Within d d') {path : String} {l : Location}
    (hl : d.find path = .ok (l, .directory)) : d'.find path = .ok (l, .directory) := by
  obtain ⟨hlegible, hwalk⟩ := find_eq_directory_iff.mp hl
  exact find_eq_directory_iff.mpr ⟨hlegible, h.walk _ hwalk⟩

/-- A walk that stays among some names meets no entry with another name above it. -/
theorem walk_eq_of_subset {d d' : Disk} {among : List String}
    (h : ∀ loc, loc ⊆ among → d'.get? loc = d.get? loc) {names : List String} (hnames : names ⊆ among)
    {loc : Location} (hloc : loc ⊆ among) : d'.walk loc names = d.walk loc names := by
  induction names generalizing loc with
  | nil => rfl
  | cons name names ih =>
    obtain ⟨hname, hrest⟩ := List.cons_subset.mp hnames
    have hbelow : loc ++ [name] ⊆ among :=
      List.append_subset.mpr ⟨hloc, List.cons_subset.mpr ⟨hname, List.nil_subset _⟩⟩
    have henter : d'.enter loc name = d.enter loc name := by
      rw [Disk.enter, Disk.enter, h _ hbelow]
    rw [Disk.walk, Disk.walk, henter]
    cases hnext : d.enter loc name with
    | error e => rfl
    | ok next =>
      refine ih hrest ?_
      unfold Disk.enter at hnext
      split at hnext
      · cases hnext
        exact hloc
      · split at hnext
        · cases hnext
          exact List.Subset.trans (List.dropLast_subset loc) hloc
        · split at hnext
          · cases hnext
          · split at hnext
            · cases hnext
              exact hbelow
            · cases hnext
            · cases hnext

/-! ## 5. The directories above a path -/

/-- The names above a path are the first ones in front of its last name. -/
theorem above_prefix_dirs {path : String} {dirs : List String} {last : String}
    (h : names path = dirs ++ [last]) : (above path).reverse <+: dirs := by
  have hsuffix : above path <:+ dirs.reverse := by
    rw [above, h, List.reverse_append, List.reverse_singleton, List.singleton_append,
      List.dropWhile_cons]
    refine (List.dropWhile_suffix _).trans ?_
    split
    · exact (List.drop_suffix 1 _).trans (List.dropWhile_suffix _)
    · exact List.suffix_refl _
  rw [← List.reverse_reverse dirs]
  exact List.reverse_prefix.mpr hsuffix

theorem above_prefix_names (path : String) : (above path).reverse <+: names path := by
  obtain ⟨dirs, last, hnames⟩ := exists_names_eq_concat path
  rw [hnames]
  exact (above_prefix_dirs hnames).trans (List.prefix_append dirs [last])

theorem not_isIdle_of_above {path name : String} {rest : List String} (h : above path = name :: rest) :
    isIdle name = false := by
  have hhead := List.head?_dropWhile_not isIdle
    (((names path).reverse.dropWhile isIdle).drop 1)
  rw [← above, h] at hhead
  exact hhead

theorem names_pathOf_above {path : String} (h : above path ≠ []) :
    names (pathOf (above path)) = (above path).reverse := by
  refine names_pathOf h ?_
  intro name hname
  exact notMem_of_mem_names ((above_prefix_names path).subset (List.mem_reverse.mpr hname))

/-- The path of the directories above a legible path is legible. -/
theorem legible_above {path : String} (hpath : Legible path) (h : above path ≠ []) :
    Legible (pathOf (above path)) := by
  obtain ⟨name, rest, habove⟩ := List.exists_cons_of_ne_nil h
  obtain ⟨more, hmore⟩ := exists_pathOf_append h (above_prefix_names path)
  refine (hmore ▸ hpath).of_append ?_
  intro hempty
  have hblank := names_pathOf_above h
  rw [hempty, habove] at hblank
  have hone : [""] = (name :: rest).reverse := hblank
  have hsingle : name :: rest = [""] := by rw [← List.reverse_reverse (name :: rest), ← hone]; rfl
  have hidle := not_isIdle_of_above habove
  rw [(List.cons.inj hsingle).1] at hidle
  cases hidle

/-- Idle names in front of the last one lead nowhere else. -/
theorem walk_eq_above {path name : String} {dirs : List String} (hnames : names path = dirs ++ [name])
    (hname : IsName name) (d : Disk) : d.walk [] dirs = d.walk [] (above path).reverse := by
  have habove : above path = dirs.reverse.dropWhile isIdle := by
    rw [above, hnames, List.reverse_append, List.reverse_singleton, List.singleton_append,
      List.dropWhile_cons_of_neg (by simp [hname.not_idle]), List.drop_one, List.tail_cons]
  have hdirs : dirs = (above path).reverse ++ (dirs.reverse.takeWhile isIdle).reverse := by
    rw [habove, ← List.reverse_append, List.takeWhile_append_dropWhile, List.reverse_reverse]
  have hidle : ∀ x ∈ (dirs.reverse.takeWhile isIdle).reverse, isIdle x = true := by
    intro x hx
    exact List.all_eq_true.mp List.all_takeWhile x (List.mem_reverse.mp hx)
  rw [hdirs, walk_append]
  cases d.walk [] (above path).reverse with
  | error e => rfl
  | ok loc => exact walk_of_isIdle hidle d loc

/-- A directory that was made is there. -/
theorem find_of_makeDirectory {d d' : Disk} {path : String} (h : d.makeDirectory path = .ok d') :
    ∃ l, d'.find path = .ok (l, .directory) := by
  unfold makeDirectory at h
  cases hresolve : d.resolve path with
  | error e => rw [hresolve] at h; cases h
  | ok target =>
    rw [hresolve] at h
    cases target with
    | here loc => cases h
    | child loc name slash =>
      simp only [bind, Except.bind] at h
      split at h
      · cases h
      · cases h
        have hput (l : Location) (hl : l ≠ []) := get?_put d (loc ++ [name]) .directory hl
        have hwithin : Within d (d.put (loc ++ [name]) .directory) := by
          intro l hl
          by_cases hroot : l = []
          · simp [get?, hroot]
          · rw [hput l hroot, hl, ite_self]
        refine ⟨loc ++ [name], ?_⟩
        unfold find
        simp only [hwithin.resolve hresolve, bind, Except.bind, hput _ (List.concat_ne_nil _ _), reduceIte]

/-- So is one that was made with those above it. -/
theorem find_of_makeDirectories {d d' : Disk} {name : String} {up : List String}
    (hname : isIdle name = false) (h : d.makeDirectories (name :: up) = (.ok (), d')) :
    ∃ l, d'.find (pathOf (name :: up)) = .ok (l, .directory) := by
  -- Where an attempt fails, a directory that is there already will do.
  have hgive {d₀ : Disk} {e : DiskError}
      (h : (if d₀.isDirectory (pathOf (name :: up)) then (Except.ok (), d₀) else (.error e, d₀)) =
        (.ok (), d')) : ∃ l, d'.find (pathOf (name :: up)) = .ok (l, .directory) := by
    split at h
    · next hdir =>
      cases h
      exact isDirectory_iff.mp hdir
    · cases h
  simp only [makeDirectories, hname, Bool.false_eq_true, if_false] at h
  split at h
  · next hmade => cases h; exact find_of_makeDirectory hmade
  · split at h
    · cases h
    · split at h
      · next hmade => cases h; exact find_of_makeDirectory hmade
      · exact hgive h
  · exact hgive h

end Replica.Disk
