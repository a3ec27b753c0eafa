/-
# A disk

A disk is a tree of directories and files, held as the list of its paths with what is there.  Its root
is also the working directory, so a path means the same with and without a slash in front.

A path in text form is followed name by name.  Every name but the last has to be a directory; `.` and
an empty name stay where they are, and `..` goes up, at the root too.  The operations on files are
those that a state file needs, each with the reasons why it may fail.

* `get?_put`, `get?_remove`, `get?_removeTree`: what a change does to each path.
-/
import Replica.Bytes
import Replica.Text.Cut

namespace Replica

/-! ## 1. Trees -/

/-- What is at a path. -/
inductive Entry where
  | directory
  | file (content : Bytes)
  deriving DecidableEq, Repr

/-- The names from the root to an entry. -/
abbrev Location := List String

/-- A tree of directories and files. -/
structure Disk where
  entries : List (Location × Entry)
  deriving DecidableEq, Repr

/-- Why an operation on files fails. -/
inductive DiskError where
  | notFound
  | exists
  | notADirectory
  | isADirectory
  | busy
  | nameTooLong
  | nulInName
  deriving DecidableEq, Repr

/-- An error in the words of the system. -/
def DiskError.message : DiskError → String
  | .notFound => "No such file or directory (os error 2)"
  | .busy => "Device or resource busy (os error 16)"
  | .exists => "File exists (os error 17)"
  | .notADirectory => "Not a directory (os error 20)"
  | .isADirectory => "Is a directory (os error 21)"
  | .nameTooLong => "File name too long (os error 36)"
  | .nulInName => "file name contained an unexpected NUL byte"

namespace Disk

def empty : Disk := ⟨[]⟩

/-- What is at a location. -/
def entryIn (loc : Location) : List (Location × Entry) → Option Entry
  | [] => none
  | e :: rest => if e.1 = loc then some e.2 else entryIn loc rest

/-- What is at a location; the root is a directory. -/
def get? (d : Disk) (loc : Location) : Option Entry :=
  if loc = [] then some .directory else entryIn loc d.entries

/-- The disk without the entry at a location. -/
def remove (d : Disk) (loc : Location) : Disk := ⟨d.entries.filter (·.1 ≠ loc)⟩

/-- The disk with an entry at a location, in the place of what was there. -/
def put (d : Disk) (loc : Location) (e : Entry) : Disk := ⟨(loc, e) :: (d.remove loc).entries⟩

/-- The disk without a location and all below it. -/
def removeTree (d : Disk) (loc : Location) : Disk :=
  ⟨d.entries.filter fun e => !loc.isPrefixOf e.1⟩

/-- All entries, each directory before what is in it, and names in ascending order. -/
def listing (d : Disk) : List (Location × Entry) :=
  d.entries.mergeSort fun a b => !b.1.lex a.1

/-- The number of entries at the root. -/
def rootSize (d : Disk) : Nat := (d.entries.filter (·.1.length = 1)).length

theorem entryIn_filter (keep : Location → Bool) (l : Location) (es : List (Location × Entry)) :
    entryIn l (es.filter fun e => keep e.1) = if keep l then entryIn l es else none := by
  induction es with
  | nil => simp [entryIn]
  | cons e es ih =>
    by_cases he : keep e.1 = true
    · rw [List.filter_cons_of_pos (by simpa using he)]
      simp only [entryIn, ih]
      by_cases hl : e.1 = l
      · rw [if_pos hl, if_pos hl, if_pos (hl ▸ he)]
      · rw [if_neg hl, if_neg hl]
    · rw [List.filter_cons_of_neg (by simpa using he), ih]
      split
      · next hkeep =>
        have hne : e.1 ≠ l := fun hl => he (hl ▸ hkeep)
        rw [entryIn, if_neg hne]
      · rfl

theorem entryIn_filter_ne (loc l : Location) (es : List (Location × Entry)) :
    entryIn l (es.filter (·.1 ≠ loc)) = if l = loc then none else entryIn l es := by
  rw [entryIn_filter (fun x => decide (x ≠ loc)) l es]
  by_cases hl : l = loc
  · simp [hl]
  · simp [hl]

theorem get?_remove (d : Disk) {loc l : Location} (h : l ≠ []) :
    (d.remove loc).get? l = if l = loc then none else d.get? l := by
  simp only [get?, remove, h, if_false, entryIn_filter_ne]

theorem get?_put (d : Disk) (loc : Location) (e : Entry) {l : Location} (h : l ≠ []) :
    (d.put loc e).get? l = if l = loc then some e else d.get? l := by
  simp only [get?, put, remove, h, if_false, entryIn, entryIn_filter_ne]
  by_cases hl : l = loc
  · simp [hl]
  · simp [hl, Ne.symm hl]

theorem get?_removeTree (d : Disk) {loc : Location} (h : loc ≠ []) (l : Location) :
    (d.removeTree loc).get? l = if loc <+: l then none else d.get? l := by
  by_cases hl : l = []
  · simp [hl, h, get?]
  · simp only [get?, removeTree, hl, if_false]
    rw [entryIn_filter (fun x => !loc.isPrefixOf x)]
    by_cases hbelow : loc <+: l
    · simp [hbelow, List.isPrefixOf_iff_prefix.mpr hbelow]
    · simp [hbelow]

/-! ## 2. Following a path -/

/-- The longest name of an entry, in bytes. -/
def maxNameBytes : Nat := 255

/-- The longest path, in bytes. -/
def maxPathBytes : Nat := 4095

/-- The names in a path, empty ones too. -/
def names (path : String) : List String :=
  (Text.pieces '/' path.toList).map String.ofList

/-- Whether a name leads nowhere else. -/
def isIdle (name : String) : Bool := name = "" || name = "."

/-- Where a path leads: to a directory by itself, or to a name in one.  A slash behind the name asks
for a directory. -/
inductive Target where
  | here (directory : Location)
  | child (directory : Location) (name : String) (slash : Bool)
  deriving DecidableEq, Repr

/-- The directory that a name leads to from another one. -/
def enter (d : Disk) (loc : Location) (name : String) : Except DiskError Location :=
  if isIdle name then .ok loc
  else if name = ".." then .ok loc.dropLast
  else if maxNameBytes < name.utf8ByteSize then .error .nameTooLong
  else match d.get? (loc ++ [name]) with
    | some .directory => .ok (loc ++ [name])
    | some (.file _) => .error .notADirectory
    | none => .error .notFound

/-- Follows names from a directory. -/
def follow (d : Disk) (loc : Location) : List String → Except DiskError Target
  | [] => .ok (.here loc)
  | name :: rest =>
    if rest.all (· = "") ∧ name ∉ ["", ".", ".."] then
      if maxNameBytes < name.utf8ByteSize then .error .nameTooLong
      else .ok (.child loc name !rest.isEmpty)
    else do
      let loc ← d.enter loc name
      d.follow loc rest

/-- Where a path leads. -/
def resolve (d : Disk) (path : String) : Except DiskError Target :=
  if path = "" then .error .notFound
  else if path.toList.contains '\x00' then .error .nulInName
  else if maxPathBytes < path.utf8ByteSize then .error .nameTooLong
  else d.follow [] (names path)

/-- What is at a path. -/
def find (d : Disk) (path : String) : Except DiskError (Location × Entry) := do
  match ← d.resolve path with
  | .here loc => .ok (loc, .directory)
  | .child loc name slash =>
    match d.get? (loc ++ [name]) with
    | none => .error .notFound
    | some .directory => .ok (loc ++ [name], .directory)
    | some (.file b) => if slash then .error .notADirectory else .ok (loc ++ [name], .file b)

/-! ## 3. Operations on files -/

/-- Whether there is anything at a path. -/
def pathExists (d : Disk) (path : String) : Bool := (d.find path).isOk

def isDirectory (d : Disk) (path : String) : Bool :=
  match d.find path with
  | .ok (_, .directory) => true
  | _ => false

/-- The content of a file. -/
def read (d : Disk) (path : String) : Except DiskError Bytes := do
  match ← d.find path with
  | (_, .directory) => .error .isADirectory
  | (_, .file b) => .ok b

/-- Makes a directory. -/
def makeDirectory (d : Disk) (path : String) : Except DiskError Disk := do
  match ← d.resolve path with
  | .here _ => .error .exists
  | .child loc name _ =>
    match d.get? (loc ++ [name]) with
    | some _ => .error .exists
    | none => .ok (d.put (loc ++ [name]) .directory)

/-- Makes an empty file, or empties the one that is there; the answer is where it is. -/
def create (d : Disk) (path : String) : Except DiskError (Location × Disk) := do
  match ← d.resolve path with
  | .here _ => .error .isADirectory
  | .child _ _ true => .error .isADirectory
  | .child loc name false =>
    match d.get? (loc ++ [name]) with
    | some .directory => .error .isADirectory
    | _ => .ok (loc ++ [name], d.put (loc ++ [name]) (.file []))

/-- Writes bytes behind those of a file. -/
def append (d : Disk) (loc : Location) (b : Bytes) : Disk :=
  match d.get? loc with
  | some (.file content) => d.put loc (.file (content ++ b))
  | _ => d

/-- Moves a file to a path, in the place of a file that is there. -/
def rename (d : Disk) (source target : String) : Except DiskError Disk := do
  let (old, entry) ← d.find source
  match ← d.resolve target with
  | .here _ => .error .busy
  | .child _ _ true => .error .notADirectory
  | .child loc name false =>
    match d.get? (loc ++ [name]) with
    | some .directory => .error .isADirectory
    | _ => .ok ((d.remove old).put (loc ++ [name]) entry)

/-! ## 4. Directories above a path -/

/-- The path with some names, given from the last one up. -/
def pathOf (up : List String) : String := "/".intercalate up.reverse

/-- The names above the last one of a path, from the last one up.  Idle names between them stay, those
at either end of the rest do not count. -/
def above (path : String) : List String :=
  (((names path).reverse.dropWhile isIdle).drop 1).dropWhile isIdle

/-- Makes a directory with all those above it that are missing; its names are given from the last one
up.  Directories made before a failure stay. -/
def makeDirectories (d : Disk) : List String → Except DiskError Unit × Disk
  | [] => (.ok (), d)
  | name :: above =>
    if isIdle name then d.makeDirectories above
    else
      let path := pathOf (name :: above)
      -- what is there already will do if it is a directory
      let give (d : Disk) (e : DiskError) : Except DiskError Unit × Disk :=
        if d.isDirectory path then (.ok (), d) else (.error e, d)
      match d.makeDirectory path with
      | .ok d => (.ok (), d)
      | .error .notFound =>
        match d.makeDirectories above with
        | (.error e, d) => (.error e, d)
        | (.ok (), d) =>
          match d.makeDirectory path with
          | .ok d => (.ok (), d)
          | .error e => give d e
      | .error e => give d e

end Disk
end Replica
