/-
# The state file

A snapshot on a disk lives in one file.  A save writes the new snapshot to a second file beside it,
whose name has `.tmp` behind it, and then moves that file into the place of the first.  So the state
file holds the old snapshot until the move and the new one after it, wherever the save stops.

A save is a list of steps (`StateFile.saveSteps`), done in order until one fails.
-/
import Replica.Storage.Disk
import Replica.Store

namespace Replica

/-- Where a snapshot is kept, and whether it is forced to disk before it is moved into place. -/
structure StateFile where
  path : String
  sync : Bool
  deriving DecidableEq, Repr

namespace StateFile

/-- The path that a snapshot is written to before it is moved. -/
def tempPath (f : StateFile) : String := f.path ++ ".tmp"

/-! ## 1. Preparing the directory -/

/-- Makes the directory of a state file where it is missing. -/
def prepare (path : String) (d : Disk) : Except Failure Unit × Disk :=
  let above := Disk.above path
  if above.isEmpty || d.pathExists (Disk.pathOf above) then (.ok (), d)
  else match d.makeDirectories above with
    | (.ok (), d) => (.ok (), d)
    | (.error e, d) =>
      (.error (.persistence ("Failed to create data directory: " ++ e.message)), d)

/-! ## 2. Saving, step by step -/

/-- The steps of a save. -/
inductive SaveStep where
  /-- Make the temporary file, or empty it. -/
  | create
  /-- Write bytes behind those that it has. -/
  | write (b : Bytes)
  /-- Hand to the system what is still held back. -/
  | flush
  /-- Wait until the bytes are on the disk. -/
  | sync
  /-- Move the file into the place of the state file. -/
  | rename
  deriving DecidableEq, Repr

/-- The steps that save a snapshot. -/
def saveSteps (f : StateFile) (b : Bytes) : List SaveStep :=
  [.create, .write b, if f.sync then .sync else .flush, .rename]

/-- A save under way: the disk, and where the temporary file is. -/
structure Progress where
  disk : Disk
  temp : Location

/-- Does a step. -/
def SaveStep.run (f : StateFile) (s : Progress) : SaveStep → Except Failure Progress
  | .create =>
    match s.disk.create f.tempPath with
    | .ok (temp, disk) => .ok ⟨disk, temp⟩
    | .error e => .error (.persistence ("Failed to create temp snapshot file: " ++ e.message))
  | .write b => .ok { s with disk := s.disk.append s.temp b }
  | .flush | .sync => .ok s
  | .rename =>
    match s.disk.rename f.tempPath f.path with
    | .ok disk => .ok { s with disk }
    | .error e => .error (.persistence ("Failed to rename temp file to snapshot: " ++ e.message))

/-- Does steps in order until one fails, which changes nothing more. -/
def runSteps (f : StateFile) (s : Progress) : List SaveStep → Except Failure Unit × Progress
  | [] => (.ok (), s)
  | step :: rest =>
    match step.run f s with
    | .ok s => runSteps f s rest
    | .error e => (.error e, s)

/-! ## 3. The file as a storage -/

/-- The content of a state file, if there is one. -/
def load (f : StateFile) (d : Disk) : Except Failure (Option Bytes) :=
  match d.read f.path with
  | .ok b => .ok (some b)
  | .error .notFound => .ok none
  | .error e =>
    .error (.persistence ("Failed to read snapshot file " ++ f.path ++ ": " ++ e.message))

/-- Replaces the content of a state file. -/
def save (f : StateFile) (b : Bytes) (d : Disk) : Except Failure Unit × Disk :=
  let (result, s) := f.runSteps ⟨d, []⟩ (f.saveSteps b)
  (result, s.disk)

end StateFile

/-- A state file on its disk. -/
structure FileStorage where
  file : StateFile
  disk : Disk
  deriving DecidableEq, Repr

instance : Storage FileStorage where
  load s := s.file.load s.disk
  save b s :=
    let (result, disk) := s.file.save b s.disk
    (result, { s with disk })

/-- Opens the store of a state file; what a failure leaves on the disk stays. -/
def Store.openFile (f : StateFile) (d : Disk) : Except Failure (Store FileStorage) × Disk :=
  match StateFile.prepare f.path d with
  | (.error e, d) => (.error e, d)
  | (.ok (), d) => (Store.load ⟨f, d⟩, d)

end Replica
