/-
# The durable store

A store is a table with a storage that holds its snapshot.  Each change saves the whole table anew
before it is answered; taking away an absent key changes nothing and saves nothing.  A failed save is
reported and leaves the change in the table, so table and snapshot have then parted.
-/
import Replica.Snapshot
import Replica.Storage

namespace Replica

/-- A table and the storage that holds its snapshot. -/
structure Store (σ : Type) where
  table : Table
  storage : σ

namespace Store

variable {σ : Type} [Storage σ]

/-- The store with the table that a storage holds. -/
def load (storage : σ) : Except Failure (Store σ) :=
  match Storage.load storage with
  | .ok (some b) => .ok ⟨Snapshot.decode b, storage⟩
  | .ok none => .ok ⟨.empty, storage⟩
  | .error f => .error f

/-- The store with another table, after the attempt to save it. -/
def replace (table : Table) (s : Store σ) : Except Failure Unit × Store σ :=
  let (result, storage) := Storage.save (Snapshot.encode table) s.storage
  (result, ⟨table, storage⟩)

/-- Gives a key a value. -/
def set (key value : String) (s : Store σ) : Except Failure Unit × Store σ :=
  s.replace (s.table.insert key value)

/-- Takes a key away; the answer is whether it was there. -/
def remove (key : String) (s : Store σ) : Except Failure Bool × Store σ :=
  if s.table.contains key then
    match s.replace (s.table.erase key) with
    | (.ok (), s) => (.ok true, s)
    | (.error f, s) => (.error f, s)
  else (.ok false, s)

omit [Storage σ]

def get? (s : Store σ) (key : String) : Option String := s.table.get? key

def contains (s : Store σ) (key : String) : Bool := s.table.contains key

def entries (s : Store σ) : List (String × String) := s.table.toList

def size (s : Store σ) : Nat := s.table.size

def isEmpty (s : Store σ) : Bool := s.table.toList.isEmpty

end Store
end Replica
