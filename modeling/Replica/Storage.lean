/-
# Storage

A storage is a place for one snapshot.  `load` gives what was saved last, or nothing if nothing was
saved yet.  `save` puts new bytes in the place of the old ones as a whole; if it fails, what `load`
gives stays as it was.

`Memory` is the storage that tests and throwaway replicas use.  It counts the saves that succeed, and
it can be told to refuse all saves.
-/
import Replica.Bytes
import Replica.Failure

namespace Replica

/-- Places that hold one snapshot. -/
class Storage (σ : Type) where
  load : σ → Except Failure (Option Bytes)
  save : Bytes → σ → Except Failure Unit × σ

/-- A snapshot held in memory. -/
structure Memory where
  snapshot : Option Bytes
  /-- The number of saves that succeeded. -/
  saves : Nat
  /-- Whether saves are refused. -/
  failing : Bool
  deriving DecidableEq, Repr

namespace Memory

/-- The storage that starts from a snapshot or from none. -/
def ofSnapshot (snapshot : Option Bytes) : Memory := ⟨snapshot, 0, false⟩

/-- Refuses saves from now on, or accepts them again. -/
def failWrites (failing : Bool) (m : Memory) : Memory := { m with failing }

def save (b : Bytes) (m : Memory) : Except Failure Unit × Memory :=
  if m.failing then (.error (.persistence "injected write failure"), m)
  else (.ok (), { m with snapshot := some b, saves := m.saves + 1 })

instance : Storage Memory where
  load m := .ok m.snapshot
  save := save

end Memory
end Replica
