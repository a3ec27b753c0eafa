/-
# Applying commands

A replica applies the committed commands one by one.  A command that is not admissible is rejected
and leaves the store alone.  An admissible one makes at most one change, and the answer tells that
the store has it; only a failed save is an error, and it stops the node.

`Machine.apply` applies a command to a store.  `Applier.applyEntry` starts from the bytes of a log
entry: bytes that are no command count as a rejected one, and a failed save triggers the shutdown.
-/
import Replica.Command.Codec
import Replica.Shutdown
import Replica.Store

namespace Replica

/-! ## 1. The state machine -/

/-- What became of a command. -/
inductive Outcome where
  /-- The store reflects it. -/
  | applied
  /-- It was refused, and the store is as it was. -/
  | rejected (refusal : Refusal)
  deriving DecidableEq, Repr

namespace Outcome

def isApplied : Outcome → Bool
  | .applied => true
  | .rejected _ => false

/-- Why a command was rejected, in words. -/
def reason : Refusal → String
  | .unknownOperation _ => "unknown operation"
  | refusal => refusal.failure.message

/-- An outcome in words. -/
def message : Outcome → String
  | .applied => "applied"
  | .rejected refusal => "rejected: " ++ reason refusal

end Outcome

variable {σ : Type} [Storage σ]

/-- Does what a command asks for; an operation without a meaning is refused here too. -/
def Machine.perform (c : Command) (s : Store σ) : Except Failure Outcome × Store σ :=
  match c.operation with
  | .set =>
    match s.set c.key c.value with
    | (.ok (), s) => (.ok .applied, s)
    | (.error f, s) => (.error f, s)
  | .delete =>
    match s.remove c.key with
    | (.ok _, s) => (.ok .applied, s)
    | (.error f, s) => (.error f, s)
  | .unknown name => (.ok (.rejected (.unknownOperation name)), s)

/-- Applies a command. -/
def Machine.apply (c : Command) (s : Store σ) : Except Failure Outcome × Store σ :=
  match c.refusal? with
  | some refusal => (.ok (.rejected refusal), s)
  | none => Machine.perform c s

/-! ## 2. The applier -/

/-- A store with the signal that a failed save triggers. -/
structure Applier (σ : Type) where
  store : Store σ
  shutdown : Shutdown

namespace Applier

/-- Applies a committed log entry; the answer is whether the command in it was applied. -/
def applyEntry (entry : Bytes) (a : Applier σ) : Except Failure Bool × Applier σ :=
  match Command.decode entry with
  | .error _ => (.ok false, a)
  | .ok c =>
    match Machine.apply c a.store with
    | (.ok outcome, store) => (.ok outcome.isApplied, { a with store })
    | (.error f, store) => (.error f, ⟨store, a.shutdown.trigger (.fatal f.message)⟩)

/-- The answer to the sidecar's call for an entry: whether it was applied, or why the call failed. -/
inductive Answer where
  | success (applied : Bool)
  | internal (message : String)
  | outOfRange (message : String)
  deriving DecidableEq, Repr

/-- Applies an entry at the sidecar's call. -/
def answer (entry : Bytes) (a : Applier σ) : Answer × Applier σ :=
  match a.applyEntry entry with
  | (.ok applied, a) => (.success applied, a)
  | (.error f, a) => (.internal f.message, a)

end Applier
end Replica
