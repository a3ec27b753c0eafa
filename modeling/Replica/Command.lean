/-
# Commands

A command asks for one change of one key.  Its operation travels by name, so that a name which this
replica does not know still makes a command; such a command is refused when it is applied.  A command
is admissible if its operation is known, its key is not empty, and key and value fit a record.
-/
import Replica.Failure
import Replica.Snapshot

namespace Replica

/-! ## 1. Operations -/

/-- What a command asks for. -/
inductive Operation where
  /-- Give a key a value. -/
  | set
  /-- Take a key away. -/
  | delete
  /-- A name that no replica knows. -/
  | unknown (name : String)
  deriving DecidableEq, Repr

namespace Operation

/-- The operation of a name. -/
def ofName (name : String) : Operation :=
  if name = "SET" then .set else if name = "DELETE" then .delete else .unknown name

/-- The name of an operation. -/
def name : Operation → String
  | .set => "SET"
  | .delete => "DELETE"
  | .unknown name => name

def isRecognized : Operation → Bool
  | .unknown _ => false
  | _ => true

end Operation

/-! ## 2. Commands and their admission -/

/-- One change of one key; the value matters to `set` only. -/
structure Command where
  operation : Operation
  key : String
  value : String
  deriving DecidableEq, Repr

/-- Why a command is not applied. -/
inductive Refusal where
  | unknownOperation (name : String)
  | emptyKey
  | keyDoesNotFit
  | valueDoesNotFit
  deriving DecidableEq, Repr

namespace Refusal

/-- A refusal as the failure that a caller is shown. -/
def failure : Refusal → Failure
  | .unknownOperation name => .unknownOperation name
  | .emptyKey => .invalidCommand "key cannot be empty"
  | .keyDoesNotFit => .invalidCommand "key cannot contain '=' or line breaks"
  | .valueDoesNotFit => .invalidCommand "value cannot contain line breaks"

end Refusal

namespace Command

def set (key value : String) : Command := ⟨.set, key, value⟩

def delete (key : String) : Command := ⟨.delete, key, ""⟩

/-- The first reason against applying a command, if there is one. -/
def refusal? (c : Command) : Option Refusal :=
  match c.operation with
  | .unknown name => some (.unknownOperation name)
  | operation =>
    if c.key.isEmpty then some .emptyKey
    else if !Record.keyFits c.key then some .keyDoesNotFit
    else if operation = .set ∧ !Record.valueFits c.value then some .valueDoesNotFit
    else none

end Command
end Replica
