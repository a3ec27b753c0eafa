/-
# Configuration of a node

The ports that a node serves on, where its sidecar is, where its snapshot is kept, and how long it
waits for the answer to a proposal.

The command line gives them by up to four positional arguments, the three ports and the file of the
snapshot, and the options `--sidecar-host`, `--propose-timeout-ms`, `--no-sync` and `--help`.
Arguments are read from left to right, positionals and options in any arrangement; after `--` all are
positionals.

A value is held back when it has been read, and checked when the next argument calls for it: a
positional, a known option, or the end.  An unknown option and a positional too many are refused
before that, so they win over a bad value directly in front of them.
-/
import Replica.Gateway
import Replica.Text.Cut

namespace Replica

/-! ## 1. The setup -/

/-- How a node is set up. -/
structure Config where
  /-- Where clients send requests. -/
  httpPort : UInt16
  /-- Where the sidecar sends committed entries. -/
  grpcPort : UInt16
  /-- Where the sidecar takes proposals. -/
  sidecarPort : UInt16
  sidecarHost : String
  /-- The file of the snapshot. -/
  dbFile : String
  /-- Whether a snapshot is forced to disk before it replaces the one before. -/
  syncOnWrite : Bool
  proposeTimeout : Duration
  deriving DecidableEq, Repr

namespace Config

/-- The file that a snapshot is kept in, unless told otherwise. -/
def defaultDbFile : String := "kv.db"

/-- The setup of a node that is told nothing. -/
def default : Config where
  httpPort := 8080
  grpcPort := 50051
  sidecarPort := 50052
  sidecarHost := "localhost"
  dbFile := defaultDbFile
  syncOnWrite := true
  proposeTimeout := defaultDeadline

/-- Every address of the machine. -/
def anyAddress : String := "0.0.0.0"

def httpAddress (c : Config) : String := anyAddress ++ ":" ++ toString c.httpPort.toNat

def grpcAddress (c : Config) : String := anyAddress ++ ":" ++ toString c.grpcPort.toNat

def sidecarEndpoint (c : Config) : String :=
  "http://" ++ c.sidecarHost ++ ":" ++ toString c.sidecarPort.toNat

end Config
/-! ## 2. What the arguments say -/

/-- The arguments that were given. -/
structure Arguments where
  httpPort : Option UInt16
  grpcPort : Option UInt16
  sidecarPort : Option UInt16
  dbFile : Option String
  sidecarHost : Option String
  proposeTimeoutMs : Option UInt64
  noSync : Bool
  deriving DecidableEq, Repr

/-- Why arguments are not taken. -/
inductive UsageError where
  /-- The text on usage is asked for. -/
  | help
  /-- An option that is none, or a positional too many. -/
  | unknownArgument
  /-- No value where one has to be, or an empty one. -/
  | missingValue
  /-- A value of a wrong form. -/
  | invalidValue
  /-- A value for an option that takes none. -/
  | unwantedValue
  /-- An option given twice. -/
  | repeated
  deriving DecidableEq, Repr

namespace Arguments

def none : Arguments := ⟨.none, .none, .none, .none, .none, .none, false⟩

/-- The setup that some arguments ask for.  What they leave out has a default here, which has to be
that of `Config.default`. -/
def config (a : Arguments) : Config where
  httpPort := a.httpPort.getD 8080
  grpcPort := a.grpcPort.getD 50051
  sidecarPort := a.sidecarPort.getD 50052
  sidecarHost := a.sidecarHost.getD "localhost"
  dbFile := a.dbFile.getD "kv.db"
  syncOnWrite := !a.noSync
  proposeTimeout := .ofMillis (a.proposeTimeoutMs.getD 5000).toNat

/-- The setup of a command line that says nothing is that of a node that is told nothing. -/
theorem config_none : none.config = Config.default := rfl

end Arguments

namespace CommandLine

/-! ## 3. Values -/

/-- The number that ASCII digits spell. -/
def digits? (cs : List Char) : Option Nat :=
  if !cs.isEmpty && cs.all Char.isDigit then
    some (cs.foldl (fun n c => n * 10 + (c.toNat - 48)) 0)
  else none

/-- A number below `2 ^ 64`, with a plus sign or without. -/
def word? (s : String) : Option UInt64 :=
  let digits := match s.toList with
    | '+' :: cs => digits? cs
    | cs => digits? cs
  match digits with
  | some n => if n < UInt64.size then some (.ofNat n) else none
  | none => none

/-- A port; a minus sign is allowed before a zero. -/
def port? (s : String) : Option UInt16 :=
  let digits := match s.toList with
    | '+' :: cs => digits? cs
    | '-' :: cs => (digits? cs).filter (· = 0)
    | cs => digits? cs
  match digits with
  | some n => if n < UInt16.size then some (.ofNat n) else none
  | none => none

/-- The arguments that take a value. -/
inductive Slot where
  | httpPort
  | grpcPort
  | sidecarPort
  | dbFile
  | sidecarHost
  | proposeTimeout
  deriving DecidableEq, Repr

/-- The positionals in their order. -/
def Slot.positionals : List Slot := [.httpPort, .grpcPort, .sidecarPort, .dbFile]

/-- The value of a reader, or the error for one of a wrong form. -/
def checked {α : Type} : Option α → Except UsageError α
  | some a => .ok a
  | none => .error .invalidValue

/-- Takes a value for a slot. -/
def Slot.put (value : String) (a : Arguments) : Slot → Except UsageError Arguments
  | .httpPort => do .ok { a with httpPort := some (← checked (port? value)) }
  | .grpcPort => do .ok { a with grpcPort := some (← checked (port? value)) }
  | .sidecarPort => do .ok { a with sidecarPort := some (← checked (port? value)) }
  | .dbFile =>
    if value.isEmpty then .error .missingValue else .ok { a with dbFile := some value }
  | .sidecarHost =>
    if a.sidecarHost.isSome then .error .repeated else .ok { a with sidecarHost := some value }
  | .proposeTimeout =>
    if a.proposeTimeoutMs.isSome then .error .repeated
    else do .ok { a with proposeTimeoutMs := some (← checked (word? value)) }

/-! ## 4. Reading the arguments -/

/-- Where the reading stands: what was taken, the positionals still free, the slot whose value is held
back or still to come, and whether only positionals follow. -/
structure Scan where
  taken : Arguments
  free : List Slot
  pending : Option (Slot × Option String)
  literal : Bool
  deriving DecidableEq, Repr

namespace Scan

def start : Scan := ⟨.none, Slot.positionals, none, false⟩

/-- Takes the value held back. -/
def settle (s : Scan) : Except UsageError Scan :=
  match s.pending with
  | none => .ok s
  | some (_, none) => .error .missingValue
  | some (slot, some value) => do .ok { s with taken := ← slot.put value s.taken, pending := none }

/-- A positional argument. -/
def positional (s : Scan) (arg : String) : Except UsageError Scan :=
  match s.free with
  | [] => .error .unknownArgument
  | slot :: free => do .ok { ← s.settle with free, pending := some (slot, some arg) }

/-- An option that takes a value, which may stand behind a `=`. -/
def valued (s : Scan) (slot : Slot) (value : Option String) : Except UsageError Scan := do
  let s ← s.settle
  match value with
  | none => .ok { s with pending := some (slot, none) }
  | some value => do .ok { s with taken := ← slot.put value s.taken }

/-- An option by its name and the value behind a `=`. -/
def option (s : Scan) (name : String) (value : Option String) : Except UsageError Scan :=
  if name = "sidecar-host" then s.valued .sidecarHost value
  else if name = "propose-timeout-ms" then s.valued .proposeTimeout value
  else if name = "no-sync" then
    if value.isSome then .error .unwantedValue
    else do
      let s ← s.settle
      if s.taken.noSync then .error .repeated
      else .ok { s with taken := { s.taken with noSync := true } }
  else if name = "help" then
    if value.isSome then .error .unwantedValue
    else do
      let _ ← s.settle
      .error .help
  else .error .unknownArgument

/-- The next argument. -/
def step (s : Scan) (arg : String) : Except UsageError Scan :=
  if s.literal then s.positional arg
  else match arg.toList with
    | ['-', '-'] => .ok { s with literal := true }
    | '-' :: '-' :: long =>
      match Text.cut? '=' long with
      | some (name, value) => s.option (String.ofList name) (some (String.ofList value))
      | none => s.option (String.ofList long) none
    | '-' :: 'h' :: _ => s.option "help" none
    | '-' :: _ :: _ => .error .unknownArgument
    | _ =>
      match s.pending with
      | some (slot, none) => .ok { s with pending := some (slot, some arg) }
      | _ => s.positional arg

end Scan

/-- The arguments that a command line gives. -/
def parse (args : List String) : Except UsageError Arguments := do
  let s ← args.foldlM Scan.step .start
  let s ← s.settle
  .ok s.taken

end CommandLine
end Replica
