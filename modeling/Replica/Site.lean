/-
# A node beside its sidecar

A site is where a node runs: a disk, a sidecar, and the node while it is started.  A start opens the
store, checks the address of the sidecar and takes the ports, in this order, and fails at the first
of them that fails.  A stopped node leaves its files, and the next start reads them again.

The sidecar does what its mode says with a proposal.  In the mode `commit` it hands the entry to the
node at once and accepts it then; one that the node could not apply it does not accept.

A proposal and a committed entry travel as one message with one field of bytes: a tag, the number of
the bytes in groups of seven bits, and the bytes; empty bytes leave the message empty.  A receiver
takes messages up to a fixed size and refuses longer ones unread.
-/
import Replica.Node
import Replica.Config
import Replica.Storage.StateFile

namespace Replica

/-! ## 1. Messages on the wire -/

namespace Wire

/-- The longest message that a receiver takes. -/
def maxMessageBytes : Nat := 4194304

/-- How many groups of seven bits a number fills; numbers of five groups suffice for every length. -/
def groups (n : Nat) : Nat :=
  if n < 0x80 then 1
  else if n < 0x4000 then 2
  else if n < 0x200000 then 3
  else if n < 0x10000000 then 4
  else 5

/-- The size of the message with a number of bytes in its field. -/
def messageSize (length : Nat) : Nat :=
  if length = 0 then 0 else 1 + groups length + length

/-- Why a message is refused, if it is too long. -/
def refusal? (length : Nat) : Option String :=
  if maxMessageBytes < messageSize length then
    some ("Error, decoded message length too large: found " ++ toString (messageSize length) ++
      " bytes, the limit is: " ++ toString maxMessageBytes ++ " bytes")
  else none

/-- The time that an answer takes on its way. -/
def delay : Duration := ⟨1⟩

end Wire

/-! ## 2. The sidecar -/

/-- What a sidecar does with a proposal. -/
inductive SidecarMode where
  /-- Have the node apply it, then accept it. -/
  | commit
  /-- Do not accept it. -/
  | reject
  /-- Never answer. -/
  | hang
  /-- Let the call fail. -/
  | fail
  /-- Be out of reach. -/
  | gone
  deriving DecidableEq, Repr

/-- A sidecar and what it was asked. -/
structure Sidecar where
  mode : SidecarMode
  /-- Whether it can reach the node. -/
  attached : Bool
  /-- The proposals that came, the latest first. -/
  received : List Bytes
  deriving DecidableEq, Repr

/-! ## 3. Starting -/

/-- The servers of a node. -/
inductive Server where
  | http
  | grpc
  deriving DecidableEq, Repr

/-- The state file of a setup. -/
def Config.stateFile (c : Config) : StateFile := ⟨c.dbFile, c.syncOnWrite⟩

/-- The failure to take a port that is in use. -/
def portInUse (address : String) : Failure :=
  .transport ("Failed to bind " ++ address ++ ": Address already in use (os error 98)")

/-- Takes both ports, that of the sidecar's calls first.  Port 0 stands for any free one; another one
serves one listener only. -/
def Config.takePorts (c : Config) (busy : Option Server) : Except Failure Unit :=
  if busy = some .grpc then .error (portInUse c.grpcAddress)
  else if busy = some .http ∨ (c.httpPort = c.grpcPort ∧ c.httpPort ≠ 0) then
    .error (portInUse c.httpAddress)
  else .ok ()

/-- Opens the store of a node and checks what else it needs. -/
def Config.start (c : Config) (busy : Option Server) (d : Disk) :
    Except Failure (Applier FileStorage) × Disk :=
  match Store.openFile c.stateFile d with
  | (.error f, d) => (.error f, d)
  | (.ok store, d) =>
    match Endpoint.check c.sidecarEndpoint, c.takePorts busy with
    | .error f, _ => (.error f, d)
    | .ok (), .error f => (.error f, d)
    | .ok (), .ok () => (.ok ⟨store, .idle⟩, d)

/-! ## 4. Sites -/

/-- A node that runs, or the disk that it has left. -/
inductive Life where
  | running (applier : Applier FileStorage)
  | stopped (disk : Disk)

/-- A setup, a sidecar and a node. -/
structure Site where
  config : Config
  /-- The server whose port is taken by another program, if one is. -/
  busy : Option Server
  sidecar : Sidecar
  life : Life

namespace Life

def disk : Life → Disk
  | .running a => a.store.storage.disk
  | .stopped d => d

/-- The same life on a changed disk. -/
def setDisk (d : Disk) : Life → Life
  | .running a =>
    .running { a with store := { a.store with storage := { a.store.storage with disk := d } } }
  | .stopped _ => .stopped d

end Life

namespace Site

/-- Starts a node; the answer is how many keys it has. -/
def start (s : Site) : Except Failure Nat × Site :=
  match s.config.start s.busy s.life.disk with
  | (.ok a, _) => (.ok a.store.size, { s with life := .running a })
  | (.error f, d) => (.error f, { s with life := .stopped d })

/-- Hands an entry to the node, if it runs; one that is too long for a message does not reach it. -/
def answer? (entry : Bytes) (s : Site) : Option (Applier.Answer × Site) :=
  match s.life, Wire.refusal? entry.length with
  | .stopped _, _ => none
  | .running _, some message => some (.outOfRange message, s)
  | .running a, none =>
    let (answer, a) := a.answer entry
    some (answer, { s with life := .running a })

/-- What the sidecar does with a proposal that has reached it. -/
def receive (b : Bytes) (s : Site) : Reply × Site :=
  match s.sidecar.mode with
  | .hang => (.never, s)
  | .fail | .gone => (.after Wire.delay (.error (.transport "Propose failed")), s)
  | .reject => (.after Wire.delay (.ok false), s)
  | .commit =>
    if !s.sidecar.attached then (.after Wire.delay (.ok false), s)
    else match s.answer? b with
      | some (.success _, s) => (.after Wire.delay (.ok true), s)
      | some (_, s) => (.after Wire.delay (.ok false), s)
      | none => (.after Wire.delay (.ok false), s)

instance : Transport Site where
  call b s :=
    if s.sidecar.mode = .gone then
      (.after Wire.delay (.error (.transport "Propose failed: sidecar out of reach")), s)
    else match Wire.refusal? b.length with
      | some message => (.after Wire.delay (.error (.transport ("Propose failed: " ++ message))), s)
      | none =>
        receive b { s with sidecar := { s.sidecar with received := b :: s.sidecar.received } }

/-- Proposes to the sidecar and waits for its verdict until the deadline. -/
def tryPropose (b : Bytes) (s : Site) : Except Failure Bool × Site :=
  let (result, g) := (Bounded.mk s s.config.proposeTimeout ⟨0⟩).tryPropose b
  (result, g.transport)

instance : Gateway Site where
  propose b s :=
    let (result, s) := s.tryPropose b
    (Bounded.accepted result, s)

/-- Answers a client's request, if the node runs. -/
def http? (r : Http.Request) (s : Site) : Option (Http.Response × Site) :=
  match s.life with
  | .running a => some (Http.handle r a.store.table s)
  | .stopped _ => none

/-- Does something to the node, if it runs. -/
def onNode? {α : Type} (f : Applier FileStorage → α × Applier FileStorage) (s : Site) :
    Option (α × Site) :=
  match s.life with
  | .running a =>
    let (x, a) := f a
    some (x, { s with life := .running a })
  | .stopped _ => none

/-- Does something to the store of the node, if it runs. -/
def onStore? {α : Type} (f : Store FileStorage → α × Store FileStorage) (s : Site) :
    Option (α × Site) :=
  s.onNode? fun a =>
    let (x, store) := f a.store
    (x, { a with store })

/-- Gives the node a reason to stop, if it runs. -/
def trigger? (reason : StopReason) (s : Site) : Option (Unit × Site) :=
  s.onNode? fun a => ((), { a with shutdown := a.shutdown.trigger reason })

/-- Waits for the node to end, if it runs and has a reason to. -/
def join? (s : Site) : Option (StopReason × Site) :=
  match s.life with
  | .running a => a.shutdown.reason?.map fun reason => (reason, { s with life := .stopped s.life.disk })
  | .stopped _ => none

/-- Asks the node to stop and waits for its end, if it runs. -/
def stop? (s : Site) : Option (StopReason × Site) := do
  let ((), s) ← s.trigger? .requested
  s.join?

/-- Does something to the disk. -/
def onDisk (f : Disk → Disk) (s : Site) : Site := { s with life := s.life.setDisk (f s.life.disk) }

/-- The content of the state file, if it is there. -/
def stateFile? (s : Site) : Option Bytes := (s.life.disk.read s.config.dbFile).toOption

end Site

/-! ## 5. What a node listens on -/

/-- The address of the listener of a server; any port of the machine's addresses leads to it. -/
def listenAddress : Server → String
  | .http | .grpc => Config.anyAddress

end Replica
