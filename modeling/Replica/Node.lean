/-
# A node in memory

A node puts the parts together: an applier for the entries that the sidecar has committed, and the
interface for clients, which proposes through a gateway and reads from the applier's table.  It works
over any storage and any gateway; with a `Recording` gateway, `commit` plays a sidecar that commits
everything in the order in which it was proposed.
-/
import Replica.Http.Router
import Replica.Machine

namespace Replica

/-- An applier and a gateway. -/
structure Node (σ γ : Type) where
  applier : Applier σ
  gateway : γ

namespace Node

variable {σ γ : Type} [Storage σ] [Gateway γ]

/-- The node that starts from what a storage holds. -/
def start (storage : σ) (gateway : γ) : Except Failure (Node σ γ) :=
  match Store.load storage with
  | .ok store => .ok ⟨⟨store, .idle⟩, gateway⟩
  | .error f => .error f

def store (n : Node σ γ) : Store σ := n.applier.store

def table (n : Node σ γ) : Table := n.applier.store.table

def storage (n : Node σ γ) : σ := n.applier.store.storage

def shutdown (n : Node σ γ) : Shutdown := n.applier.shutdown

/-- The node after something was done to its store. -/
def onStore {α : Type} (f : Store σ → α × Store σ) (n : Node σ γ) : α × Node σ γ :=
  let (a, store) := f n.applier.store
  (a, { n with applier := { n.applier with store } })

/-- The node after something was done to its storage, behind the back of the store. -/
def onStorage {α : Type} (f : σ → α × σ) (n : Node σ γ) : α × Node σ γ :=
  n.onStore fun s =>
    let (a, storage) := f s.storage
    (a, { s with storage })

/-- The node after something was done to its applier. -/
def onApplier {α : Type} (f : Applier σ → α × Applier σ) (n : Node σ γ) : α × Node σ γ :=
  let (a, applier) := f n.applier
  (a, { n with applier })

/-- The node after something was done to its gateway. -/
def onGateway {α : Type} (f : γ → α × γ) (n : Node σ γ) : α × Node σ γ :=
  let (a, gateway) := f n.gateway
  (a, { n with gateway })

/-- Everything rebuilt from the storage; the gateway stays. -/
def restart (n : Node σ γ) : Except Failure (Node σ γ) := start n.storage n.gateway

/-- A command straight to the state machine; a failure does not stop the node. -/
def perform (c : Command) (n : Node σ γ) : Except Failure Outcome × Node σ γ :=
  n.onStore (Machine.apply c)

/-- A committed entry. -/
def apply (entry : Bytes) (n : Node σ γ) : Except Failure Bool × Node σ γ :=
  n.onApplier (Applier.applyEntry entry)

/-- A committed entry at the sidecar's call. -/
def answer (entry : Bytes) (n : Node σ γ) : Applier.Answer × Node σ γ :=
  n.onApplier (Applier.answer entry)

/-- A reason to stop. -/
def trigger (reason : StopReason) (n : Node σ γ) : Node σ γ :=
  { n with applier := { n.applier with shutdown := n.applier.shutdown.trigger reason } }

/-- A client's write. -/
def write (payload : Bytes) (n : Node σ γ) : Ingress.WriteReply × Node σ γ :=
  n.onGateway (Ingress.write payload)

/-- A client's read. -/
def read (key : Option String) (n : Node σ γ) : String := Ingress.read key n.table

/-- A client's request. -/
def http (r : Http.Request) (n : Node σ γ) : Http.Response × Node σ γ :=
  n.onGateway (Http.handle r n.table)

/-- Entries applied in order, also after one that failed. -/
def applyAll (entries : List Bytes) (n : Node σ γ) : List (Except Failure Bool) × Node σ γ :=
  let (results, n) := entries.foldl (fun (results, n) entry =>
    let (result, n) := apply entry n
    (result :: results, n)) ([], n)
  (results.reverse, n)

omit [Gateway γ] in
/-- Takes out all proposals and applies them in order. -/
def commit (n : Node σ Recording) : List (Except Failure Bool) × Node σ Recording :=
  let (entries, n) := n.onGateway Recording.drain
  n.applyAll entries

end Node
end Replica
