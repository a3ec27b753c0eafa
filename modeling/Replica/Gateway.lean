/-
# Gateways to the sidecar

A write is only proposed by the node that receives it: a gateway hands the bytes of the command to
the consensus sidecar and gives back whether they were accepted.  Acceptance is not application; the
command comes back as a committed entry.

A gateway may lose the answer, never the bytes: a proposal counts as not accepted when it fails or
when its answer is late, and is not sent again.

* `Recording` keeps the proposals and answers each one alike.
* `proposeWithin` asks a `Transport` and waits for the answer until a deadline.
-/
import Replica.Bytes
import Replica.Failure

namespace Replica

/-- Ways to propose a command; the answer is whether it was accepted. -/
class Gateway (γ : Type) where
  propose : Bytes → γ → Bool × γ

/-! ## 1. A gateway that records -/

/-- A gateway that keeps what is proposed, the oldest first, and gives one verdict on everything. -/
structure Recording where
  accepting : Bool
  pending : List Bytes
  deriving DecidableEq, Repr

namespace Recording

def empty (accepting : Bool) : Recording := ⟨accepting, []⟩

def setAccepting (accepting : Bool) (g : Recording) : Recording := { g with accepting }

/-- Takes out everything proposed so far. -/
def drain (g : Recording) : List Bytes × Recording := (g.pending, { g with pending := [] })

instance : Gateway Recording where
  propose b g := (g.accepting, { g with pending := g.pending ++ [b] })

end Recording

/-! ## 2. A gateway with a deadline -/

/-- How a proposal is answered: after some time, or never. -/
inductive Reply where
  | never
  | after (delay : Duration) (result : Except Failure Bool)

/-- Ways to send a proposal, without any deadline. -/
class Transport (τ : Type) where
  call : Bytes → τ → Reply × τ

/-- The longest time that a node waits for the answer to a proposal, unless told otherwise. -/
def defaultDeadline : Duration := .ofSeconds 5 0

/-- What a caller gets that waits for a reply until a deadline, and how long it waits.  An answer that
comes just at the deadline counts. -/
def Reply.within (deadline : Duration) : Reply → Except Failure Bool × Duration
  | .after delay result =>
    if delay.nanos ≤ deadline.nanos then (result, delay) else (.error (.timeout deadline), deadline)
  | .never => (.error (.timeout deadline), deadline)

/-- A transport, the time to wait for each answer, and the time spent waiting so far. -/
structure Bounded (τ : Type) where
  transport : τ
  deadline : Duration
  waited : Duration

namespace Bounded

variable {τ : Type} [Transport τ]

/-- Sends a proposal once and waits for the answer until the deadline. -/
def tryPropose (b : Bytes) (g : Bounded τ) : Except Failure Bool × Bounded τ :=
  let (reply, transport) := Transport.call b g.transport
  let (result, spent) := reply.within g.deadline
  (result, { g with transport, waited := ⟨g.waited.nanos + spent.nanos⟩ })

/-- Whether the result of a proposal says that it was accepted. -/
def accepted : Except Failure Bool → Bool
  | .ok verdict => verdict
  | .error _ => false

instance : Gateway (Bounded τ) where
  propose b g :=
    let (result, g) := g.tryPropose b
    (accepted result, g)

end Bounded

/-! ## 3. A transport with a script -/

/-- A transport that gives the replies of a script in order, and keeps what it was sent. -/
structure Scripted where
  replies : List Reply
  /-- The proposals sent, the latest first. -/
  sent : List Bytes

instance : Transport Scripted where
  call b t := (t.replies.headD .never, { replies := t.replies.tail, sent := b :: t.sent })

end Replica
