/-
# Shutdown

A node stops once, and for the first reason it is given; later reasons change nothing.
-/

namespace Replica

/-- Why a node stops. -/
inductive StopReason where
  /-- Its operator asked for it. -/
  | requested
  /-- A save failed, so table and snapshot may have parted. -/
  | fatal (message : String)
  /-- The server of a name ended by itself. -/
  | serverExited (server : String)
  deriving DecidableEq, Repr

namespace StopReason

def isFatal : StopReason → Bool
  | .fatal _ => true
  | _ => false

/-- A reason in words. -/
def message : StopReason → String
  | .requested => "shutdown requested"
  | .fatal m => "fatal error: " ++ m
  | .serverExited server => server ++ " server exited"

end StopReason

/-- The signal that stops a node, with the reason once there is one. -/
structure Shutdown where
  reason? : Option StopReason
  deriving DecidableEq, Repr

namespace Shutdown

/-- The signal before any trigger. -/
def idle : Shutdown := ⟨none⟩

def isTriggered (s : Shutdown) : Bool := s.reason?.isSome

/-- Gives a reason; the first one stays. -/
def trigger (reason : StopReason) (s : Shutdown) : Shutdown :=
  match s.reason? with
  | some _ => s
  | none => ⟨some reason⟩

/-- What a waiter gets that finds the signal in these states, one after the other; nothing while it
still waits. -/
def wait (states : List Shutdown) : Option StopReason := states.findSome? (·.reason?)

/-- The states of a signal under some triggers, the first one included. -/
def run (s : Shutdown) : List StopReason → List Shutdown
  | [] => [s]
  | reason :: rest => s :: run (s.trigger reason) rest

end Shutdown
end Replica
