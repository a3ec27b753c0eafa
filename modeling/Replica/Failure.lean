/-
# Failures

What can go wrong in a node, in three classes of recovery.  A failure to decode or to accept a
command is answered on the spot and stops nothing.  A failed or late proposal counts as not
accepted, and a caller may try it again.  A failed save or file access is fatal: the map in memory
and its snapshot may have parted, so the node has to stop.

A late proposal tells how long it was given: a stretch of time in whole nanoseconds.  Its text has the
largest unit among seconds, milliseconds, microseconds and nanoseconds of which it holds one, then
the rest as a decimal fraction without zeros at its end.
-/

namespace Replica

/-! ## 1. Durations -/

/-- A stretch of time. -/
structure Duration where
  nanos : Nat
  deriving DecidableEq, Repr

namespace Duration

def ofMillis (n : Nat) : Duration := ⟨n * 1000000⟩

/-- `n` seconds and `nanos` nanoseconds. -/
def ofSeconds (n nanos : Nat) : Duration := ⟨n * 1000000000 + nanos⟩

/-- The whole milliseconds in a duration. -/
def millis (d : Duration) : Nat := d.nanos / 1000000

/-- A fraction of `places` decimal places, without zeros at the end and without a point of its own
where nothing is left. -/
def fraction (places n : Nat) : String :=
  let digits := (toString n).toList
  let padded := List.replicate (places - digits.length) '0' ++ digits
  let kept := (padded.reverse.dropWhile (· = '0')).reverse
  if kept.isEmpty then "" else "." ++ String.ofList kept

/-- A number of nanoseconds in a unit of `10 ^ places` of them. -/
def inUnit (nanos places : Nat) (unit : String) : String :=
  toString (nanos / Nat.pow 10 places) ++ fraction places (nanos % Nat.pow 10 places) ++ unit

/-- The text of a duration. -/
def text (d : Duration) : String :=
  if 1000000000 ≤ d.nanos then inUnit d.nanos 9 "s"
  else if 1000000 ≤ d.nanos then inUnit d.nanos 6 "ms"
  else if 1000 ≤ d.nanos then inUnit d.nanos 3 "µs"
  else inUnit d.nanos 0 "ns"

end Duration
/-! ## 2. Failures -/

/-- Why an operation of a node failed. -/
inductive Failure where
  /-- Bytes that are no command. -/
  | decode (message : String)
  /-- A command that cannot be written as bytes. -/
  | encode (message : String)
  /-- A snapshot that cannot be written or read back. -/
  | persistence (message : String)
  /-- A proposal without an answer at its deadline. -/
  | timeout (deadline : Duration)
  /-- A proposal that failed before an answer came. -/
  | transport (message : String)
  /-- A command whose operation no replica knows. -/
  | unknownOperation (operation : String)
  /-- A command that cannot be applied. -/
  | invalidCommand (reason : String)
  /-- A file access that failed. -/
  | io (message : String)
  deriving DecidableEq, Repr

namespace Failure

/-- The text of a failure. -/
def message : Failure → String
  | .decode m => "Decode error: " ++ m
  | .encode m => "Encode error: " ++ m
  | .persistence m => "Persistence error: " ++ m
  | .timeout d => "Proposal timed out after " ++ d.text
  | .transport m => "Transport error: " ++ m
  | .unknownOperation op => "Unknown operation: " ++ op
  | .invalidCommand reason => "Invalid command: " ++ reason
  | .io m => "IO error: " ++ m

/-- Whether a node that meets this failure has to stop. -/
def isFatal : Failure → Bool
  | .persistence _ | .io _ => true
  | _ => false

/-- Whether proposing again may succeed. -/
def isRetryable : Failure → Bool
  | .transport _ | .timeout _ => true
  | _ => false

end Failure
end Replica
