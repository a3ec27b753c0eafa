/-
# The program

A run of the program reads its arguments, starts the node, and lasts until the node has a reason to
stop.  An interrupt asks it to.  The exit code tells wrong usage and failure apart, and what was asked
for, help or stop, counts as success.
-/
import Replica.Config
import Replica.Site

namespace Replica

/-- How a run ends. -/
inductive Ending where
  /-- The arguments were not taken, or ask for help. -/
  | usage (e : UsageError)
  /-- The node did not start. -/
  | failed (f : Failure)
  /-- The node was stopped. -/
  | stopped (reason : StopReason)
  deriving DecidableEq, Repr

namespace Ending

def exitCode : Ending → Nat
  | .usage .help => 0
  | .usage _ => 2
  | .failed _ => 1
  | .stopped .requested => 0
  | .stopped _ => 1

/-- What is written to the error stream; nothing is said here of a text on usage. -/
def report : Ending → Option String
  | .usage .help => some ""
  | .usage _ => none
  | .failed f => some ("Error: " ++ f.message ++ "\n")
  | .stopped .requested => some ""
  | .stopped reason => some ("Error: node stopped: " ++ reason.message ++ "\n")

end Ending

namespace Program

/-- What an interrupt does to a node. -/
def interrupt (a : Applier FileStorage) : Applier FileStorage :=
  { a with shutdown := a.shutdown.trigger .requested }

/-- A run on a disk, with an interrupt once the node runs or without one; no ending while it runs. -/
def run (args : List String) (interrupted : Bool) (d : Disk) : Option Ending × Disk :=
  match CommandLine.parse args with
  | .error e => (some (.usage e), d)
  | .ok arguments =>
    match arguments.config.start none d with
    | (.error f, d) => (some (.failed f), d)
    | (.ok a, d) =>
      let a := if interrupted then interrupt a else a
      (a.shutdown.reason?.map .stopped, d)

end Program
end Replica
