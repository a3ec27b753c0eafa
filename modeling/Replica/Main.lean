/-
# The executable

Reads the arguments, looks at the state file, and starts the node that the library describes.  What is
decided is decided by `Program.run`; this module only reads the file, prints, and gives the exit code.
A started node lasts until its input ends, which counts as the operator's interrupt.
-/
import Replica.Program

namespace Replica.Main

/-- The text on usage. -/
def usage : String :=
  "Replicated key-value node driven by a consensus sidecar\n\n" ++
  "Usage: node [OPTIONS] [HTTP_PORT] [GRPC_PORT] [SIDECAR_PORT] [DB_FILE]\n\n" ++
  "Arguments:\n" ++
  "  [HTTP_PORT]     Where clients send requests [default: 8080]\n" ++
  "  [GRPC_PORT]     Where the sidecar sends committed entries [default: 50051]\n" ++
  "  [SIDECAR_PORT]  Where the sidecar takes proposals [default: 50052]\n" ++
  "  [DB_FILE]       The file of the snapshot [default: kv.db]\n\n" ++
  "Options:\n" ++
  "      --sidecar-host <HOST>      Where the sidecar runs [default: localhost]\n" ++
  "      --propose-timeout-ms <MS>  How long to wait for a verdict [default: 5000]\n" ++
  "      --no-sync                  Do not force snapshots to disk\n" ++
  "  -h, --help                     Print this text\n"

/-- A usage error in words. -/
def complaint : UsageError → String
  | .help => usage
  | .unknownArgument => "error: unexpected argument"
  | .missingValue => "error: a value is missing"
  | .invalidValue => "error: invalid value"
  | .unwantedValue => "error: a value was given to an option that takes none"
  | .repeated => "error: an option was given twice"

/-- The part of the disk that a start looks at: the state file and the directories above it. -/
def look (path : String) : IO Disk := do
  let above := (Disk.empty.makeDirectories (Disk.above path)).2
  let place (e : Entry) : Disk :=
    match above.resolve path with
    | .ok (.child directory name _) => above.put (directory ++ [name]) e
    | _ => above
  try
    let content ← IO.FS.readBinFile path
    return place (.file content.toList)
  catch
    | .noFileOrDirectory .. => return above
    | _ => return place .directory

/-- The disk that a command line is about. -/
def diskOf (args : List String) : IO Disk :=
  match CommandLine.parse args with
  | .ok a => look a.config.dbFile
  | .error _ => return .empty

/-- Reads until the input ends. -/
partial def drain (input : IO.FS.Stream) : IO Unit := do
  if (← input.getLine).isEmpty then return ()
  drain input

def run (args : List String) : IO UInt32 := do
  let disk ← diskOf args
  match (Program.run args false disk).1 with
  | none => do
    IO.println "Node started"
    drain (← IO.getStdin)
    return 0
  | some ending => do
    match ending with
    | .usage .help => IO.print usage
    | .usage e => IO.eprintln (complaint e)
    | other => IO.eprint (other.report.getD "")
    return ending.exitCode.toUInt32

end Replica.Main

def main (args : List String) : IO UInt32 := Replica.Main.run args
