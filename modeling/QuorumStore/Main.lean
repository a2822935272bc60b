/-
The command line: starts the replicas of a configuration file, or the one that
is named, and serves requests on the standard input with replies on the standard
output.
-/
import QuorumStore.Config.Problem
import QuorumStore.Service.Host

namespace QuorumStore.Main

/-- The configuration file if none is named. -/
def defaultPath : String := "dynamo.toml"

/-- The bytes of a file, unless it cannot be read. -/
def readFile? (path : String) : IO (Option Bytes) := do
  try
    let content ← IO.FS.readBinFile path
    return some content.toList
  catch _ => return none

/-- How many bytes are taken from the standard input at a time. -/
def chunkSize : USize := 65536

/-- Writes replies. -/
def reply (lines : List String) : IO Unit := do
  let out ← IO.getStdout
  lines.forM out.putStr
  out.flush

/-- Serves the standard input until it ends or the connection does. -/
partial def serve (input : IO.FS.Stream) (begun : Nat) (h : Host) : IO Unit := do
  let chunk ← input.read chunkSize
  let h := h.elapse ((← IO.monoMsNow) - begun)
  if chunk.isEmpty then
    reply h.hangUp.1
  else
    let (lines, h) := h.receive chunk.toList
    reply lines
    if h.session.isOpen then serve input begun h

/-- Starts the replicas and serves. -/
def run (path : String) (only : Option String) : IO UInt32 := do
  match Config.ofFile (← readFile? path) with
  | .error e =>
    IO.eprintln ("Error: " ++ e.message)
    return 1
  | .ok config =>
    let problems := config.problems
    problems.forM fun p => IO.eprintln p.message
    if !problems.isEmpty then
      IO.eprintln
        ("Error: " ++ toString problems.length ++ " configuration error(s) in " ++ path)
      return 1
    match Launch.launch (fun _ => true) config only with
    | .error e =>
      IO.eprintln ("Error: " ++ e.message)
      return 1
    | .ok cluster =>
      serve (← IO.getStdin) (← IO.monoMsNow) (Host.start config cluster)
      return 0

end QuorumStore.Main

/-- Takes the path of the configuration and the name of a replica, both of which
may be left out. -/
def main (args : List String) : IO UInt32 :=
  QuorumStore.Main.run (args[0]?.getD QuorumStore.Main.defaultPath) args[1]?
