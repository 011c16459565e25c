import OpenCrud.CommandLine.Location
import OpenCrud.CommandLine.Outcome

/-!
# The program

Reads the command line and the datamodel, and writes what the command line leads to.
-/

namespace OpenCrud.Program

open CommandLine

/-- What a path leads to. -/
def status (path : String) : IO PathStatus := do
  try
    let place ← IO.FS.realPath path
    return if ← place.isDir then .directory else .file
  catch _ => return .missing

/-- What the paths of a call lead to. -/
def statuses (call : Call) : IO (String → PathStatus) := do
  let known ← call.paths.mapM fun path => do return (path, ← status path)
  return fun path => (known.lookup path).getD .missing

/-- The outcome of a command line. -/
def outcome (directory : String) (args : List String) : IO Outcome := do
  match Call.read args with
  | .error refusal => return refusal.outcome
  | .ok call =>
    match call.job (← statuses call) with
    | .error refusal => return refusal.outcome
    | .ok job => return job.run (fullPath directory) (← IO.FS.readFile job.datamodel)

/-- Writes a file into a directory that may have to be made, and tells whether it could be written. -/
def writeFile (directory : String) (file : OutputFile) : IO Bool := do
  try
    let place := (← IO.currentDir) / fullPath directory file.path
    if let some parent := place.parent then IO.FS.createDirAll parent
    IO.FS.writeFile place file.text
    return true
  catch e =>
    IO.eprintln (toString e)
    return false

end OpenCrud.Program

/-- Carries out a command line. -/
def main (args : List String) : IO UInt32 := do
  let directory := (← IO.currentDir).toString
  let planned ← OpenCrud.Program.outcome directory args
  let isWritten ← planned.file.mapM (OpenCrud.Program.writeFile directory)
  let finished := planned.finish (isWritten.getD true)
  let outcome := finished.onStreams (← (← IO.getStdout).isTty) (← (← IO.getStderr).isTty)
  IO.print outcome.stdout
  IO.eprint outcome.stderr
  if let some failure := outcome.failure then IO.eprintln failure.message
  return outcome.exitCode.toUInt32
