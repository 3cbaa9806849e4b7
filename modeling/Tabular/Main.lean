import Tabular.Cli.Run

/-!
The command itself. It gathers what a run may read, runs, and writes what the run leaves. No
database engine is linked in, so every database is reported as one that cannot be opened.
-/
namespace Tabular.Cli

/-- The text of a failure to read, which for a directory is the one the system gives. -/
def failureText : IO.Error → String
  | .inappropriateType _ code text => s!"{text} (os error {code})"
  | failure => toString failure

/-- All that a file holds. If it cannot be read, reading the source fails in its turn. -/
def readAll (file : IO.FS.Handle) : IO Source := do
  try
    let bytes ← file.readBinToEnd
    return .ofBytes bytes.data.toList
  catch failure => return .unreadable (failureText failure)

def openFile (path : Bytes) : IO (Option Source) := do
  try
    let file ← IO.FS.Handle.mk (Utf8.decodeLossy path) .read
    let source ← readAll file
    return some source
  catch _ => return none

/-- What a run with the given arguments may read. Standard input is left alone unless it is the
input. -/
def gatherSurroundings (arguments : List Bytes) : IO Surroundings := do
  let nothing : Surroundings :=
    { standardInput := .ofBytes [], open? := fun _ => none, target := fun _ => .nothing }
  match Request.parse arguments with
  | .error _ => return nothing
  | .ok { help := true, .. } => return nothing
  | .ok { input := some path, .. } =>
    let file ← openFile path
    return { nothing with open? := fun asked => if asked = path then file else none }
  | .ok { input := none, .. } =>
    let bytes ← (← IO.getStdin).readBinToEnd
    return { nothing with standardInput := .ofBytes bytes.data.toList }

end Tabular.Cli

open Tabular in
def main (arguments : List String) : IO UInt32 := do
  let arguments := arguments.map Utf8.encode
  let outcome := Cli.run (← Cli.gatherSurroundings arguments) arguments
  let out ← IO.getStdout
  out.write ⟨outcome.out.toArray⟩
  out.flush
  (← IO.getStderr).write ⟨outcome.err.toArray⟩
  return UInt32.ofNat outcome.code
