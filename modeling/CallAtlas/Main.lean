import CallAtlas.CommandLine.Run
import CallAtlas.Json.Reader
import CallAtlas.Source.Codec

/-!
# Main — the command line

The files of the project are read from the standard input, as one array of files with their syntax
trees.
-/

namespace CallAtlas

/-- The workspace that a listing of files describes. -/
def Workspace.ofListing? (directory listing : String) : Option Workspace := do
  match ← Json.parse? listing with
  | .arr files => return { directory, files := ← files.mapM SourceFile.ofJson? }
  | _ => none

end CallAtlas

def main (args : List String) : IO UInt32 := do
  let directory := (← IO.currentDir).toString
  let listing ← (← IO.getStdin).readToEnd
  match CallAtlas.Workspace.ofListing? directory listing with
  | none =>
    IO.eprintln "Error: the standard input is no list of files"
    return 1
  | some w =>
    let outcome := CallAtlas.CommandLine.run w args
    IO.print outcome.stdout
    IO.eprint outcome.stderr
    return outcome.code.toUInt32
