import NameBinding.Command.Arguments

/-!
# The command line

Reads the files that a request names, runs the request and prints its outcome.
-/

namespace NameBinding

/-- Reads one file. -/
def loadFile (path : String) : IO FileState := do
  try
    return .text (← IO.FS.readFile path)
  catch
    | .noFileOrDirectory .. => return .absent
    | _ => return .unreadable

/-- Reads all files of a request and runs it. -/
def Request.execute (request : Request) : IO Outcome := do
  let loaded ← request.paths.mapM fun path => do return (path, ← loadFile path)
  return request.run fun path => ((loaded.find? (·.1 == path)).map (·.2)).getD .absent

end NameBinding

open NameBinding in
/-- Exits with 0 if every unit was resolved, with 1 if the command failed and with 2 if the
arguments make no request. -/
def main (arguments : List String) : IO UInt32 := do
  match Request.ofArguments arguments with
  | .error problem =>
    IO.eprintln (problem.message ++ "\n\n" ++ usage)
    return 2
  | .ok request =>
    let outcome ← request.execute
    for line in outcome.stdout do IO.println line
    for line in outcome.stderr do IO.eprintln line
    match outcome.failure with
    | none => return 0
    | some failure =>
      IO.eprintln ("Error: " ++ failure.message)
      return 1
