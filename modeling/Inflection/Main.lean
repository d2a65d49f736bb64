import Inflection.Command.Run

/-!
# The program

Reads the files that the arguments name, runs the command, and writes what it gives.
-/

namespace Inflection

open Command in
/-- The files among some paths that can be read. -/
def readFiles (paths : List String) : IO Files := do
  let contents ← paths.mapM fun (path : String) => do
    try
      let content ← IO.FS.readFile path
      return (path, some content)
    catch _ => return (path, none)
  return fun path => (contents.lookup path).join

end Inflection

open Inflection Command in
/-- Runs the program and ends with its exit code. -/
def main (args : List String) : IO UInt32 := do
  let paths := ((Invocation.parse args).map Invocation.paths).getD []
  let outcome := Command.run (← readFiles paths) args
  (← IO.getStdout).putStr outcome.stdout
  (← IO.getStderr).putStr outcome.stderr
  return outcome.code.toNat.toUInt32
