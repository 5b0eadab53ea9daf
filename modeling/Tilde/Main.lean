import Tilde.Command.Run

/-!
The command itself: it looks up the file that its arguments name, and writes what
the run says.
-/

open Tilde.Command

namespace Tilde

/-- The code with which the system refuses to go on from a file as if it were a
directory. -/
def notADirectory : UInt32 := 20

/-- What a name leads to in the file system. -/
def findFile (name : String) : IO Found := do
  try
    let bytes ← IO.FS.readBinFile name
    return .file bytes.toList
  catch error =>
    match error with
    | .noFileOrDirectory .. => return .nothing
    | .inappropriateType _ code _ =>
        return if code == notADirectory then .nothing else .directory
    | error => return .unreadable (.plain (toString error))

end Tilde

def main (args : List String) : IO UInt32 := do
  let response ← match plan args with
    | .respond response => pure response
    | .scan job => do pure (job.respond (← Tilde.findFile job.file))
  (← IO.getStderr).putStr response.stderr
  (← IO.getStdout).putStr response.stdout
  return response.status.code.toUInt32
