import Tilde.Enumeration

/-!
How a run of the command ends, for whoever started it.
-/

namespace Tilde.Command

inductive Status where
  | success
  /-- The text cannot be scanned. -/
  | buildError
  /-- The arguments make no sense or the file cannot be read. -/
  | invalidArgs
  /-- Anything that nobody foresaw. -/
  | internalError
  deriving DecidableEq, Repr, Inhabited

namespace Status

def all : List Status :=
  [.success, .buildError, .invalidArgs, .internalError]

def name : Status → String
  | .success => "SUCCESS"
  | .buildError => "BUILD_ERROR"
  | .invalidArgs => "INVALID_ARGS"
  | .internalError => "INTERNAL_ERROR"

def code (status : Status) : Nat :=
  status.ctorIdx

theorem mem_all (status : Status) : status ∈ all := by
  cases status <;> decide

instance : Enumeration Status where
  title := "ExitCode"
  values := all
  name := name
  number status := status.code
  mem_values := mem_all

end Status

end Tilde.Command
