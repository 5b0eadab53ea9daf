import Tilde.Command.Status
import Tilde.Fault
import Tilde.Text.Ansi
import Tilde.Text.Utf8

/-!
What ends a run of the command early, and what the command says of it. A text that
cannot be scanned speaks for itself by its diagnostic. What the system refuses, or
bytes that are no text, are reported under a heading of their own. All else is an
error of the command itself, and is owned up to.
-/

namespace Tilde.Command

/-- What a run of the command writes and how it ends. -/
structure Response where
  status : Status
  stdout : String := ""
  stderr : String := ""
  deriving DecidableEq, Repr, Inhabited

/-- A line as the command writes it to anything but a terminal. -/
def echo (line : String) : String :=
  Text.stripControls (line ++ "\n")

/-- What the system says when it refuses: a plain text, or a code with a reason
and the names of the files, one or two, that it is about. -/
inductive SystemError where
  | plain (text : String)
  | coded (code : Int) (reason : String) (file : Option String) (other : Option String)
  deriving DecidableEq, Repr

def SystemError.message : SystemError → String
  | .plain text => text
  | .coded code reason file other =>
      let files := match file, other with
        | some file, some other => ": " ++ Text.quoted file ++ " -> " ++ Text.quoted other
        | some file, none => ": " ++ Text.quoted file
        | none, _ => ""
      s!"[Errno {code}] {reason}{files}"

inductive Trouble where
  /-- The text cannot be scanned. -/
  | malformed (diagnostic : Diagnostic)
  | system (error : SystemError)
  /-- The bytes of the file are no text. -/
  | undecodable (fault : Text.Utf8.Fault)
  | unforeseen (text : String)
  deriving DecidableEq, Repr

namespace Trouble

def status : Trouble → Status
  | .malformed _ => .buildError
  | .system _ => .invalidArgs
  | .undecodable _ => .invalidArgs
  | .unforeseen _ => .internalError

/-- The heading over what the system or the decoder says. It names what was being
done where that is known. -/
def heading (activity : String) : String :=
  if activity.isEmpty then "Error: " else activity ++ " error: "

def message (activity : String) : Trouble → String
  | .malformed diagnostic => diagnostic.render
  | .system error => heading activity ++ error.message
  | .undecodable fault => heading activity ++ fault.message
  | .unforeseen text => "Internal error: " ++ text

/-- What follows the message of an unforeseen error for those who want to know
more. There is nothing to trace it to. -/
def trace : Trouble → String
  | .unforeseen _ => "NoneType: None\n"
  | _ => ""

def response (trouble : Trouble) (verbose : Bool) (activity : String := "") : Response where
  status := trouble.status
  stderr :=
    echo (trouble.message activity) ++ if verbose then trouble.trace else ""

end Trouble

end Tilde.Command
