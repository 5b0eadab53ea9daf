import Tilde.Command.Arguments
import Tilde.Command.Files
import Tilde.Source
import Tilde.Text.Newline

/-!
A run of the command. The arguments either settle the answer by themselves or name
a file; what is found under the name settles the rest. Of several things that are
wrong the first in this order is reported: the way options are written, the width,
the file, and operands beyond the file. Help and the version come before all but
the first of these, and it is no failure if no file is named.
-/

namespace Tilde.Command

def programName : String := "tildelex"

def version : String := "0.3.0"

def usageLine : String := s!"Usage: {programName} [OPTIONS] [INPUT_FILE]"

def helpText : List String :=
  [usageLine,
   "",
   "  Tokenize a tildec source file.",
   "",
   "  INPUT_FILE is the source file to scan. The whole file is read into memory and",
   "  padded with trailing whitespace before scanning.",
   "",
   "  Examples:",
   "      tildelex hello.tl              # Check that the file lexes",
   "      tildelex -v hello.tl           # Print the token table",
   "      tildelex -v -w 20 hello.tl     # Wider kind column",
   "",
   "Options:",
   "  -v, --verbose              Print every token as '<Kind>: <lexeme>'",
   "  --trace                    Log the scanner's character window at every",
   "                             position",
   "  -w, --width INTEGER RANGE  Column width of the kind label in verbose output",
   "                             [default: 16; x>=1]",
   "  --version                  Show the version and exit.",
   "  --help                     Show this message and exit."]

/-- Lines as the command writes them. -/
def echoAll (lines : List String) : String :=
  String.join (lines.map echo)

def inquiryResponse : Switch → Response
  | .help => { status := .success, stdout := echoAll helpText }
  | _ => { status := .success, stdout := echo s!"{programName}, version {version}" }

/-- The answer to arguments that make no sense. -/
def UsageFault.response (fault : UsageFault) : Response where
  status := .invalidArgs
  stderr :=
    let usage := [usageLine, s!"Try '{programName} --help' for help.", ""]
    echoAll ((if fault.isTerse then [] else usage) ++ [s!"Error: {fault.message}"])

structure Job where
  file : String
  verbose : Bool
  trace : Bool
  width : Int
  /-- The operands after the file. -/
  surplus : List String
  deriving DecidableEq, Repr

inductive Plan where
  | respond (response : Response)
  | scan (job : Job)
  deriving DecidableEq, Repr

def plan (args : List String) : Plan :=
  match Arguments.read args with
  | .error fault => .respond fault.response
  | .ok a =>
      match a.inquiry with
      | some switch => .respond (inquiryResponse switch)
      | none =>
          match a.labelWidth with
          | .error fault => .respond fault.response
          | .ok width =>
              match a.operands with
              | [] => .respond
                  { status := .success, stderr := echo "Error: Please include a file" }
              | file :: surplus => .scan ⟨file, a.verbose, a.trace, width, surplus⟩

namespace Job

/-- What scans of the file are told. -/
def options (job : Job) : Options where
  file := Path.shown job.file
  trace := job.trace

/-- The log as the command writes it, if it was asked to. -/
def logLines (job : Job) (log : Array Entry) : String :=
  if job.trace then
    String.join (log.toList.map fun entry => s!"{entry.level.name}: {entry.message}\n")
  else ""

def listing (job : Job) (tokens : TokenSeq) : String :=
  if job.verbose then echoAll (tokens.toList.map fun token => token.row job.width) else ""

def scanText (job : Job) (text : String) : Response :=
  let outcome := lexLogged text job.options
  match outcome.result with
  | .error fault =>
      let response := (Trouble.malformed fault.diagnostic).response job.verbose
      { response with stderr := job.logLines outcome.log ++ response.stderr }
  | .ok tokens =>
      let log := outcome.log.push (.summary job.options.file tokens.size)
      { status := .success, stdout := job.listing tokens, stderr := job.logLines log }

def scanBytes (job : Job) (bytes : List UInt8) : Response :=
  match Text.Utf8.decode bytes with
  | .error fault => (Trouble.undecodable fault).response job.verbose "Read"
  | .ok text => job.scanText (String.ofList (Text.unifyNewlines text))

def respond (job : Job) (found : Found) : Response :=
  match found with
  | .nothing => (UsageFault.noSuchFile job.file).response
  | .directory => (UsageFault.isDirectory job.file).response
  | .unreadable error =>
      if job.surplus.isEmpty then (Trouble.system error).response job.verbose "Read"
      else (UsageFault.surplusOperands job.surplus).response
  | .file bytes =>
      if job.surplus.isEmpty then job.scanBytes bytes
      else (UsageFault.surplusOperands job.surplus).response

end Job

/-- A run of the command on the given arguments, where names are looked up by
`look`. -/
def run (look : String → Found) (args : List String) : Response :=
  match plan args with
  | .respond response => response
  | .scan job => job.respond (look job.file)

end Tilde.Command
