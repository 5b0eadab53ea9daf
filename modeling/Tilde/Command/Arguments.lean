import Tilde.Text.Numeral
import Tilde.Text.Quoted
import Tilde.Text.Similar
import Tilde.Token.Basic

/-!
The arguments of the command. Options may stand anywhere among the other
arguments, which are called operands, up to an argument of two dashes: what follows
that is operands only. An option is written out after two dashes or by its letter
after one, and letters may be run together. The width takes a value, which follows
an equals sign or the letter directly or else is the next argument, whatever that
looks like. Of several widths the last one counts.

What is wrong with the way options are written is found before anything is done.
The value of the width is looked at afterwards, unless help or the version is
asked for.
-/

namespace Tilde.Command

inductive Switch where
  | verbose
  | trace
  | width
  | version
  | help
  deriving DecidableEq, Repr

namespace Switch

def all : List Switch := [.verbose, .trace, .width, .version, .help]

def long : Switch → String
  | .verbose => "--verbose"
  | .trace => "--trace"
  | .width => "--width"
  | .version => "--version"
  | .help => "--help"

def letter? : Switch → Option Char
  | .verbose => some 'v'
  | .width => some 'w'
  | _ => none

def ofLong? (name : String) : Option Switch :=
  all.find? fun switch => switch.long == name

def ofLetter? (c : Char) : Option Switch :=
  all.find? fun switch => switch.letter? == some c

end Switch

inductive UsageFault where
  | unknownOption (name : String) (similar : List String)
  | missingValue (name : String)
  | unexpectedValue (name : String)
  | widthNotInteger (text : String)
  | widthTooSmall (width : Int)
  | noSuchFile (name : String)
  | isDirectory (name : String)
  | surplusOperands (operands : List String)
  deriving DecidableEq, Repr

namespace UsageFault

/-- The words that a misspelt option may have been meant for. -/
def guess : List String → String
  | [] => ""
  | [name] => s!" Did you mean {name}?"
  | names => " (Possible options: " ++ ", ".intercalate names ++ ")"

def message : UsageFault → String
  | .unknownOption name similar => s!"No such option: {name}{guess similar}"
  | .missingValue name => s!"Option {Text.quoted name} requires an argument."
  | .unexpectedValue name => s!"Option {Text.quoted name} does not take a value."
  | .widthNotInteger text =>
      s!"Invalid value for '-w' / '--width': {Text.quoted text} is not a valid integer range."
  | .widthTooSmall width =>
      s!"Invalid value for '-w' / '--width': {width} is not in the range x>=1."
  | .noSuchFile name =>
      s!"Invalid value for '[INPUT_FILE]': File {Text.quoted name} does not exist."
  | .isDirectory name =>
      s!"Invalid value for '[INPUT_FILE]': File {Text.quoted name} is a directory."
  | .surplusOperands operands =>
      let noun := if operands.length = 1 then "argument" else "arguments"
      s!"Got unexpected extra {noun} (" ++ " ".intercalate operands ++ ")"

/-- Whether the fault is about the value of an option as it is written, in which
case nothing is said about how the command is used. -/
def isTerse : UsageFault → Bool
  | .missingValue _ => true
  | .unexpectedValue _ => true
  | _ => false

end UsageFault

structure Arguments where
  verbose : Bool := false
  trace : Bool := false
  /-- The last width, as it is written. -/
  width : Option String := none
  /-- The first request for help or for the version. -/
  inquiry : Option Switch := none
  operands : List String := []
  deriving DecidableEq, Repr, Inhabited

namespace Arguments

/-- Takes note of an option that has no value. -/
def note (a : Arguments) : Switch → Arguments
  | .verbose => { a with verbose := true }
  | .trace => { a with trace := true }
  | .width => a
  | switch => { a with inquiry := a.inquiry.or (some switch) }

def setWidth (a : Arguments) (text : String) : Arguments :=
  { a with width := some text }

def addOperands (a : Arguments) (operands : List String) : Arguments :=
  { a with operands := a.operands ++ operands }

/-- What an argument comes to: it is complete, or the option of the given name
takes the next argument for its value. -/
inductive Reading where
  | complete (a : Arguments)
  | wantsValue (a : Arguments) (name : String)

def readLetters (a : Arguments) : List Char → Except UsageFault Reading
  | [] => .ok (.complete a)
  | c :: rest =>
      let name := "-" ++ String.singleton c
      match Switch.ofLetter? c with
      | none => .error (.unknownOption name [])
      | some .width =>
          if rest.isEmpty then .ok (.wantsValue a name)
          else .ok (.complete (a.setWidth (String.ofList rest)))
      | some switch => (a.note switch).readLetters rest

/-- Reads an option that is written out, with its value if it has one. -/
def readLong (a : Arguments) (switch : Switch) (value : Option String) :
    Except UsageFault Reading :=
  match switch, value with
  | .width, some value => .ok (.complete (a.setWidth value))
  | .width, none => .ok (.wantsValue a switch.long)
  | _, some _ => .error (.unexpectedValue switch.long)
  | _, none => .ok (.complete (a.note switch))

/-- The name of an option and the value that is written after an equals sign. -/
def splitValue (arg : String) : String × Option String :=
  let name := arg.toList.takeWhile (· ≠ '=')
  match arg.toList.drop name.length with
  | [] => (arg, none)
  | _ :: value => (String.ofList name, some (String.ofList value))

def readOption (a : Arguments) (arg : String) : Except UsageFault Reading :=
  let (name, value) := splitValue arg
  match Switch.ofLong? name with
  | some switch => a.readLong switch value
  | none =>
      match arg.toList with
      | '-' :: '-' :: _ =>
          .error (.unknownOption name (Text.Similar.suggestions name (Switch.all.map (·.long))))
      | _ => a.readLetters (arg.toList.drop 1)

/-- Whether an argument is read as options: it has something after its dash. -/
def isOption (arg : String) : Bool :=
  match arg.toList with
  | '-' :: _ :: _ => true
  | _ => false

/-- Reads the arguments in turn, on top of what was read before. -/
def readOnto (a : Arguments) : List String → Except UsageFault Arguments
  | [] => .ok a
  | arg :: rest =>
      if arg = "--" then .ok (a.addOperands rest)
      else if isOption arg then
        match a.readOption arg with
        | .error fault => .error fault
        | .ok (.complete a) => a.readOnto rest
        | .ok (.wantsValue a name) =>
            match rest with
            | [] => .error (.missingValue name)
            | value :: rest => (a.setWidth value).readOnto rest
      else (a.addOperands [arg]).readOnto rest

def read (args : List String) : Except UsageFault Arguments :=
  readOnto {} args

def labelWidth (a : Arguments) : Except UsageFault Int :=
  match a.width with
  | none => .ok Token.labelColumn
  | some text =>
      match Text.Numeral.integer? text with
      | none => .error (.widthNotInteger text)
      | some width => if 1 ≤ width then .ok width else .error (.widthTooSmall width)

end Arguments

end Tilde.Command
