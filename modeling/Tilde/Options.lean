import Tilde.Alphabet
import Tilde.Text.Quoted

/-!
What a scan may be told: the name of the file for places and messages, the
padding that completes the last word of a text, and whether to report the
characters around every place. Options that are built are checked for a padding
that is long enough and all blank; options that are changed afterwards are not,
and a scan takes them as they are.
-/

namespace Tilde

structure Options where
  file : String := "<input>"
  padding : String := "  "
  trace : Bool := false
  deriving DecidableEq, Repr, Inhabited

namespace Options

/-- How many blanks must follow the last character of a text. -/
def requiredBlanks : Nat := 2

/-- Whether a padding can be built into options. -/
def paddingSuffices (padding : String) : Bool :=
  requiredBlanks ≤ padding.length && padding.toList.all Alphabet.isBlank

def paddingComplaint (padding : String) : String :=
  s!"padding must be at least {requiredBlanks} whitespace characters, got {Text.quoted padding}"

/-- Options with a padding that suffices. -/
def checked (options : Options) : Except String Options :=
  if paddingSuffices options.padding then .ok options
  else .error (paddingComplaint options.padding)

theorem paddingSuffices_default : paddingSuffices ({} : Options).padding = true := by
  decide +kernel

theorem checked_eq_ok_iff {options built : Options} :
    options.checked = .ok built ↔
      paddingSuffices options.padding = true ∧ options = built := by
  unfold checked
  split <;> simp [*]

def describe (options : Options) : String :=
  "LexerOptions(filename=" ++ Text.quoted options.file ++ ", padding=" ++
    Text.quoted options.padding ++ ", trace=" ++ (if options.trace then "True" else "False") ++
    ")"

end Options

end Tilde
