import Tilde.Scan

/-!
Texts that are to be scanned. The scan completes a word when it sees the
character after it, so a text must end in blanks. A source is a text that does,
with the options it is to be scanned with; `lex` makes one of any text by adding
the padding of its options.
-/

namespace Tilde

/-- Whether a text ends in the blanks that a scan needs. -/
def endsInPadding (text : String) : Bool :=
  let tail := text.toList.drop (text.length - Options.requiredBlanks)
  tail.length == Options.requiredBlanks && tail.all Alphabet.isBlank

/-- A text with padding after it. -/
def pad (text : String) (padding : String := ({} : Options).padding) : String :=
  text ++ padding

structure Source where
  text : String
  options : Options

namespace Source

/-- A source of a text that ends in blanks. -/
def ofText (text : String) (options : Options := {}) : Except Fault Source :=
  if endsInPadding text then .ok ⟨text, options⟩ else .error (.unpadded Options.requiredBlanks)

/-- Scans the text and keeps what the scan reported. -/
def scan (source : Source) : Scan.Outcome :=
  Scan.run source.options source.text

/-- The tokens of a source. -/
def tokens (source : Source) : Except Fault TokenSeq :=
  source.scan.result

end Source

/-- Pads a text and scans it. A padding that leaves the text without the blanks
it needs is refused before the scan. -/
def lexLogged (text : String) (options : Options := {}) : Scan.Outcome :=
  match Source.ofText (pad text options.padding) options with
  | .ok source => source.scan
  | .error fault => ⟨#[], .error fault⟩

/-- The tokens of a text. -/
def lex (text : String) (options : Options := {}) : Except Fault TokenSeq :=
  (lexLogged text options).result

end Tilde
