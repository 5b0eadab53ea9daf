import Tilde.Span

/-!
What a scan reports of its work, entry by entry. An entry keeps what it is about;
its text is computed from that. A scan reports each finished word and span and,
when it is done, how many tokens there were, and if it is asked to it also reports
the characters around every place it stops at. Whoever runs the scan may report
its end once more, as a matter of general interest.
-/

namespace Tilde

inductive Level where
  | debug
  | info
  deriving DecidableEq, Repr

def Level.name : Level → String
  | .debug => "DEBUG"
  | .info => "INFO"

/-- Which activity an entry comes from: the scan itself, the reading of spans or
the command that runs the scan. -/
inductive Origin where
  | scan
  | span
  | command
  deriving DecidableEq, Repr

inductive Entry where
  /-- The characters before, at and after the place of the scan. -/
  | window (previous : Option Char) (current next : Char)
  /-- A finished word. -/
  | word (token : Token)
  /-- A finished span, by its kind, its line and column and the length of its body. -/
  | span (kind : Kind) (line column : Int) (length : Nat)
  /-- The end of the scan of a file and the number of its tokens. -/
  | total (file : String) (count : Nat)
  | summary (file : String) (count : Nat)
  deriving DecidableEq, Repr

namespace Entry

def level : Entry → Level
  | .summary _ _ => .info
  | _ => .debug

def origin : Entry → Origin
  | .span _ _ _ _ => .span
  | .summary _ _ => .command
  | _ => .scan

/-- A character of a window, quoted; before the first character there is nothing. -/
def pane (c : Option Char) : String :=
  Text.quoted (String.ofList c.toList)

def tally (file : String) (count : Nat) : String :=
  s!"Tokenized {file}: {count} tokens"

def message : Entry → String
  | .window previous current next =>
      s!"window {pane previous} {pane current} {pane next}"
  | .word token => s!"{token.kind.label}: {Text.quoted token.lexeme}"
  | .span kind line column length =>
      s!"Scanned {kind.label} at {line}:{column} ({length} chars)"
  | .total file count => tally file count
  | .summary file count => tally file count

/-- Whether an entry shows the characters around a place. -/
def isWindow : Entry → Bool
  | .window _ _ _ => true
  | _ => false

end Entry

def Span.entry (span : Span) : Entry :=
  .span span.token.kind span.start.line span.start.column span.length

end Tilde
