/-!
Line ends. A line may end in a line feed, in a carriage return or in a carriage
return with a line feed after it. A text whose lines all end in a line feed is
made of any other by writing a line feed for each carriage return and leaving out
the line feeds that came after one.
-/

namespace Tilde.Text

/-- What is left of a character that comes after another. -/
def unifyNewline (previous : Option Char) (c : Char) : Option Char :=
  if c = '\r' then some '\n'
  else if c = '\n' ∧ previous = some '\r' then none
  else some c

/-- A text with a line feed at the end of each of its lines. -/
def unifyNewlines (text : List Char) : List Char :=
  ((none :: text.map some).zip text).filterMap fun pair => unifyNewline pair.1 pair.2

end Tilde.Text
