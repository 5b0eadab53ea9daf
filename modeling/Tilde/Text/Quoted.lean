import Tilde.Text.Printable

/-!
A text shown on one line between quotation marks, the way log entries, token
listings and complaints about a value show it. The mark is the apostrophe,
unless the text holds an apostrophe and no double quote: then it is the double
quote, so that most texts need no escaped mark at all. A backslash and the mark
are escaped by a backslash, the usual line controls by their letter, and every
other character that cannot be seen by its code point in hexadecimal digits of a
fixed width.
-/

namespace Tilde.Text

def hexDigit (d : Nat) : Char :=
  Char.ofNat (d + if d < 10 then 0x30 else 0x57)

/-- A number in hexadecimal, zeros in front filling it up to `width` digits and
digits beyond that left out. -/
def hexNumeral (width n : Nat) : List Char :=
  match width with
  | 0 => []
  | width + 1 => hexNumeral width (n / 16) ++ [hexDigit (n % 16)]

/-- The escape of a character by its code point, in the least of the three widths
that holds it. -/
def escapeByCode (c : Char) : List Char :=
  let code := c.toNat
  if code ≤ 0xff then '\\' :: 'x' :: hexNumeral 2 code
  else if code ≤ 0xffff then '\\' :: 'u' :: hexNumeral 4 code
  else '\\' :: 'U' :: hexNumeral 8 code

/-- The quotation mark around a text. -/
def quoteMark (text : List Char) : Char :=
  if text.contains '\'' && !text.contains '"' then '"' else '\''

/-- One character of a text that stands between two such marks. -/
def escapeIn (mark : Char) (c : Char) : List Char :=
  if c == mark || c == '\\' then ['\\', c]
  else if c == '\n' then ['\\', 'n']
  else if c == '\r' then ['\\', 'r']
  else if c == '\t' then ['\\', 't']
  else if isPrintable c then [c]
  else escapeByCode c

def quotedChars (text : List Char) : List Char :=
  let mark := quoteMark text
  mark :: text.flatMap (escapeIn mark) ++ [mark]

/-- A text between quotation marks, on one line and with nothing unseen in it. -/
def quoted (text : String) : String :=
  String.ofList (quotedChars text.toList)

end Tilde.Text
