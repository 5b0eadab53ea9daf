import Tilde.Token.Lexeme

/-!
The classes of characters and the rule that ends a word. The classes of blanks,
symbols and operators are read off the table of fixed lexemes, all of which have
one character there, so that the table is the only place where the alphabet of
the language is written down.

A word ends before a blank, before and after a symbol, and before and after an
operator. Since symbols and operators are single characters, the same rule makes
each of them a lexeme of its own.
-/

namespace Tilde.Alphabet

/-- The characters that make up a lexeme of the list all by themselves. -/
def singles (lexemes : List String) : List Char :=
  lexemes.filterMap fun lexeme =>
    match lexeme.toList with
    | [c] => some c
    | _ => none

def blankChars : List Char := singles (Lexeme.blanks.map (·.1))

def symbolChars : List Char := singles (Lexeme.ofCategory .symbol)

def operatorChars : List Char := singles (Lexeme.ofCategory .operator)

def digitChars : List Char := ['0', '1', '2', '3', '4', '5', '6', '7', '8', '9']

theorem blankChars_eq : blankChars = [' ', '\t', '\n'] := by decide +kernel

theorem symbolChars_eq :
    symbolChars = ['=', '(', ')', '{', '}', '[', ']', '.', ',', ':', ';', '\'', '"'] := by
  decide +kernel

theorem operatorChars_eq : operatorChars = ['+', '-', '*', '/', '^', '>', '<'] := by
  decide +kernel

/-- Spaces, tabs and line ends separate words and are part of none. -/
def isBlank (c : Char) : Bool := blankChars.contains c

/-- Punctuation, both quotation marks included. -/
def isSymbol (c : Char) : Bool := symbolChars.contains c

def isOperator (c : Char) : Bool := operatorChars.contains c

def isDigit (c : Char) : Bool := digitChars.contains c

def opensComment (c : Char) : Bool := c == Lexeme.commentDelimiter

def opensString (c : Char) : Bool := c == Lexeme.stringDelimiter

/-- Whether a character ends the word before it and stands in a word by itself. -/
def splits (c : Char) : Bool := isSymbol c || isOperator c

/-- Whether a character is part of words: it is no blank, splits nothing and opens no
comment. The string delimiter splits, being a symbol. -/
def isWordChar (c : Char) : Bool := !isBlank c && !splits c && !opensComment c

/-- Whether a word that `current` has just been added to is complete when `next`
comes after it. -/
def endsWord (current next : Char) : Bool :=
  isBlank next || splits current || splits next

/-- A class of characters as a class of texts: only a text of one character
belongs to it. -/
def alone (holds : Char → Bool) (text : String) : Bool :=
  match text.toList with
  | [c] => holds c
  | _ => false

/-- The rule that ends a word, asked of two texts. -/
def endsWordText (current next : String) : Bool :=
  alone isBlank next || alone splits current || alone splits next

end Tilde.Alphabet
