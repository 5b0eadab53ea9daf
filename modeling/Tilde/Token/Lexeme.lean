import Tilde.Token.Kind

/-!
The fixed lexemes of the language: the spellings that always have the same kind.
They come in four families, and the table of all of them is the families one
after the other. No spelling is listed twice, so the table is a function, and its
order matters only to those who print it.

A lexeme outside the table is a number if there is a digit anywhere in it and an
identifier otherwise; `x1` is a number.
-/

namespace Tilde.Lexeme

/-- The character that opens and closes a comment. -/
def commentDelimiter : Char := '~'

/-- The character that opens and closes a string literal. -/
def stringDelimiter : Char := '"'

/-- Punctuation, the delimiters and the markers. -/
def symbols : List (String × Kind) :=
  [("=", .assignment), ("(", .leftParen), (")", .rightParen), ("\x7b", .leftBrace),
   ("\x7d", .rightBrace), ("[", .leftBracket), ("]", .rightBracket), (".", .dot),
   (",", .comma), (":", .colon), (";", .semicolon), ("'", .singleQuote),
   (String.singleton stringDelimiter, .doubleQuote),
   (String.singleton commentDelimiter, .comment),
   ("#", .tag), ("&", .reference), ("?", .question)]

/-- Type names, truth values and control words. -/
def keywords : List (String × Kind) :=
  [("char", .charType), ("int", .intType), ("prec", .precType), ("bool", .boolType),
   ("string", .stringType), ("byte", .byteType), ("class", .classType),
   ("static", .staticType), ("true", .trueWord), ("false", .falseWord),
   ("assert", .assertWord), ("print", .printWord), ("input", .inputWord),
   ("fun", .functionWord), ("return", .returnWord), ("returns", .returnsWord),
   ("while", .whileWord), ("do", .doWord), ("for", .forWord), ("in", .inWord),
   ("if", .ifWord), ("else", .elseWord), ("include", .includeWord),
   ("break", .breakWord), ("continue", .continueWord)]

def operators : List (String × Kind) :=
  [("+", .plus), ("-", .minus), ("*", .star), ("/", .slash), ("^", .caret),
   (">", .greater), ("<", .less)]

/-- The blanks. They have kinds, but no token is ever made of them. -/
def blanks : List (String × Kind) :=
  [(" ", .space), ("\t", .tab), ("\n", .newline)]

def fixed : List (String × Kind) :=
  symbols ++ keywords ++ operators ++ blanks

def ofCategory (category : Category) : List String :=
  (fixed.filter fun entry => entry.2.category == category).map (·.1)

/-- The kind of a lexeme: that of the table if it is there, and else a number or
an identifier according to whether it has a digit. Every lexeme has a kind. -/
def kindOf (lexeme : String) : Kind :=
  match fixed.lookup lexeme with
  | some kind => kind
  | none => if lexeme.toList.any Char.isDigit then .numericLiteral else .identifier

theorem nodup_fixed : (fixed.map (·.1)).Nodup := by decide +kernel

end Tilde.Lexeme
