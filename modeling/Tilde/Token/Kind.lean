import Tilde.Token.Category

/-!
The kinds of token of the language. The set is closed: reading a text never makes
a new kind. Type names and control words have a kind each, so have the one-letter
signs; identifiers, literals and comments are the kinds of the tokens that no
fixed spelling stands for.

A kind is shown by its label, words run together with capitals, and named by the
same words in capitals with lines between them. The second spelling is computed
from the first.
-/

namespace Tilde

inductive Kind where
  | charType
  | intType
  | precType
  | boolType
  | stringType
  | byteType
  | classType
  | staticType
  | trueWord
  | falseWord
  | functionWord
  | returnWord
  | returnsWord
  | whileWord
  | doWord
  | forWord
  | inWord
  | ifWord
  | elseWord
  | includeWord
  | breakWord
  | continueWord
  | assertWord
  | printWord
  | inputWord
  | plus
  | minus
  | star
  | slash
  | caret
  | greater
  | less
  | assignment
  | leftParen
  | rightParen
  | leftBrace
  | rightBrace
  | leftBracket
  | rightBracket
  | dot
  | comma
  | colon
  | semicolon
  | singleQuote
  | doubleQuote
  | tag
  | reference
  | question
  | space
  | tab
  | newline
  | comment
  | identifier
  | stringLiteral
  | numericLiteral
  deriving DecidableEq, Repr, Inhabited

namespace Kind

def all : List Kind :=
  [.charType, .intType, .precType, .boolType, .stringType, .byteType, .classType,
   .staticType, .trueWord, .falseWord, .functionWord, .returnWord, .returnsWord, .whileWord,
   .doWord, .forWord, .inWord, .ifWord, .elseWord, .includeWord, .breakWord, .continueWord,
   .assertWord, .printWord, .inputWord, .plus, .minus, .star, .slash, .caret, .greater,
   .less, .assignment, .leftParen, .rightParen, .leftBrace, .rightBrace, .leftBracket,
   .rightBracket, .dot, .comma, .colon, .semicolon, .singleQuote, .doubleQuote, .tag,
   .reference, .question, .space, .tab, .newline, .comment, .identifier, .stringLiteral,
   .numericLiteral]

def category : Kind → Category
  | .charType | .intType | .precType | .boolType | .stringType | .byteType | .classType
  | .staticType => .typeName
  | .trueWord | .falseWord => .boolean
  | .functionWord | .returnWord | .returnsWord | .whileWord | .doWord | .forWord
  | .inWord | .ifWord | .elseWord | .includeWord | .breakWord | .continueWord
  | .assertWord | .printWord | .inputWord => .keyword
  | .plus | .minus | .star | .slash | .caret | .greater | .less => .operator
  | .assignment | .leftParen | .rightParen | .leftBrace | .rightBrace | .leftBracket
  | .rightBracket | .dot | .comma | .colon | .semicolon | .singleQuote | .doubleQuote => .symbol
  | .tag | .reference | .question => .marker
  | .space | .tab | .newline | .comment => .trivia
  | .identifier | .stringLiteral | .numericLiteral => .other

/-- The words of a kind's name, run together and each with a capital. -/
def label : Kind → String
  | .charType => "Char"
  | .intType => "Int"
  | .precType => "Prec"
  | .boolType => "Bool"
  | .stringType => "String"
  | .byteType => "Byte"
  | .classType => "Class"
  | .staticType => "Static"
  | .trueWord => "True"
  | .falseWord => "False"
  | .functionWord => "Function"
  | .returnWord => "Return"
  | .returnsWord => "Returns"
  | .whileWord => "While"
  | .doWord => "Do"
  | .forWord => "For"
  | .inWord => "In"
  | .ifWord => "If"
  | .elseWord => "Else"
  | .includeWord => "Include"
  | .breakWord => "Break"
  | .continueWord => "Continue"
  | .assertWord => "Assert"
  | .printWord => "Print"
  | .inputWord => "Input"
  | .plus => "Plus"
  | .minus => "Minus"
  | .star => "Star"
  | .slash => "Slash"
  | .caret => "Caret"
  | .greater => "Greater"
  | .less => "Less"
  | .assignment => "Assignment"
  | .leftParen => "LeftParen"
  | .rightParen => "RightParen"
  | .leftBrace => "LeftBrace"
  | .rightBrace => "RightBrace"
  | .leftBracket => "LeftBracket"
  | .rightBracket => "RightBracket"
  | .dot => "Dot"
  | .comma => "Comma"
  | .colon => "Colon"
  | .semicolon => "Semicolon"
  | .singleQuote => "SingleQuote"
  | .doubleQuote => "DoubleQuote"
  | .tag => "Tag"
  | .reference => "Reference"
  | .question => "Question"
  | .space => "Space"
  | .tab => "Tab"
  | .newline => "Newline"
  | .comment => "Comment"
  | .identifier => "Identifier"
  | .stringLiteral => "StringLiteral"
  | .numericLiteral => "NumericLiteral"

/-- The words of a label in capitals, with a line before each but the first. -/
def capitalWords : List Char → List Char
  | [] => []
  | c :: rest =>
      c.toUpper :: rest.flatMap fun d => if d.isUpper then ['_', d] else [d.toUpper]

/-- The name by which a kind is looked up. -/
def name (kind : Kind) : String :=
  String.ofList (capitalWords kind.label.toList)

/-- Kinds are numbered from one in their order. -/
def number (kind : Kind) : Nat :=
  kind.ctorIdx + 1

theorem all_getElem?_ctorIdx (kind : Kind) : all[kind.ctorIdx]? = some kind := by
  cases kind <;> rfl

theorem mem_all (kind : Kind) : kind ∈ all :=
  List.mem_of_getElem? (all_getElem?_ctorIdx kind)

instance : Enumeration Kind where
  title := "TokenKind"
  values := all
  name := name
  number kind := kind.number
  mem_values := mem_all

end Kind

end Tilde
