import Tilde.Location
import Tilde.Token.Lexeme

/-!
Tokens: a lexeme, the kind it has and the place of its first character where that
is known. Two tokens agree when they have the same lexeme and kind; where they
stand does not matter. A row of a token listing is the label of the kind in a
column of its own and then the lexeme.
-/

namespace Tilde

structure Token where
  lexeme : String
  kind : Kind
  location : Option Location := none
  deriving DecidableEq, Repr, Inhabited

namespace Token

def ofLexeme (lexeme : String) (location : Option Location) : Token :=
  ⟨lexeme, Lexeme.kindOf lexeme, location⟩

def category (token : Token) : Category :=
  token.kind.category

/-- Whether a token is without meaning: a blank or a comment. -/
def isTrivia (token : Token) : Bool :=
  token.category == .trivia

def isTypeName (token : Token) : Bool :=
  token.category == .typeName

def core (token : Token) : String × Kind :=
  (token.lexeme, token.kind)

/-- Agreement of two tokens, wherever they stand. -/
def agrees (a b : Token) : Bool :=
  a.core == b.core

@[simp] theorem agrees_iff {a b : Token} : a.agrees b = true ↔ a.core = b.core := by
  simp [agrees]

/-- A token with the name of its kind, its quoted lexeme and its line and column. -/
def describe (token : Token) : String :=
  let place := match token.location with
    | some place => s!", {place.line}:{place.column}"
    | none => ""
  "Token(" ++ token.kind.name ++ ", " ++ Text.quoted token.lexeme ++ place ++ ")"

/-- The width of the label column unless another is asked for. -/
def labelColumn : Nat := 16

def heading (token : Token) : String :=
  token.kind.label ++ ":"

/-- A row of a token listing: the heading, blanks up to the width of the label
column and at least one, and the lexeme. -/
def row (token : Token) (width : Int := labelColumn) : String :=
  let heading := token.heading
  let gap := (width - heading.length).toNat
  heading ++ String.ofList (List.replicate (max gap 1) ' ') ++ token.lexeme

end Token

end Tilde
