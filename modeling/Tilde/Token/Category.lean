import Tilde.Enumeration

/-!
The groups into which token kinds fall. Every kind belongs to exactly one group.
-/

namespace Tilde

/-- What a kind of token is for: naming a type, a truth value, a control word,
an arithmetic or comparison sign, punctuation that splits words, punctuation that
does not, text without meaning, and everything else. -/
inductive Category where
  | typeName
  | boolean
  | keyword
  | operator
  | symbol
  | marker
  | trivia
  | other
  deriving DecidableEq, Repr, Inhabited

namespace Category

def all : List Category :=
  [.typeName, .boolean, .keyword, .operator, .symbol, .marker, .trivia, .other]

def name : Category → String
  | .typeName => "TYPE"
  | .boolean => "BOOLEAN"
  | .keyword => "KEYWORD"
  | .operator => "OPERATOR"
  | .symbol => "SYMBOL"
  | .marker => "MARKER"
  | .trivia => "TRIVIA"
  | .other => "OTHER"

/-- Groups are numbered from one in their order. -/
def number (category : Category) : Nat :=
  category.ctorIdx + 1

theorem mem_all (category : Category) : category ∈ all := by
  cases category <;> decide

instance : Enumeration Category where
  title := "TokenCategory"
  values := all
  name := name
  number category := category.number
  mem_values := mem_all

end Category

end Tilde
