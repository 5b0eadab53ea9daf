import Tilde.Location

/-!
Diagnostics: what is wrong, where it is wrong, the line it is wrong on and what
would mend it. Only the first of these is always known. A rendered diagnostic
has one part a line: the place and the message, then the offending line, then a
caret under the offending column, then the hint.
-/

namespace Tilde

structure Diagnostic where
  message : String
  location : Option Location := none
  hint : Option String := none
  sourceLine : Option String := none
  deriving DecidableEq, Repr, Inhabited

namespace Diagnostic

/-- The columns by which a quoted source line is set in. -/
def margin : Nat := 4

def spaces (n : Nat) : String :=
  String.ofList (List.replicate n ' ')

/-- The part that says what is wrong, after the place where that is known. -/
def headline (d : Diagnostic) : String :=
  match d.location with
  | some place => s!"{place.render}: error: {d.message}"
  | none => s!"error: {d.message}"

def quotedLine (line : String) : String :=
  spaces margin ++ line

/-- A caret under a column of the line above it. Columns count from one. -/
def caret (column : Int) : String :=
  spaces (margin + (column - 1).toNat) ++ "^"

/-- The source line and the caret. They are shown when both the line and its
place are known, and the caret only if the column can be pointed at. -/
def excerpt (d : Diagnostic) : List String :=
  match d.location, d.sourceLine with
  | some place, some line =>
      quotedLine line :: if 0 < place.column then [caret place.column] else []
  | _, _ => []

def advice (d : Diagnostic) : List String :=
  match d.hint with
  | some hint => if hint.isEmpty then [] else [s!"hint: {hint}"]
  | none => []

def parts (d : Diagnostic) : List String :=
  d.headline :: d.excerpt ++ d.advice

def render (d : Diagnostic) : String :=
  "\n".intercalate d.parts

instance : ToString Diagnostic where
  toString := render

end Diagnostic

end Tilde
