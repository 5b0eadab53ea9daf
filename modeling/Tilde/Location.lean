import Tilde.Text.Line
import Tilde.Text.Quoted

/-!
Places in a source text. A place is named by the file it is in and by a line and
a column, both counted from one. Lines and columns are integers: diagnostics may
be asked to point anywhere, also where no text is.
-/

namespace Tilde

structure Location where
  file : String
  line : Int
  column : Int
  deriving DecidableEq, Repr, Inhabited

namespace Location

/-- The place of an offset of a text. -/
def ofOffset (file : String) (text : List Char) (offset : Nat) : Location where
  file := file
  line := Text.lineNumber text offset
  column := Text.columnNumber text offset

/-- The form in which messages name a place: `file:line:column`. -/
def render (place : Location) : String :=
  s!"{place.file}:{place.line}:{place.column}"

def describe (place : Location) : String :=
  "SourceLocation(filename=" ++ Text.quoted place.file ++ ", line=" ++ toString place.line ++
    ", column=" ++ toString place.column ++ ")"

instance : ToString Location where
  toString := render

end Location

end Tilde
