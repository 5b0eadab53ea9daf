import Tilde.Text.Quoted

/-!
Closed sets of named and numbered values. Every value of such a set has a name
and a number of its own, and may be looked up by either; a look-up that finds
nothing says what it was looking for.
-/

namespace Tilde

class Enumeration (α : Type) where
  title : String
  values : List α
  name : α → String
  number : α → Int
  mem_values : ∀ value : α, value ∈ values

inductive Enumeration.Missing where
  | name (title wanted : String)
  | number (title : String) (wanted : Int)
  deriving DecidableEq, Repr

namespace Enumeration

variable {α : Type} [Enumeration α]

def Missing.message : Missing → String
  | .name _ wanted => Text.quoted wanted
  | .number title wanted => s!"{wanted} is not a valid {title}"

def ofName (α : Type) [Enumeration α] (wanted : String) : Except Missing α :=
  match (values : List α).find? fun value => name value == wanted with
  | some value => .ok value
  | none => .error (.name (title α) wanted)

def ofNumber (α : Type) [Enumeration α] (wanted : Int) : Except Missing α :=
  match (values : List α).find? fun value => number value == wanted with
  | some value => .ok value
  | none => .error (.number (title α) wanted)

/-- The name of a value after the title of its set. -/
def qualifiedName (value : α) : String :=
  title α ++ "." ++ name value

/-- A value by its set, its name and its number. -/
def describe (value : α) : String :=
  "<" ++ qualifiedName value ++ ": " ++ toString (number value) ++ ">"

end Enumeration

end Tilde
