import Tilde.Diagnostic

/-!
What can go wrong while a text is read: a character outside the text is asked
for, the text does not end in the blanks that complete its last word, or a span
is opened and never closed. A fault keeps its cause; its wording, and the hint
that goes with it, are those of its diagnostic.
-/

namespace Tilde

/-- The forms of span that a fault may be about. -/
inductive SpanForm where
  | comment
  | stringLiteral
  | general
  deriving DecidableEq, Repr, Inhabited

def SpanForm.description : SpanForm → String
  | .comment => "comment"
  | .stringLiteral => "string literal"
  | .general => "delimited span"

inductive Fault where
  /-- A character outside the text was asked for. -/
  | underrun (index length : Int)
  /-- The text does not end in as many blanks as are required. -/
  | unpadded (required : Int)
  /-- A span is opened at the place and the text ends before it is closed. -/
  | unterminated (form : SpanForm) (delimiter : String) (location : Option Location)
      (sourceLine : Option String)
  deriving DecidableEq, Repr

namespace Fault

def message : Fault → String
  | .underrun index length =>
      s!"character index {index} is outside the source text (length {length})"
  | .unpadded required =>
      s!"source must end with at least {required} whitespace characters"
  | .unterminated form _ _ _ => s!"unterminated {form.description}"

def hint : Fault → String
  | .underrun _ _ => "pad the source with trailing whitespace before scanning"
  | .unpadded _ => "use pad_source() or lex(), which pad the source for you"
  | .unterminated form delimiter _ _ =>
      s!"add a closing '{delimiter}' to end the {form.description}"

def location : Fault → Option Location
  | .unterminated _ _ location _ => location
  | _ => none

def sourceLine : Fault → Option String
  | .unterminated _ _ _ sourceLine => sourceLine
  | _ => none

def diagnostic (fault : Fault) : Diagnostic where
  message := fault.message
  location := fault.location
  hint := some fault.hint
  sourceLine := fault.sourceLine

def render (fault : Fault) : String :=
  fault.diagnostic.render

instance : ToString Fault where
  toString := render

end Fault

/-- One computation after another succeeds exactly if both do. -/
theorem bind_eq_ok_iff {ε α β : Type} {x : Except ε α} {f : α → Except ε β} {b : β} :
    (x >>= f) = .ok b ↔ ∃ a, x = .ok a ∧ f a = .ok b := by
  cases x <;> simp [bind, Except.bind]

end Tilde
