import Tilde.Reader
import Tilde.Token.Basic

/-!
Spans: the parts of a text that are read whole, whatever is in them. A span opens
and closes with the same delimiter and has no escapes, so the first delimiter
after the opening one closes it. Comments and string literals are the two spans
of the language; a rule may give others.

Reading a span passes the character that the reader is on without a look at it.
The lexeme of the span is its body between two delimiters, which for a reader on
a delimiter is the text that was passed.
-/

namespace Tilde

structure SpanRule where
  /-- What opens and closes the span. No character is a delimiter of more or less
  than one character. -/
  delimiter : String
  /-- The kind of the token that a span makes. -/
  kind : Kind
  /-- How a fault names the span. -/
  form : SpanForm
  deriving DecidableEq, Repr

/-- A span that has been read. -/
structure Span where
  token : Token
  /-- The reader at the opening delimiter. -/
  start : Reader
  /-- The number of characters between the delimiters. -/
  length : Nat
  /-- The reader after the closing delimiter. -/
  after : Reader

namespace SpanRule

def comment : SpanRule where
  delimiter := String.singleton Lexeme.commentDelimiter
  kind := .comment
  form := .comment

def stringLiteral : SpanRule where
  delimiter := String.singleton Lexeme.stringDelimiter
  kind := .stringLiteral
  form := .stringLiteral

/-- Whether a text is what opens, and closes, a span of the rule. -/
def delimits (rule : SpanRule) (text : String) : Bool :=
  text == rule.delimiter

/-- The rule of the language whose span a character opens. -/
def openedBy (c : Char) : Option SpanRule :=
  [comment, stringLiteral].find? fun rule => rule.delimits (String.singleton c)

/-- The fault of a span that is opened at the reader and never closed. -/
def unterminated (rule : SpanRule) (start : Reader) (file : String) : Fault :=
  .unterminated rule.form rule.delimiter (some (start.location file)) (some start.wholeLine)

/-- Passes characters up to the next delimiter. The result is what was passed and
the reader on the delimiter, or nothing if the text ends first. -/
def readBody (rule : SpanRule) (r : Reader) (body : String) :
    Except Fault (Option (String × Reader)) :=
  if r.isDone then .ok none
  else
    match _here : r.current with
    | .error fault => .error fault
    | .ok c =>
        if rule.delimits (String.singleton c) then .ok (some (body, r))
        else rule.readBody (r.pass c) (body.push c)
termination_by r.remaining
decreasing_by have := Reader.remaining_pass _here; omega

/-- Reads a span of the rule from the reader on. -/
def read (rule : SpanRule) (start : Reader) (file : String) : Except Fault Span := do
  let opened ← start.advance
  match ← rule.readBody opened "" with
  | none => .error (rule.unterminated start file)
  | some (body, closing) =>
      let after ← closing.advance
      let lexeme := rule.delimiter ++ body ++ rule.delimiter
      return {
        token := ⟨lexeme, rule.kind, some (start.location file)⟩
        start := start
        length := body.length
        after := after }

/-- What is read after the first delimiter has fewer characters left to pass. -/
theorem remaining_readBody {rule : SpanRule} {r closing : Reader} {body passed : String}
    (found : rule.readBody r body = .ok (some (passed, closing))) :
    closing.remaining ≤ r.remaining := by
  fun_induction rule.readBody r body with
  | case1 => simp at found
  | case2 => simp at found
  | case3 =>
      obtain ⟨-, rfl⟩ : _ ∧ _ := by simpa using found
      exact Nat.le_refl _
  | case4 r body _ c here _ ih =>
      have := Reader.remaining_pass here
      have := ih found
      omega

/-- A span takes at least one character. -/
theorem remaining_read {rule : SpanRule} {start : Reader} {file : String} {span : Span}
    (done : rule.read start file = .ok span) : span.after.remaining < start.remaining := by
  simp only [SpanRule.read, bind_eq_ok_iff] at done
  obtain ⟨opened, movedIn, found, body, done⟩ := done
  have first := Reader.remaining_advance movedIn
  cases found with
  | none => cases done
  | some pair =>
      have second := remaining_readBody body
      simp only [bind_eq_ok_iff] at done
      obtain ⟨after, movedOut, done⟩ := done
      have third := Reader.remaining_advance movedOut
      cases done
      dsimp only
      omega

end SpanRule

end Tilde
