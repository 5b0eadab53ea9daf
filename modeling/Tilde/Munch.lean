import Tilde.Fault
import Tilde.Options
import Tilde.Token.Basic

/-!
What a text falls into when the longest piece is taken off its front again and
again. A blank is dropped. A delimiter goes with everything up to its next
occurrence. A symbol or an operator is a piece by itself, and any other character
goes with all the characters of words that follow it. If a delimiter has no next
occurrence, the text falls into nothing from there on.

This says what the scan must find without saying how: there is no window of two
characters, no word in progress and no padding here, and a piece knows nothing of
what stands before it but its offset. Nor are the classes of characters, the rules
of spans or the classification of lexemes taken from the scan. They are spelled out
again, and only the table of fixed lexemes is shared.
-/

namespace Tilde.Munch

/-- A piece of a text: its offset, its characters and its kind. -/
structure Piece where
  offset : Nat
  chars : List Char
  kind : Kind
  deriving DecidableEq, Repr

/-- A delimiter without a next occurrence, and its offset. -/
structure Unclosed where
  offset : Nat
  delimiter : Char
  deriving DecidableEq, Repr

/-- What a text falls into: its pieces, up to the unclosed delimiter if there is one. -/
structure Division where
  pieces : List Piece
  unclosed : Option Unclosed
  deriving DecidableEq, Repr

def Division.cons (piece : Piece) (division : Division) : Division :=
  { division with pieces := piece :: division.pieces }

/-! ### What a piece can begin with -/

/-- Whether a character is part of no piece but those of spans. -/
def isSpacing (c : Char) : Bool :=
  c == ' ' || c == '\t' || c == '\n'

/-- The kind of the span that a character opens. -/
def spanKind (c : Char) : Option Kind :=
  if c = '~' then some .comment else if c = '"' then some .stringLiteral else none

/-- How a fault names the span that a delimiter opens. -/
def spanForm (delimiter : Char) : SpanForm :=
  if delimiter = '~' then .comment else .stringLiteral

/-- The kind of a symbol or an operator in the table. The double quote is one of the
symbols, but is looked at as a delimiter first. -/
def signKind (c : Char) : Option Kind :=
  (Lexeme.fixed.lookup (String.singleton c)).filter fun kind =>
    kind.category == .symbol || kind.category == .operator

/-- Whether a character is part of words. -/
def isLetter (c : Char) : Bool :=
  !isSpacing c && (spanKind c).isNone && (signKind c).isNone

/-- The kind of a word: its kind in the table, or else that of numbers if there is an
ASCII digit in it, or else that of identifiers. -/
def wordKind (chars : List Char) : Kind :=
  match Lexeme.fixed.lookup (String.ofList chars) with
  | some kind => kind
  | none =>
      if chars.any fun c => '0' ≤ c && c ≤ '9' then .numericLiteral else .identifier

/-! ### The division of a text -/

theorem length_dropWhile_lt {α : Type} (test : α → Bool) (rest : List α) (a : α) :
    (rest.dropWhile test).length < (a :: rest).length :=
  Nat.lt_succ_of_le (List.dropWhile_suffix test).length_le

/-- Divides a text that stands at an offset of a longer one. -/
def divideFrom (offset : Nat) (text : List Char) : Division :=
  match text with
  | [] => ⟨[], none⟩
  | c :: rest =>
      if isSpacing c then divideFrom (offset + 1) rest
      else
        match spanKind c with
        | some kind =>
            match _cut : rest.dropWhile (· ≠ c) with
            | [] => ⟨[], some ⟨offset, c⟩⟩
            | closing :: after =>
                let chars := c :: rest.takeWhile (· ≠ c) ++ [closing]
                (divideFrom (offset + chars.length) after).cons ⟨offset, chars, kind⟩
        | none =>
            match signKind c with
            | some kind => (divideFrom (offset + 1) rest).cons ⟨offset, [c], kind⟩
            | none =>
                let chars := c :: rest.takeWhile isLetter
                (divideFrom (offset + chars.length) (rest.dropWhile isLetter)).cons
                  ⟨offset, chars, wordKind chars⟩
termination_by text.length
decreasing_by
  · exact Nat.lt_succ_self _
  · have shorter := length_dropWhile_lt (· ≠ c) rest c
    rw [_cut] at shorter
    exact Nat.lt_of_succ_lt shorter
  · exact Nat.lt_succ_self _
  · exact length_dropWhile_lt isLetter rest c

def divide (text : List Char) : Division :=
  divideFrom 0 text

def Piece.token (file : String) (text : List Char) (piece : Piece) : Token where
  lexeme := String.ofList piece.chars
  kind := piece.kind
  location := some (Location.ofOffset file text piece.offset)

/-- The fault of an unclosed delimiter. The line it is shown on is that of the text
with its padding. -/
def Unclosed.fault (file : String) (text padding : List Char) (unclosed : Unclosed) : Fault :=
  .unterminated (spanForm unclosed.delimiter) (String.singleton unclosed.delimiter)
    (some (Location.ofOffset file text unclosed.offset))
    (some (String.ofList (Text.lineAround (text ++ padding) unclosed.offset)))

/-- The tokens of a text by its division. -/
def lex (text : String) (options : Options) : Except Fault (List Token) :=
  let chars := text.toList
  let division := divide chars
  match division.unclosed with
  | some unclosed => .error (unclosed.fault options.file chars options.padding.toList)
  | none => .ok (division.pieces.map (Piece.token options.file chars))

end Tilde.Munch
