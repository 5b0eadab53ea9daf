import Tilde.Text.Slice
import Tilde.Token.Basic

/-!
Sequences of tokens in the order in which they were read. A sequence only grows,
at its end. It is read by position, where a negative position counts from the
end, and searched by agreement: a search never looks at where a token stands.
-/

namespace Tilde

inductive SequenceFault where
  /-- An item of some other type was offered for a token. -/
  | notToken (type : String)
  | outOfRange
  /-- The position is beyond what a position can be. -/
  | unrepresentable
  | zeroStep
  /-- No token of the range agrees with the one sought. -/
  | absent
  /-- A sequence that grows cannot serve as a key. -/
  | unhashable
  deriving DecidableEq, Repr

namespace SequenceFault

def message : SequenceFault → String
  | .notToken type => s!"expected Token, got {type}"
  | .outOfRange => "list index out of range"
  | .unrepresentable => "cannot fit 'int' into an index-sized integer"
  | .zeroStep => "slice step cannot be zero"
  | .absent => ""
  | .unhashable => "unhashable type: 'TokenStream'"

end SequenceFault

structure TokenSeq where
  tokens : Array Token
  deriving DecidableEq, Repr, Inhabited

namespace TokenSeq

/-- Something offered to a sequence: a token, or an item of another type. -/
inductive Item where
  | token (token : Token)
  | other (type : String)
  deriving DecidableEq, Repr

def empty : TokenSeq := ⟨#[]⟩

def toList (s : TokenSeq) : List Token := s.tokens.toList

def ofList (tokens : List Token) : TokenSeq := ⟨tokens.toArray⟩

def size (s : TokenSeq) : Nat := s.tokens.size

def push (s : TokenSeq) (token : Token) : TokenSeq := ⟨s.tokens.push token⟩

def append (s t : TokenSeq) : TokenSeq := ⟨s.tokens ++ t.tokens⟩

@[simp] theorem toList_empty : empty.toList = [] := rfl

@[simp] theorem toList_ofList (tokens : List Token) : (ofList tokens).toList = tokens := by
  simp [ofList, toList]

@[simp] theorem toList_push (s : TokenSeq) (token : Token) :
    (s.push token).toList = s.toList ++ [token] := by
  simp [push, toList]

@[simp] theorem toList_append (s t : TokenSeq) :
    (s.append t).toList = s.toList ++ t.toList := by
  simp [append, toList]

/-- A sequence is determined by the list of its tokens. -/
theorem toList_inj {s t : TokenSeq} : s.toList = t.toList ↔ s = t := by
  cases s
  cases t
  simp [toList]

theorem size_eq_length (s : TokenSeq) : s.size = s.toList.length := by
  simp [size, toList]

def offer (s : TokenSeq) : Item → Except SequenceFault TokenSeq
  | .token token => .ok (s.push token)
  | .other type => .error (.notToken type)

/-- Offers the items of a list one after the other, up to the first refusal. -/
def offerAll (s : TokenSeq) (items : List Item) : Except SequenceFault TokenSeq :=
  items.foldlM offer s

/-! ### Reading by position -/

/-- Whether an integer can be a position at all: positions have 64 bits. -/
def representable (index : Int) : Bool :=
  -0x8000000000000000 ≤ index && index < 0x8000000000000000

/-- The token at a position, if there is one. -/
def get? (s : TokenSeq) (index : Int) : Option Token :=
  let offset := if index < 0 then index + s.size else index
  if offset < 0 then none else s.tokens[offset.toNat]?

/-- Reads a position. An index that is out of range is refused, and one that could be no
position at all is refused in other words; no sequence is so long that it would be in range. -/
def get (s : TokenSeq) (index : Int) : Except SequenceFault Token :=
  match s.get? index with
  | some token => .ok token
  | none => .error (if representable index then .outOfRange else .unrepresentable)

@[simp] theorem get?_natCast (s : TokenSeq) (i : Nat) : s.get? i = s.toList[i]? := by
  have hfront : ¬((i : Int) < 0) := by omega
  simp [get?, hfront, toList]

theorem lt_size_of_get?_natCast {s : TokenSeq} {i : Nat} {token : Token}
    (h : s.get? i = some token) : i < s.size := by
  rw [get?_natCast] at h
  rw [size_eq_length]
  exact (List.getElem?_eq_some_iff.mp h).1

def slice (s : TokenSeq) (start stop step : Option Int) :
    Except SequenceFault (List Token) :=
  match Text.Slice.positions? s.size start stop step with
  | none => .error .zeroStep
  | some positions => .ok (positions.filterMap (s.tokens[·]?))

/-! ### Searching by agreement -/

def contains (s : TokenSeq) (token : Token) : Bool :=
  s.toList.any token.agrees

def count (s : TokenSeq) (token : Token) : Nat :=
  s.toList.countP token.agrees

/-- Walks from a position on, before `stop` if there is such a bound, to a token that
agrees. The walk is over where there is no more token to read. -/
def seek (s : TokenSeq) (token : Token) (stop : Option Int) (i : Nat) :
    Except SequenceFault Nat :=
  if stop.any (· ≤ (i : Int)) then .error .absent
  else
    match hread : s.get? i with
    | none => .error .absent
    | some found => if found.agrees token then .ok i else s.seek token stop (i + 1)
termination_by s.size - i
decreasing_by
  have := lt_size_of_get?_natCast hread
  omega

/-- The first position of a range at which an agreeing token stands. The range
begins at `start`, which counts from the end if it is negative and is then at
least the beginning, and ends before `stop`, which counts from the end if it is
negative. -/
def indexOf (s : TokenSeq) (token : Token) (start : Int := 0) (stop : Option Int := none) :
    Except SequenceFault Nat :=
  let first := if start < 0 then max (s.size + start) 0 else start
  let last := stop.map fun (stop : Int) => if stop < 0 then s.size + stop else stop
  s.seek token last first.toNat

def agrees (s t : TokenSeq) : Bool :=
  s.toList.map Token.core == t.toList.map Token.core

/-! ### Views -/

def kinds (s : TokenSeq) : List Kind := s.toList.map (·.kind)

def lexemes (s : TokenSeq) : List String := s.toList.map (·.lexeme)

/-- The tokens with meaning: comments are left out. -/
def withoutTrivia (s : TokenSeq) : List Token := s.toList.filter fun token => !token.isTrivia

/-- The tokens from the last position down to the first. -/
def reversed (s : TokenSeq) : List Token :=
  (List.range s.size).reverse.filterMap fun (i : Nat) => s.get? i

/-- A sequence has no hash, since it may still grow. -/
def hash (_ : TokenSeq) : Except SequenceFault Int := .error .unhashable

/-- A text made of the lexemes with a space between any two. -/
def join (s : TokenSeq) : String := " ".intercalate s.lexemes

def describe (s : TokenSeq) : String :=
  "TokenStream([" ++ ", ".intercalate (s.toList.map Token.describe) ++ "])"

end TokenSeq

end Tilde
