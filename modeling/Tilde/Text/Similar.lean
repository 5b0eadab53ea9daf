/-!
How alike two words are. The longest block that two words share is found first,
the earliest of several, and then the longest blocks shared by what stands before
it in both and by what stands after it, and so on. The measure of likeness is the
number of characters in all these blocks, twice, over the number of characters in
both words. It is kept as a fraction, so that measures compare exactly.
-/

namespace Tilde.Text.Similar

/-- The number of characters that two texts have in common at their beginnings. -/
def agreement : List Char → List Char → Nat
  | a :: as, b :: bs => if a = b then agreement as bs + 1 else 0
  | _, _ => 0

/-- A block that two texts share: where it begins in each, and its length. -/
structure Block where
  first : Nat
  second : Nat
  length : Nat
  deriving DecidableEq, Repr

/-- The longest shared block, the earliest in the first text if there are several
and then the earliest in the second. -/
def longestBlock (a b : List Char) : Block :=
  (List.range a.length).foldl (fun best i =>
    (List.range b.length).foldl (fun best j =>
      let length := agreement (a.drop i) (b.drop j)
      if best.length < length then ⟨i, j, length⟩ else best) best) ⟨0, 0, 0⟩

/-- The number of characters in the shared blocks of two texts, where blocks are
sought within blocks no deeper than a bound. -/
def sharedWithin : (depth : Nat) → List Char → List Char → Nat
  | 0, _, _ => 0
  | depth + 1, a, b =>
      let block := longestBlock a b
      if block.length = 0 then 0
      else
        sharedWithin depth (a.take block.first) (b.take block.second) + block.length +
          sharedWithin depth (a.drop (block.first + block.length))
            (b.drop (block.second + block.length))

/-- The number of characters in the shared blocks of two texts. Each block takes a
character of the first text, so the search is no deeper than that text is long. -/
def shared (a b : List Char) : Nat :=
  sharedWithin a.length a b

/-- A word and how alike it is to another: twice the number of shared characters
over the number of all. -/
structure Measured where
  word : String
  twiceShared : Nat
  total : Nat
  deriving DecidableEq, Repr

def measure (wanted word : String) : Measured where
  word := word
  twiceShared := 2 * shared word.toList wanted.toList
  total := word.length + wanted.length

/-- Whether three fifths or more of the characters are shared. -/
def Measured.isClose (m : Measured) : Bool :=
  3 * m.total ≤ 5 * m.twiceShared

/-- The order of closeness: the more alike first, and of two words that are
equally alike the later in the alphabet. -/
def Measured.precedes (m n : Measured) : Bool :=
  let left := m.twiceShared * n.total
  let right := n.twiceShared * m.total
  right < left || (left == right && !(m.word < n.word))

/-- How many words are suggested at most. -/
def suggestionLimit : Nat := 3

/-- The words of a list that are close to a given one, the closest of them only,
in alphabetical order. -/
def suggestions (wanted : String) (words : List String) : List String :=
  let close := (words.map (measure wanted)).filter Measured.isClose
  let closest := (close.mergeSort Measured.precedes).take suggestionLimit
  (closest.map (·.word)).mergeSort fun a b => !(b < a)

end Tilde.Text.Similar
