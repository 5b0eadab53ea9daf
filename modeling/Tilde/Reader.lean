import Tilde.Fault
import Tilde.Text.Slice

/-!
A reader is a place in a text from which the characters around it can be looked
at. Moving on gives a new reader and leaves the old one where it was. The index,
line and column of a reader are integers of its own: a reader that began at the
start of its text keeps them in step, and any other reader answers by the same
rules, refusing only to look or move outside the text.
-/

namespace Tilde

structure Reader where
  text : Array Char
  index : Int := 0
  line : Int := 1
  column : Int := 1
  deriving DecidableEq, Repr, Inhabited

namespace Reader

/-- The reader at the start of a text. -/
def ofString (text : String) : Reader where
  text := text.toList.toArray

/-- The reader at a given place of a text, whether or not the place is in it. -/
def ofPlace (text : String) (index line column : Int) : Reader where
  text := text.toList.toArray
  index := index
  line := line
  column := column

def size (r : Reader) : Nat := r.text.size

/-! ### Looking -/

/-- The character at a position of the text, if the position is inside it. -/
def charAt? (r : Reader) (position : Int) : Option Char :=
  if 0 ≤ position then r.text[position.toNat]? else none

/-- The character at a distance from the reader, backward if it is negative. -/
def peek (r : Reader) (offset : Int := 0) : Except Fault Char :=
  match r.charAt? (r.index + offset) with
  | some c => .ok c
  | none => .error (.underrun (r.index + offset) r.size)

def current (r : Reader) : Except Fault Char := r.peek 0

def next (r : Reader) : Except Fault Char := r.peek 1

/-- The character before the current one, if the reader is not at the start. -/
def previous (r : Reader) : Except Fault (Option Char) :=
  if r.index = 0 then .ok none else (r.peek (-1)).map some

/-- Whether every character has been passed. -/
def isDone (r : Reader) : Bool := (r.size : Int) ≤ r.index

/-- Whether a character follows the current one. -/
def hasNext (r : Reader) : Bool := r.index + 1 < (r.size : Int)

/-! ### Moving -/

/-- The reader after a character has been passed: a line end begins a new line. -/
def pass (r : Reader) (c : Char) : Reader :=
  if c = '\n' then { r with index := r.index + 1, line := r.line + 1, column := 1 }
  else { r with index := r.index + 1, column := r.column + 1 }

/-- The reader after the current character. -/
def advance (r : Reader) : Except Fault Reader :=
  match r.current with
  | .ok c => .ok (r.pass c)
  | .error fault => .error fault

/-- The reader after a number of characters. -/
def advanceBy (r : Reader) : Nat → Except Fault Reader
  | 0 => .ok r
  | n + 1 =>
      match r.advance with
      | .ok r => r.advanceBy n
      | .error fault => .error fault

/-- How many characters are still to be passed. -/
def remaining (r : Reader) : Nat := ((r.size : Int) - r.index).toNat

@[simp] theorem text_pass (r : Reader) (c : Char) : (r.pass c).text = r.text := by
  unfold pass; split <;> rfl

@[simp] theorem index_pass (r : Reader) (c : Char) : (r.pass c).index = r.index + 1 := by
  unfold pass; split <;> rfl

theorem charAt?_eq_some_iff {r : Reader} {position : Int} {c : Char} :
    r.charAt? position = some c ↔ 0 ≤ position ∧ r.text[position.toNat]? = some c := by
  unfold charAt?
  split <;> simp [*]

/-- A character can be looked at exactly if it is inside the text. -/
theorem peek_eq_ok_iff {r : Reader} {offset : Int} {c : Char} :
    r.peek offset = .ok c ↔ r.charAt? (r.index + offset) = some c := by
  unfold peek
  split <;> simp [*]

/-- Where a character was passed there is one less to pass. -/
theorem remaining_pass {r : Reader} {c : Char} (here : r.current = .ok c) :
    (r.pass c).remaining + 1 = r.remaining := by
  obtain ⟨nonneg, found⟩ := charAt?_eq_some_iff.1 (peek_eq_ok_iff.1 here)
  have lt := (Array.getElem?_eq_some_iff.1 found).1
  simp only [remaining, size, text_pass, index_pass]
  omega

theorem advance_eq_ok_iff {r after : Reader} :
    r.advance = .ok after ↔ ∃ c, r.current = .ok c ∧ after = r.pass c := by
  unfold advance
  cases r.current with
  | ok c => simp [eq_comm]
  | error fault => simp

theorem remaining_advance {r after : Reader} (moved : r.advance = .ok after) :
    after.remaining + 1 = r.remaining := by
  obtain ⟨c, here, rfl⟩ := advance_eq_ok_iff.1 moved
  exact remaining_pass here

/-! ### Reporting -/

/-- The place of the current character in a file of the given name. -/
def location (r : Reader) (file : String) : Location :=
  ⟨file, r.line, r.column⟩

/-- The line that the reader is on, without its line end. The line begins as many
characters before the reader as the column says and ends at the next line end. -/
def wholeLine (r : Reader) : String :=
  let start := r.index - (r.column - 1)
  let stop := match Text.Slice.findFrom? r.text start (· == '\n') with
    | some position => position
    | none => r.size
  String.ofList (Text.Slice.between r.text start stop).toList

/-- The reader with its fields named. -/
def describe (r : Reader) : String :=
  "CharacterCursor(text=" ++ Text.quoted (String.ofList r.text.toList) ++ ", index=" ++
    toString r.index ++ ", line=" ++ toString r.line ++ ", column=" ++ toString r.column ++ ")"

end Reader

end Tilde
