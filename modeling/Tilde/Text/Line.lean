/-!
Lines of a text by offset. An offset counts the characters before a place. The line
it is on is counted from one, as is its column, and the line itself is what stands
around the place up to the nearest line ends on both sides.
-/

namespace Tilde.Text

/-- What stands between the last line end before an offset and the offset. -/
def lineBefore (text : List Char) (offset : Nat) : List Char :=
  ((text.take offset).reverse.takeWhile (· ≠ '\n')).reverse

/-- What stands between an offset and the first line end from there on. -/
def lineAfter (text : List Char) (offset : Nat) : List Char :=
  (text.drop offset).takeWhile (· ≠ '\n')

def lineNumber (text : List Char) (offset : Nat) : Nat :=
  (text.take offset).count '\n' + 1

def columnNumber (text : List Char) (offset : Nat) : Nat :=
  (lineBefore text offset).length + 1

/-- The line around an offset, without line ends. -/
def lineAround (text : List Char) (offset : Nat) : List Char :=
  lineBefore text offset ++ lineAfter text offset

@[simp] theorem lineNumber_zero (text : List Char) : lineNumber text 0 = 1 := by
  simp [lineNumber]

@[simp] theorem columnNumber_zero (text : List Char) : columnNumber text 0 = 1 := by
  simp [columnNumber, lineBefore]

theorem forall_ne_of_notMem {c : Char} {chars : List Char} (missing : c ∉ chars) :
    ∀ d ∈ chars, decide (d ≠ c) = true := by
  intro d found
  have differs : d ≠ c := fun same => missing (same ▸ found)
  exact decide_eq_true differs

/-- What is taken up to a character does not hold it. -/
theorem notMem_takeWhile_ne (c : Char) (chars : List Char) :
    c ∉ chars.takeWhile (· ≠ c) := by
  intro found
  have passed := List.all_eq_true.1 List.all_takeWhile _ found
  simp at passed

theorem newline_not_mem_lineAround (text : List Char) (offset : Nat) :
    '\n' ∉ lineAround text offset := by
  rw [lineAround, lineBefore, lineAfter, List.mem_append, List.mem_reverse, not_or]
  exact ⟨notMem_takeWhile_ne '\n' _, notMem_takeWhile_ne '\n' _⟩

end Tilde.Text
