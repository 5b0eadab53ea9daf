/-!
Terminal control sequences. A sequence begins with an escape character and an
opening bracket, goes on with parameters, which are digits, semicolons and
question marks, and ends in a letter. What is written to anything but a terminal
is written without them.
-/

namespace Tilde.Text

def isControlParameter (c : Char) : Bool :=
  c.isDigit || c == ';' || c == '?'

/-- What follows the control sequence that a text begins with after its escape
character, if it begins with one. -/
def afterControl? : List Char → Option (List Char)
  | '[' :: rest =>
      match rest.dropWhile isControlParameter with
      | c :: after => if c.isAlpha then some after else none
      | [] => none
  | _ => none

theorem length_dropWhile_le {α : Type} (test : α → Bool) (items : List α) :
    (items.dropWhile test).length ≤ items.length :=
  (List.dropWhile_suffix test).length_le

theorem length_of_afterControl? {text after : List Char}
    (found : afterControl? text = some after) : after.length < text.length := by
  unfold afterControl? at found
  split at found
  · rename_i rest
    have shorter := length_dropWhile_le isControlParameter rest
    split at found
    · rename_i c tail cut
      split at found
      · simp only [Option.some.injEq] at found
        subst found
        rw [cut] at shorter
        simp only [List.length_cons] at shorter ⊢
        omega
      · simp at found
    · simp at found
  · simp at found

/-- Adds a text without its control sequences to what was kept before it, which is
given from the last character to the first. -/
def stripControlsOnto (kept : List Char) : List Char → List Char
  | [] => kept.reverse
  | c :: rest =>
      if c = '\x1b' then
        match _found : afterControl? rest with
        | some after => stripControlsOnto kept after
        | none => stripControlsOnto (c :: kept) rest
      else stripControlsOnto (c :: kept) rest
termination_by text => text.length
decreasing_by
  · have := length_of_afterControl? _found
    simp only [List.length_cons]
    omega
  · simp
  · simp

def stripControls (text : String) : String :=
  String.ofList (stripControlsOnto [] text.toList)

end Tilde.Text
