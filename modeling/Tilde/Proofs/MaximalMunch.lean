import Tilde.Proofs.Outcomes

/-!
Lexing a text takes the longest piece off its front again and again. The scan
never looks for a longest piece: it decides from two characters at a time whether
the word in progress is complete, stops one character before the end of its text
and is only given padded texts. None of this can be seen in its outcome.
-/

namespace Tilde

open Munch

/-- Lexing gives the tokens of the pieces that a text falls into, or the fault of its
unclosed delimiter, with every place as in the text itself. -/
theorem lex_eq_munch {options : Options} (haccepted : options.checked = .ok options)
    (text : String) : (lex text options).map TokenSeq.toList = Munch.lex text options := by
  have hpadding := (Options.checked_eq_ok_iff.mp haccepted).1
  have hdivides := divides_divideFrom 0 text.toList
  rw [Munch.lex, divide]
  rcases hdivision : divideFrom 0 text.toList with ⟨pieces, _ | unclosed⟩
  · rw [hdivision] at hdivides
    rw [lex_of_closed hpadding hdivides, Except.map, TokenSeq.toList_ofList]
  · rw [hdivision] at hdivides
    rw [lex_of_unclosed hpadding hdivides]
    rfl

/-- A comment inside a word, a string that holds a comment, punctuation on both sides
and a padding of its own. -/
theorem lex_eq_munch_mixed :
    ({ file := "m.tl", padding := "\t\n ", trace := true } : Options).checked =
        .ok { file := "m.tl", padding := "\t\n ", trace := true } ∧
      (lex "do~x\"~in1=\"~\n\"+a&b\n" { file := "m.tl", padding := "\t\n ", trace := true }).map
          TokenSeq.toList =
        Munch.lex "do~x\"~in1=\"~\n\"+a&b\n"
          { file := "m.tl", padding := "\t\n ", trace := true } :=
  ⟨by decide +kernel, lex_eq_munch (by decide +kernel) _⟩

end Tilde
