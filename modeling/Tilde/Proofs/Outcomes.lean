import Tilde.Proofs.Endings
import Tilde.Proofs.Tiling

/-!
What comes of a scan. A text that ends in a blank leaves no word in progress, so
the scan has found all the pieces of the text when it ends. Padding is a text of
blanks and adds no piece, which makes the outcome of lexing a text one of its own
division, and of its padding only as far as the line of a fault shows it.
-/

namespace Tilde

open Munch

variable {options : Options} {text : String} {pieces : List Piece}

theorem paddingSuffices_iff {padding : String} :
    Options.paddingSuffices padding = true ↔
      2 ≤ padding.toList.length ∧ ∀ c ∈ padding.toList, Alphabet.isBlank c = true := by
  rw [Options.paddingSuffices, Bool.and_eq_true, decide_eq_true_iff, List.all_eq_true,
    String.length_toList]
  rfl

theorem endsInPadding_pad {padding : String}
    (hpadding : Options.paddingSuffices padding = true) (text : String) :
    endsInPadding (pad text padding) = true := by
  obtain ⟨hlength, hblanks⟩ := paddingSuffices_iff.mp hpadding
  have htail : (pad text padding).toList.drop
      ((pad text padding).length - Options.requiredBlanks) =
        padding.toList.drop (padding.toList.length - 2) := by
    rw [pad, ← String.length_toList, String.toList_append, List.length_append,
      Options.requiredBlanks, Nat.add_sub_assoc hlength, List.drop_append,
      List.drop_of_length_le (Nat.le_add_right ..), List.nil_append, Nat.add_sub_cancel_left]
  have hall : ∀ c ∈ padding.toList.drop (padding.toList.length - 2),
      Alphabet.isBlank c = true :=
    fun c hc => hblanks c (List.mem_of_mem_drop hc)
  have htwo : padding.toList.length - (padding.toList.length - 2) = 2 := by omega
  rw [endsInPadding, htail, List.length_drop, htwo, List.all_eq_true.mpr hall]
  rfl

theorem lex_eq_run (hpadding : Options.paddingSuffices options.padding = true) :
    lex text options =
      (Scan.run options (String.ofList (text.toList ++ options.padding.toList))).result := by
  rw [lex, lexLogged, Source.ofText, if_pos (endsInPadding_pad hpadding text), pad,
    ← String.toList_append, String.ofList_toList]
  rfl

theorem isBlank_of_mem_getLast? (hpadding : Options.paddingSuffices options.padding = true) :
    ∀ c ∈ (text.toList ++ options.padding.toList).getLast?, Alphabet.isBlank c = true := by
  obtain ⟨hlength, hblanks⟩ := paddingSuffices_iff.mp hpadding
  intro c hc
  have hne : options.padding.toList ≠ [] := List.ne_nil_of_length_pos (by omega)
  rw [List.getLast?_append, List.getLast?_eq_some_getLast hne] at hc
  obtain rfl : _ = c := Option.some.inj hc
  exact hblanks _ (List.getLast_mem hne)

/-- What comes after a text does not matter to the tokens of its pieces. -/
theorem Munch.Tiles.token_append {text : List Char} {pieces : List Piece}
    (h : Tiles 0 text pieces) (file : String) (more : List Char) :
    pieces.map (Piece.token file (text ++ more)) = pieces.map (Piece.token file text) := by
  apply List.map_congr_left
  intro piece hpiece
  have hwithin := h.within piece hpiece
  rw [Piece.token, Location.ofOffset_append_left (by omega), Piece.token]

/-- The tokens of a text in which nothing is left open are its pieces. -/
theorem lex_of_closed (hpadding : Options.paddingSuffices options.padding = true)
    (h : Divides 0 text.toList ⟨pieces, none⟩) :
    lex text options = .ok (.ofList (pieces.map (Piece.token options.file text.toList))) := by
  have hpadded := h.append_blanks (paddingSuffices_iff.mp hpadding).2
  have hlast : ∀ c ∈ (text.toList ++ options.padding.toList).getLast?,
      Alphabet.isBlank c = true ∨ (SpanRule.openedBy c).isSome = true :=
    fun c hc => .inl (isBlank_of_mem_getLast? hpadding c hc)
  rw [lex_eq_run hpadding, Scan.run_of_closed hpadded hlast, (h.tiles rfl).token_append]

/-- A text with an open span has a fault where the span begins. -/
theorem lex_of_unclosed (hpadding : Options.paddingSuffices options.padding = true)
    {unclosed : Unclosed} (h : Divides 0 text.toList ⟨pieces, some unclosed⟩) :
    lex text options =
      .error (unclosed.fault options.file text.toList options.padding.toList) := by
  obtain ⟨hlength, hblanks⟩ := paddingSuffices_iff.mp hpadding
  have hpadded := h.append_blanks hblanks
  have hwithin := h.offset_lt rfl
  have hinside : unclosed.offset + 1 < (text.toList ++ options.padding.toList).length := by
    rw [List.length_append]
    omega
  rw [lex_eq_run hpadding, Scan.run_of_unclosed hpadded hinside, Unclosed.fault,
    Location.ofOffset_append_left hwithin.le, List.append_nil, Unclosed.fault]

/-- The text before an open span has the pieces before it for its tokens. -/
theorem lex_take_of_unclosed (hpadding : Options.paddingSuffices options.padding = true)
    {unclosed : Unclosed} (h : Divides 0 text.toList ⟨pieces, some unclosed⟩) :
    lex (String.ofList (text.toList.take unclosed.offset)) options =
      .ok (.ofList (pieces.map (Piece.token options.file text.toList))) := by
  obtain ⟨front, c, rest, _, htext, -, -, rfl, hfront⟩ := h.exists_opening rfl
  have htake : text.toList.take (0 + front.length) = front := by
    rw [htext, Nat.zero_add, List.take_left]
  have htokens := (hfront.tiles rfl).token_append options.file (c :: rest)
  rw [← htext] at htokens
  rw [← String.toList_ofList (l := front)] at hfront
  rw [htake, lex_of_closed hpadding hfront, String.toList_ofList, htokens]

theorem lex_eq_ok_iff (hpadding : Options.paddingSuffices options.padding = true)
    {tokens : TokenSeq} :
    lex text options = .ok tokens ↔ ∃ pieces, Divides 0 text.toList ⟨pieces, none⟩ ∧
      tokens = .ofList (pieces.map (Piece.token options.file text.toList)) := by
  constructor
  · intro hlex
    have hdivides := divides_divideFrom 0 text.toList
    rcases hdivision : divideFrom 0 text.toList with ⟨pieces, _ | unclosed⟩
    · rw [hdivision] at hdivides
      rw [lex_of_closed hpadding hdivides] at hlex
      exact ⟨pieces, hdivides, (Except.ok.inj hlex).symm⟩
    · rw [hdivision] at hdivides
      rw [lex_of_unclosed hpadding hdivides] at hlex
      cases hlex
  · rintro ⟨pieces, hdivides, rfl⟩
    exact lex_of_closed hpadding hdivides

theorem lex_eq_error_iff (hpadding : Options.paddingSuffices options.padding = true)
    {fault : Fault} :
    lex text options = .error fault ↔
      ∃ pieces unclosed, Divides 0 text.toList ⟨pieces, some unclosed⟩ ∧
        fault = unclosed.fault options.file text.toList options.padding.toList := by
  constructor
  · intro hlex
    have hdivides := divides_divideFrom 0 text.toList
    rcases hdivision : divideFrom 0 text.toList with ⟨pieces, _ | unclosed⟩
    · rw [hdivision] at hdivides
      rw [lex_of_closed hpadding hdivides] at hlex
      cases hlex
    · rw [hdivision] at hdivides
      rw [lex_of_unclosed hpadding hdivides] at hlex
      exact ⟨pieces, unclosed, hdivides, (Except.error.inj hlex).symm⟩
  · rintro ⟨pieces, unclosed, hdivides, rfl⟩
    exact lex_of_unclosed hpadding hdivides

end Tilde
