import Tilde.Proofs.Divisions

/-!
A text without an open span is covered by its pieces and by blanks: from any
offset on there is a blank, or a piece, or the end of the text. It follows that
every piece is a part of the text at its own offset, that the pieces come one
after the other, and that what is in no piece is blank.
-/

namespace Tilde.Munch

open Alphabet

/-- A text at an offset is covered by blanks and pieces. -/
inductive Tiles : Nat → List Char → List Piece → Prop
  | done {offset : Nat} : Tiles offset [] []
  | gap {offset : Nat} {c : Char} {rest : List Char} {pieces : List Piece}
      (hc : isBlank c = true) (hrest : Tiles (offset + 1) rest pieces) :
      Tiles offset (c :: rest) pieces
  | piece {offset : Nat} {chars rest : List Char} {kind : Kind} {pieces : List Piece}
      (hne : chars ≠ []) (hrest : Tiles (offset + chars.length) rest pieces) :
      Tiles offset (chars ++ rest) (⟨offset, chars, kind⟩ :: pieces)

theorem Divides.tiles {offset : Nat} {text : List Char} {division : Division}
    (h : Divides offset text division) (hclosed : division.unclosed = none) :
    Tiles offset text division.pieces := by
  induction h with
  | done => exact .done
  | blank hc _ ih => exact .gap hc (ih hclosed)
  | unclosed => cases hclosed
  | @span offset c body rest rule division hc hbody _ ih =>
      have hlength : body.length + 2 = (c :: body ++ [c]).length := by simp
      rw [hlength] at ih
      have hpiece : Tiles offset ((c :: body ++ [c]) ++ rest)
          (⟨offset, c :: body ++ [c], rule.kind⟩ :: division.pieces) :=
        .piece (List.concat_ne_nil c (c :: body)) (ih hclosed)
      rwa [List.append_assoc, List.singleton_append] at hpiece
  | @single offset c _ _ _ _ _ ih => exact .piece (List.cons_ne_nil c []) (ih hclosed)
  | word hne _ _ _ ih => exact .piece hne (ih hclosed)

theorem Tiles.within {offset : Nat} {text : List Char} {pieces : List Piece}
    (h : Tiles offset text pieces) :
    ∀ piece ∈ pieces, piece.chars ≠ [] ∧ offset ≤ piece.offset ∧
      piece.offset + piece.chars.length ≤ offset + text.length := by
  induction h with
  | done => simp
  | gap hc _ ih =>
      intro piece hpiece
      obtain ⟨hne, hstart, hstop⟩ := ih piece hpiece
      refine ⟨hne, by omega, ?_⟩
      rw [List.length_cons]
      omega
  | @piece offset chars rest kind pieces hne _ ih =>
      intro piece hpiece
      rw [List.length_append]
      rcases List.mem_cons.mp hpiece with rfl | hpiece
      · exact ⟨hne, Nat.le_refl _, by dsimp only; omega⟩
      · obtain ⟨hne, hstart, hstop⟩ := ih piece hpiece
        exact ⟨hne, by omega, by omega⟩

/-- The characters of a piece are those at its place in the text. -/
theorem Tiles.slice (before : List Char) {text : List Char} {pieces : List Piece}
    (h : Tiles before.length text pieces) :
    ∀ piece ∈ pieces,
      ((before ++ text).take (piece.offset + piece.chars.length)).drop piece.offset =
        piece.chars := by
  generalize hoffset : before.length = offset at h
  induction h generalizing before with
  | done => simp
  | @gap offset c rest pieces hc _ ih =>
      have hrest := ih (before ++ [c]) (by simp [hoffset])
      simpa using hrest
  | @piece offset chars rest kind pieces hne _ ih =>
      have hrest := ih (before ++ chars) (by simp [hoffset])
      intro piece hpiece
      rcases List.mem_cons.mp hpiece with rfl | hpiece
      · subst hoffset
        rw [← List.append_assoc, ← List.length_append, List.take_left, List.drop_left]
      · simpa using hrest piece hpiece

theorem Tiles.pairwise {offset : Nat} {text : List Char} {pieces : List Piece}
    (h : Tiles offset text pieces) :
    pieces.Pairwise fun first second => first.offset + first.chars.length ≤ second.offset := by
  induction h with
  | done => exact .nil
  | gap _ _ ih => exact ih
  | piece _ hrest ih => exact .cons (fun piece hpiece => (hrest.within piece hpiece).2.1) ih

/-- What is in no piece is blank. -/
theorem Tiles.isBlank_of_outside (before : List Char) {text : List Char} {pieces : List Piece}
    (h : Tiles before.length text pieces) {i : Nat} {c : Char} (hi : before.length ≤ i)
    (hc : (before ++ text)[i]? = some c)
    (houtside : ∀ piece ∈ pieces,
      ¬(piece.offset ≤ i ∧ i < piece.offset + piece.chars.length)) :
    isBlank c = true := by
  generalize hoffset : before.length = offset at h
  induction h generalizing before with
  | done =>
      rw [List.append_nil, List.getElem?_eq_none hi] at hc
      cases hc
  | @gap offset d rest pieces hd _ ih =>
      by_cases hhere : i = before.length
      · subst hhere
        simp at hc
        rwa [← hc]
      · apply ih (before ++ [d])
        · simp
          omega
        · simpa using hc
        · exact houtside
        · simp [hoffset]
  | @piece offset chars rest kind pieces hne _ ih =>
      have hhere := houtside _ (List.mem_cons_self ..)
      apply ih (before ++ chars)
      · rw [List.length_append]
        dsimp only at hhere
        omega
      · simpa using hc
      · intro piece hpiece
        exact houtside piece (List.mem_cons_of_mem _ hpiece)
      · simp [hoffset]

end Tilde.Munch
