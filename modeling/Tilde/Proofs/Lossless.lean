import Mathlib.Data.List.Forall2
import Tilde.Proofs.Outcomes

/-!
Nothing of a text is lost. Every token stands at an extent of the text that is the
token's own lexeme, extents follow one another without overlapping, and between
them there are blanks only. The place that a token carries is that of its extent,
so places increase from token to token.
-/

namespace Tilde

open Munch

/-- A range of offsets of a text, without the last. -/
structure Extent where
  start : Nat
  stop : Nat

def Extent.Contains (extent : Extent) (offset : Nat) : Prop :=
  extent.start ≤ offset ∧ offset < extent.stop

/-- A token stands at an extent of a text: it is what the text has there, and its
place is where the extent begins. -/
structure Token.Occupies (file : String) (text : List Char) (token : Token)
    (extent : Extent) : Prop where
  nonempty : extent.start < extent.stop
  inside : extent.stop ≤ text.length
  lexeme : (text.take extent.stop).drop extent.start = token.lexeme.toList
  /-- Lines and columns are counted from one. -/
  location : ∃ lineStart, Text.BeginsLine text extent.start lineStart ∧
    token.location = some ⟨file, 1 + (text.take extent.start).count '\n',
      extent.start - lineStart + 1⟩

/-- One token has an earlier place than another. -/
def Token.Precedes (first second : Token) : Prop :=
  ∃ p q, first.location = some p ∧ second.location = some q ∧ p.Precedes q

def Munch.Piece.extent (piece : Piece) : Extent where
  start := piece.offset
  stop := piece.offset + piece.chars.length

theorem Munch.Tiles.occupies {text : List Char} {pieces : List Piece}
    (h : Tiles 0 text pieces) (file : String) :
    ∀ piece ∈ pieces, (piece.token file text).Occupies file text piece.extent := by
  intro piece hpiece
  obtain ⟨hne, -, hstop⟩ := h.within piece hpiece
  have hpos := List.length_pos_iff.mpr hne
  have hslice := h.slice [] piece hpiece
  have hinside : piece.offset ≤ text.length := by omega
  obtain ⟨lineStart, hline, hcolumn⟩ := Text.exists_beginsLine hinside
  have hle := hline.le
  constructor
  · simp only [Piece.extent]
    omega
  · simp only [Piece.extent]
    omega
  · simpa [Piece.extent, Piece.token] using hslice
  · refine ⟨lineStart, hline, ?_⟩
    simp only [Piece.token, Piece.extent, Location.ofOffset, Text.lineNumber, hcolumn,
      Option.some.injEq, Location.mk.injEq, true_and]
    omega

/-- The extents at which the tokens of a text stand. -/
structure Covers (file : String) (text : List Char) (tokens : List Token)
    (extents : List Extent) : Prop where
  occupied : List.Forall₂ (Token.Occupies file text) tokens extents
  /-- Extents come in the order of their tokens and do not overlap. -/
  apart : extents.Pairwise fun first second => first.stop ≤ second.start
  /-- There are blanks only wherever no token stands. -/
  blank : ∀ (offset : Nat) (c : Char), text[offset]? = some c →
    (∀ extent ∈ extents, ¬extent.Contains offset) → c = ' ' ∨ c = '\t' ∨ c = '\n'
  increasing : tokens.Pairwise Token.Precedes

theorem Munch.Tiles.covers {text : List Char} {pieces : List Piece}
    (h : Tiles 0 text pieces) (file : String) :
    Covers file text (pieces.map (Piece.token file text)) (pieces.map Piece.extent) := by
  constructor
  · rw [List.forall₂_map_left_iff, List.forall₂_map_right_iff, List.forall₂_same]
    exact h.occupies file
  · rw [List.pairwise_map]
    exact h.pairwise
  · intro offset c hc houtside
    apply (Alphabet.isBlank_iff c).mp
    apply h.isBlank_of_outside [] (Nat.zero_le _) hc
    intro piece hpiece
    exact houtside _ (List.mem_map_of_mem hpiece)
  · rw [List.pairwise_map]
    apply h.pairwise.imp_of_mem
    intro first second hfirst hsecond hle
    have hpos := List.length_pos_iff.mpr (h.within first hfirst).1
    have hinside := h.within second hsecond
    exact ⟨_, _, rfl, rfl, Location.ofOffset_precedes _ (by omega) (by omega)⟩

/-- Lexing loses nothing. -/
theorem lex_lossless {options : Options} (haccepted : options.checked = .ok options)
    {source : String} {tokens : TokenSeq} (hlex : lex source options = .ok tokens) :
    ∃ extents, Covers options.file source.toList tokens.toList extents := by
  have hpadding := (Options.checked_eq_ok_iff.mp haccepted).1
  obtain ⟨pieces, hdivides, rfl⟩ := (lex_eq_ok_iff hpadding).mp hlex
  rw [TokenSeq.toList_ofList]
  exact ⟨_, (hdivides.tiles rfl).covers options.file⟩

/-- A comment over two lines with a word on either side of it. -/
theorem lex_lossless_comment :
    ({ file := "m.tl", padding := "\t\n" } : Options).checked =
        .ok { file := "m.tl", padding := "\t\n" } ∧
      lex "x~\n~ do" { file := "m.tl", padding := "\t\n" } =
        .ok (.ofList [⟨"x", .identifier, some ⟨"m.tl", 1, 1⟩⟩,
          ⟨"~\n~", .comment, some ⟨"m.tl", 1, 2⟩⟩,
          ⟨"do", .doWord, some ⟨"m.tl", 2, 3⟩⟩]) ∧
      ∃ extents, Covers "m.tl" "x~\n~ do".toList
        [⟨"x", .identifier, some ⟨"m.tl", 1, 1⟩⟩, ⟨"~\n~", .comment, some ⟨"m.tl", 1, 2⟩⟩,
          ⟨"do", .doWord, some ⟨"m.tl", 2, 3⟩⟩] extents :=
  have haccepted : ({ file := "m.tl", padding := "\t\n" } : Options).checked =
      .ok { file := "m.tl", padding := "\t\n" } := by decide +kernel
  have hlex : lex "x~\n~ do" { file := "m.tl", padding := "\t\n" } =
      .ok (.ofList [⟨"x", .identifier, some ⟨"m.tl", 1, 1⟩⟩,
        ⟨"~\n~", .comment, some ⟨"m.tl", 1, 2⟩⟩,
        ⟨"do", .doWord, some ⟨"m.tl", 2, 3⟩⟩]) := by decide +kernel
  ⟨haccepted, hlex, lex_lossless haccepted hlex⟩

end Tilde
