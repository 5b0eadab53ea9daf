import Tilde.Proofs.Outcomes

/-!
Lexing a text that is put together from two. The tokens of the second part come
after those of the first, each with its place behind the first part, and so does
the fault of the second part. Only where a word goes on from one part into the
other do the two parts not keep to themselves: the two ends of the word are one
token, which may be of another kind than either.
-/

namespace Tilde

open Munch Alphabet

/-- A token of a text that comes after another text. -/
def Token.behind (front : List Char) (token : Token) : Token :=
  { token with location := token.location.map (Location.behind front) }

/-- The word that two tokens make where one goes on with the other. -/
def Token.join (last next : Token) : Token :=
  .ofLexeme (last.lexeme ++ next.lexeme) last.location

theorem Token.join_behind (front : List Char) (last next : Token) :
    last.join (next.behind front) = last.join next := rfl

/-- A fault of a text that comes after another text. A line that the text begins in
is shown with what the other text has of it. -/
def Fault.behind (front : List Char) : Fault → Fault
  | .unterminated form delimiter (some place) (some line) =>
      .unterminated form delimiter (some (place.behind front))
        (some (if place.line = 1 then
          String.ofList (Text.lineBefore front front.length) ++ line else line))
  | fault => fault

namespace Munch

theorem Piece.token_shift (file : String) (a b : List Char) (piece : Piece) :
    (piece.shift a.length).token file (a ++ b) = (piece.token file b).behind a := by
  simp only [Piece.token, Piece.shift, Token.behind, Location.ofOffset_append_right,
    Option.map_some]

theorem Piece.token_join (file : String) (text : List Char) (last next : Piece) :
    (last.join next).token file text = (last.token file text).join (next.token file text) := by
  simp only [Piece.token, Piece.join, lexemePiece, Token.join, Token.ofLexeme,
    String.ofList_append]

theorem Piece.map_token_shift (file : String) (a b : List Char) (pieces : List Piece) :
    (pieces.map (Piece.shift a.length)).map (Piece.token file (a ++ b)) =
      (pieces.map (Piece.token file b)).map (Token.behind a) := by
  rw [List.map_map, List.map_map]
  apply List.map_congr_left
  intro piece _
  exact piece.token_shift file a b

theorem Unclosed.fault_shift (file : String) (a b padding : List Char) {unclosed : Unclosed}
    (hwithin : unclosed.offset ≤ b.length) :
    (unclosed.shift a.length).fault file (a ++ b) padding =
      (unclosed.fault file b padding).behind a := by
  simp only [Unclosed.fault, Unclosed.shift, Fault.behind, Location.ofOffset_append_right,
    List.append_assoc, Text.lineAround_append_right, List.take_append_of_le_length hwithin,
    Location.line_ofOffset_eq_one_iff]
  by_cases hmem : '\n' ∈ b.take unclosed.offset
  · simp [hmem]
  · simp [hmem]

/-- What is left open in the second of two texts is left open in both together. -/
theorem Divides.exists_append {a b : List Char} {pieces : List Piece} {after : Division}
    (ha : Divides 0 a ⟨pieces, none⟩) (hb : Divides 0 b after) :
    ∃ both, Divides 0 (a ++ b) ⟨both, after.unclosed.map (Unclosed.shift a.length)⟩ := by
  have hshift := hb.shift a.length
  rw [Nat.add_comm] at hshift
  by_cases hword : stopsInWord a = true ∧ startsInWord b = true
  · obtain ⟨found, last, next, rest, -, -, hdivides⟩ :=
      ha.append_word rfl hword.1 hword.2 hshift
    exact ⟨_, hdivides⟩
  · have hwords : stopsInWord a = true → startsInWord b = false := by simpa using hword
    exact ⟨_, ha.append rfl hwords hshift⟩

end Munch

section

variable {options : Options} {a b : String} {pieces after : List Piece}

/-- Whatever comes before an open span, the fault is that of the span. -/
theorem lex_of_append_open (hpadding : Options.paddingSuffices options.padding = true)
    (ha : Divides 0 a.toList ⟨pieces, none⟩) {unclosed : Unclosed}
    (hb : Divides 0 b.toList ⟨after, some unclosed⟩) :
    lex (a ++ b) options =
      .error ((unclosed.fault options.file b.toList options.padding.toList).behind
        a.toList) := by
  obtain ⟨both, hboth⟩ := ha.exists_append hb
  have hwithin := (hb.offset_lt rfl).le
  rw [← String.toList_append] at hboth
  rw [lex_of_unclosed hpadding hboth, String.toList_append,
    Unclosed.fault_shift _ _ _ _ hwithin]

/-- Where no word goes on, the tokens of both texts come one after the other. -/
theorem lex_of_append_apart (hpadding : Options.paddingSuffices options.padding = true)
    (ha : Divides 0 a.toList ⟨pieces, none⟩) (hb : Divides 0 b.toList ⟨after, none⟩)
    (hapart : ¬(stopsInWord a.toList = true ∧ startsInWord b.toList = true)) :
    lex (a ++ b) options =
      .ok (.ofList (pieces.map (Piece.token options.file a.toList) ++
        (after.map (Piece.token options.file b.toList)).map (Token.behind a.toList))) := by
  have hwords : stopsInWord a.toList = true → startsInWord b.toList = false := by
    simpa using hapart
  have hshift := hb.shift a.toList.length
  rw [Nat.add_comm] at hshift
  have hboth := ha.append rfl hwords hshift
  rw [← String.toList_append] at hboth
  rw [lex_of_closed hpadding hboth, String.toList_append, List.map_append,
    (ha.tiles rfl).token_append]
  exact congrArg (fun tokens => Except.ok (TokenSeq.ofList (_ ++ tokens)))
    (Piece.map_token_shift ..)

/-- Where a word goes on, its two parts are one token. -/
theorem lex_of_append_word (hpadding : Options.paddingSuffices options.padding = true)
    (ha : Divides 0 a.toList ⟨pieces, none⟩) (hb : Divides 0 b.toList ⟨after, none⟩)
    (hstops : stopsInWord a.toList = true) (hstarts : startsInWord b.toList = true) :
    ∃ found last next rest, pieces = found ++ [last] ∧ after = next :: rest ∧
      lex (a ++ b) options =
        .ok (.ofList (found.map (Piece.token options.file a.toList) ++
          (last.token options.file a.toList).join (next.token options.file b.toList) ::
            (rest.map (Piece.token options.file b.toList)).map
              (Token.behind a.toList))) := by
  have hshift := hb.shift a.toList.length
  rw [Nat.add_comm] at hshift
  obtain ⟨found, last, next', rest', rfl, hafter, hboth⟩ :=
    ha.append_word rfl hstops hstarts hshift
  obtain ⟨next, rest, hnext, rfl, rfl⟩ := List.map_eq_cons_iff.mp hafter
  refine ⟨found, last, next, rest, rfl, hnext, ?_⟩
  -- the pieces of the first text have the same tokens in both texts together
  have hpieces := (ha.tiles rfl).token_append options.file b.toList
  rw [List.map_append, List.map_append] at hpieces
  obtain ⟨hfound, hlast⟩ := List.append_inj hpieces (by simp)
  rw [List.map_singleton, List.map_singleton, List.singleton_inj] at hlast
  rw [← String.toList_append] at hboth
  rw [lex_of_closed hpadding hboth, String.toList_append, List.map_append, List.map_cons,
    hfound, Piece.token_join, hlast, Piece.token_shift, Piece.map_token_shift,
    Token.join_behind]

end

/-- Two texts are lexed one after the other, but for a word that goes on from the one
into the other. -/
theorem lex_append {options : Options} (haccepted : options.checked = .ok options)
    {a b : String} {first : TokenSeq} (hfirst : lex a options = .ok first) :
    (∀ fault, lex b options = .error fault →
      lex (a ++ b) options = .error (fault.behind a.toList)) ∧
    ∀ second, lex b options = .ok second →
      (¬(stopsInWord a.toList = true ∧ startsInWord b.toList = true) →
        lex (a ++ b) options =
          .ok (.ofList (first.toList ++ second.toList.map (Token.behind a.toList)))) ∧
      (stopsInWord a.toList = true ∧ startsInWord b.toList = true →
        ∃ front last next rest,
          first.toList = front ++ [last] ∧ second.toList = next :: rest ∧
            lex (a ++ b) options =
              .ok (.ofList
                (front ++ last.join next :: rest.map (Token.behind a.toList)))) := by
  have hpadding := (Options.checked_eq_ok_iff.mp haccepted).1
  obtain ⟨pieces, ha, rfl⟩ := (lex_eq_ok_iff hpadding).mp hfirst
  refine ⟨?_, ?_⟩
  · intro fault hfault
    obtain ⟨after, unclosed, hb, rfl⟩ := (lex_eq_error_iff hpadding).mp hfault
    exact lex_of_append_open hpadding ha hb
  · intro second hsecond
    obtain ⟨after, hb, rfl⟩ := (lex_eq_ok_iff hpadding).mp hsecond
    simp only [TokenSeq.toList_ofList]
    refine ⟨lex_of_append_apart hpadding ha hb, ?_⟩
    rintro ⟨hstops, hstarts⟩
    obtain ⟨found, last, next, rest, rfl, rfl, hlex⟩ :=
      lex_of_append_word hpadding ha hb hstops hstarts
    exact ⟨_, _, _, _, by rw [List.map_append, List.map_singleton], rfl, hlex⟩

/-- A keyword that is cut in two, with a comment left open behind it in one case. -/
theorem lex_append_keyword :
    ({ file := "m.tl" } : Options).checked = .ok { file := "m.tl" } ∧
      lex "~\n~ cl" { file := "m.tl" } =
        .ok (.ofList [⟨"~\n~", .comment, some ⟨"m.tl", 1, 1⟩⟩,
          ⟨"cl", .identifier, some ⟨"m.tl", 2, 3⟩⟩]) ∧
      lex ("~\n~ cl" ++ "ass ~") { file := "m.tl" } =
        .error (.unterminated .comment "~" (some ⟨"m.tl", 2, 9⟩) (some "~ class ~  ")) ∧
      lex ("~\n~ cl" ++ "ass\nb") { file := "m.tl" } =
        .ok (.ofList [⟨"~\n~", .comment, some ⟨"m.tl", 1, 1⟩⟩,
          ⟨"class", .classType, some ⟨"m.tl", 2, 3⟩⟩,
          ⟨"b", .identifier, some ⟨"m.tl", 3, 1⟩⟩]) := by
  have haccepted : ({ file := "m.tl" } : Options).checked = .ok { file := "m.tl" } := by
    decide +kernel
  have hfirst : lex "~\n~ cl" { file := "m.tl" } =
      .ok (.ofList [⟨"~\n~", .comment, some ⟨"m.tl", 1, 1⟩⟩,
        ⟨"cl", .identifier, some ⟨"m.tl", 2, 3⟩⟩]) := by decide +kernel
  have hopen : lex "ass ~" { file := "m.tl" } =
      .error (.unterminated .comment "~" (some ⟨"m.tl", 1, 5⟩) (some "ass ~  ")) := by
    decide +kernel
  have hsecond : lex "ass\nb" { file := "m.tl" } =
      .ok (.ofList [⟨"ass", .identifier, some ⟨"m.tl", 1, 1⟩⟩,
        ⟨"b", .identifier, some ⟨"m.tl", 2, 1⟩⟩]) := by decide +kernel
  refine ⟨haccepted, hfirst, ?_, ?_⟩
  · exact ((lex_append haccepted hfirst).1 _ hopen).trans (by decide +kernel)
  · obtain ⟨front, last, next, rest, hfront, hnext, hlex⟩ :=
      ((lex_append haccepted hfirst).2 _ hsecond).2 (by decide +kernel)
    obtain ⟨rfl, hlast⟩ := List.append_inj' (show [_] ++ [_] = _ from hfront) (by rfl)
    cases hlast
    cases hnext
    exact hlex.trans (by decide +kernel)

end Tilde
