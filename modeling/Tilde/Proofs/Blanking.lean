import Mathlib.Data.List.Pairwise
import Tilde.Proofs.Outcomes

/-!
Comments are blanks. A text in which blanks stand for the characters of its comments
has the tokens of the text but for the comments, each at its old place, since the line
ends of a comment are left standing.

The comments of a text are found again by the tokens alone: a token reaches from the
offset with its place as far as its lexeme is long. The argument is about the pieces of
the text, of which no two share an offset; a text is blanked by a set of offsets which
holds all offsets of a piece that is a comment and none of a piece of another kind.
-/

namespace Tilde

/-- Whether a token begins at an offset of a text, going by its place. -/
def Token.beginsAt (text : List Char) (token : Token) (start : Nat) : Bool :=
  token.location.any fun place => place == Location.ofOffset place.file text start

/-- Whether an offset of a text is in a token. -/
def Token.reaches (text : List Char) (token : Token) (offset : Nat) : Bool :=
  (List.range (offset + 1)).any fun start =>
    token.beginsAt text start && decide (offset < start + token.lexeme.toList.length)

/-- Whether an offset of a text is in a comment. -/
def inComment (text : List Char) (tokens : List Token) (offset : Nat) : Bool :=
  tokens.any fun token => token.kind == .comment && token.reaches text offset

namespace Text

/-- The blank that stands for a character: a line end stays one. -/
def blankFor (c : Char) : Char :=
  if c = '\n' then '\n' else ' '

/-- A text, from an offset of a longer one on, with blanks at the offsets that pass a
test. -/
def blankOut (test : Nat → Bool) (offset : Nat) (text : List Char) : List Char :=
  text.mapIdx fun i c => if test (offset + i) then blankFor c else c

theorem isBlank_blankFor (c : Char) : Alphabet.isBlank (blankFor c) = true := by
  rw [Alphabet.isBlank_iff, blankFor]
  split <;> simp

variable {test : Nat → Bool} {offset : Nat} {text : List Char}

theorem blankOut_append (test : Nat → Bool) (offset : Nat) (front back : List Char) :
    blankOut test offset (front ++ back) =
      blankOut test offset front ++ blankOut test (offset + front.length) back := by
  simp only [blankOut, List.mapIdx_append, Nat.add_assoc, Nat.add_comm front.length]

theorem blankOut_cons (test : Nat → Bool) (offset : Nat) (c : Char) (rest : List Char) :
    blankOut test offset (c :: rest) =
      (if test offset then blankFor c else c) :: blankOut test (offset + 1) rest :=
  blankOut_append test offset [c] rest

theorem blankOut_eq_self (h : ∀ i < text.length, test (offset + i) = false) :
    blankOut test offset text = text := by
  apply List.ext_getElem
  · simp [blankOut]
  · intro i _ hi
    simp [blankOut, h i hi]

theorem blankOut_eq_map (h : ∀ i < text.length, test (offset + i) = true) :
    blankOut test offset text = text.map blankFor := by
  apply List.ext_getElem
  · simp [blankOut]
  · intro i _ hi
    rw [List.length_map] at hi
    simp [blankOut, h i hi]

/-- Blanks change nothing of where the lines of a text end. -/
theorem map_newline_blankOut (test : Nat → Bool) (offset : Nat) (text : List Char) :
    (blankOut test offset text).map (· == '\n') = text.map (· == '\n') := by
  have hblank (c : Char) : (blankFor c == '\n') = (c == '\n') := by
    rw [blankFor]
    split <;> simp_all
  apply List.ext_getElem
  · simp [blankOut]
  · intro i _ _
    simp only [blankOut, List.getElem_map, List.getElem_mapIdx]
    split
    · exact hblank _
    · rfl

end Text

/-- A text with blanks for the comments among its tokens. -/
def blankComments (text : List Char) (tokens : List Token) : List Char :=
  Text.blankOut (inComment text tokens) 0 text

/-! ### The pieces that are comments -/

theorem Lexeme.mem_of_category_kindOf {lexeme : String}
    (h : (kindOf lexeme).category = .trivia) : lexeme ∈ ["~", " ", "\t", "\n"] := by
  have htable : fixed.all (fun entry =>
      entry.2.category != .trivia || ["~", " ", "\t", "\n"].contains entry.1) = true := by
    decide +kernel
  rcases mem_fixed_or_kindOf_eq lexeme with hmem | hkind | hkind
  · simpa [h] using List.all_eq_true.mp htable _ hmem
  · rw [hkind] at h
    cases h
  · rw [hkind] at h
    cases h

/-- Neither a word nor a sign is a comment, or anything else without meaning. -/
theorem Lexeme.category_kindOf_ne_trivia {chars : List Char}
    (hchars : ∀ c ∈ chars, Alphabet.isBlank c = false ∧ c ≠ '~') :
    (kindOf (String.ofList chars)).category ≠ .trivia := by
  intro htrivia
  have hmem := mem_of_category_kindOf htrivia
  have htoList : chars ∈ ["~", " ", "\t", "\n"].map String.toList := by
    rw [← String.toList_ofList (l := chars)]
    exact List.mem_map_of_mem hmem
  have hone : ∃ c ∈ chars, Alphabet.isBlank c = true ∨ c = '~' := by
    simp only [List.map_cons, List.map_nil, List.mem_cons, List.not_mem_nil, or_false] at htoList
    rcases htoList with rfl | rfl | rfl | rfl
    · exact ⟨'~', by decide, .inr rfl⟩
    · exact ⟨' ', by decide, .inl (by decide +kernel)⟩
    · exact ⟨'\t', by decide, .inl (by decide +kernel)⟩
    · exact ⟨'\n', by decide, .inl (by decide +kernel)⟩
  obtain ⟨c, hc, hblank | htilde⟩ := hone
  · simp [(hchars c hc).1] at hblank
  · exact (hchars c hc).2 htilde

namespace Munch

open Alphabet Text

def Piece.isComment (piece : Piece) : Bool :=
  piece.kind == .comment

theorem category_of_single {c : Char} (hopened : SpanRule.openedBy c = none)
    (hc : splits c = true) :
    (Lexeme.kindOf (String.singleton c)).category ≠ .trivia := by
  have hplain : ∀ d ∈ [c], isBlank d = false ∧ d ≠ '~' := by
    intro d hd
    obtain rfl := List.mem_singleton.mp hd
    refine ⟨?_, ((SpanRule.openedBy_eq_none_iff d).mp hopened).1⟩
    cases hblank : isBlank d with
    | false => rfl
    | true => simp [splits_of_isBlank hblank] at hc
  exact Lexeme.category_kindOf_ne_trivia hplain

theorem category_of_word {chars : List Char} (hchars : ∀ c ∈ chars, isWordChar c = true) :
    (Lexeme.kindOf (String.ofList chars)).category ≠ .trivia := by
  apply Lexeme.category_kindOf_ne_trivia
  intro c hc
  obtain ⟨hblank, -, htilde⟩ := (isWordChar_iff c).mp (hchars c hc)
  exact ⟨hblank, htilde⟩

theorem ne_comment_of_category {kind : Kind} (hkind : kind.category ≠ .trivia) :
    (kind == .comment) = false := by
  rw [beq_eq_false_iff_ne]
  rintro rfl
  exact hkind rfl

/-- A piece is without meaning only if it is a comment. -/
theorem Divides.isTrivia {offset : Nat} {text : List Char} {division : Division}
    (h : Divides offset text division) (hclosed : division.unclosed = none) :
    ∀ piece ∈ division.pieces, (piece.kind.category == .trivia) = piece.isComment := by
  have hmeaning {kind : Kind} (hkind : kind.category ≠ .trivia) :
      (kind.category == .trivia) = (kind == .comment) := by
    rw [ne_comment_of_category hkind, beq_eq_false_iff_ne.mpr hkind]
  induction h with
  | done => simp
  | blank _ _ ih => exact ih hclosed
  | unclosed => cases hclosed
  | span hc _ _ ih =>
      refine List.forall_mem_cons.mpr ⟨?_, ih hclosed⟩
      rcases SpanRule.openedBy_eq_some_iff.mp hc with ⟨-, rfl⟩ | ⟨-, rfl⟩ <;> rfl
  | single hopened hc _ ih =>
      exact List.forall_mem_cons.mpr ⟨hmeaning (category_of_single hopened hc), ih hclosed⟩
  | word _ hchars _ _ ih =>
      exact List.forall_mem_cons.mpr ⟨hmeaning (category_of_word hchars), ih hclosed⟩

/-- A test passes the offsets of the comments among some pieces and fails those of the
other pieces. -/
def MarksComments (test : Nat → Bool) (pieces : List Piece) : Prop :=
  ∀ piece ∈ pieces, ∀ i < piece.chars.length, test (piece.offset + i) = piece.isComment

namespace MarksComments

variable {test : Nat → Bool} {offset : Nat} {chars : List Char} {kind : Kind}
  {piece : Piece} {pieces : List Piece}

theorem tail (h : MarksComments test (piece :: pieces)) : MarksComments test pieces :=
  fun other hother => h other (List.mem_cons_of_mem _ hother)

/-- What is no comment is left as it is. -/
theorem blankOut_head (h : MarksComments test (⟨offset, chars, kind⟩ :: pieces))
    (hkind : (kind == .comment) = false) : blankOut test offset chars = chars :=
  blankOut_eq_self fun i hi => (h _ (List.mem_cons_self ..) i hi).trans hkind

end MarksComments

theorem startsInWord_blankOut (test : Nat → Bool) (offset : Nat) {text : List Char}
    (h : startsInWord text = false) : startsInWord (blankOut test offset text) = false := by
  cases text with
  | nil => rfl
  | cons c rest =>
      rw [blankOut_cons, startsInWord_cons]
      split
      · exact isWordChar_of_isBlank (isBlank_blankFor c)
      · exact h

theorem filter_cons_of_ne_comment {offset : Nat} {chars : List Char} {kind : Kind}
    (hkind : (kind == .comment) = false) (division : Division) :
    (division.cons ⟨offset, chars, kind⟩).pieces.filter (!·.isComment) =
      ⟨offset, chars, kind⟩ :: division.pieces.filter (!·.isComment) :=
  List.filter_cons_of_pos (by simp [Piece.isComment, hkind])

/-- A text with blanks for its comments falls into its pieces but for the comments. -/
theorem Divides.blankOut {test : Nat → Bool} {offset : Nat} {text : List Char}
    {division : Division} (h : Divides offset text division)
    (hclosed : division.unclosed = none) (hmarks : MarksComments test division.pieces) :
    Divides offset (Text.blankOut test offset text)
      ⟨division.pieces.filter (!·.isComment), none⟩ := by
  induction h with
  | done => exact .done
  | @blank offset c rest division hc _ ih =>
      rw [blankOut_cons]
      apply Divides.blank ?_ (ih hclosed hmarks)
      split
      · exact isBlank_blankFor c
      · exact hc
  | unclosed => cases hclosed
  | @span offset c body rest rule division hc hbody _ ih =>
      have hsplit : c :: body ++ c :: rest = (c :: body ++ [c]) ++ rest := by simp
      have hlength : body.length + 2 = (c :: body ++ [c]).length := by simp
      have hrest := ih hclosed hmarks.tail
      rw [hlength] at hrest
      rw [hsplit, blankOut_append]
      rcases SpanRule.openedBy_eq_some_iff.mp hc with ⟨-, rfl⟩ | ⟨-, rfl⟩
      · -- a comment becomes blanks before the rest
        rw [blankOut_eq_map (hmarks _ (List.mem_cons_self ..))]
        apply Divides.prepend_blanks
        · intro d hd
          obtain ⟨e, -, rfl⟩ := List.mem_map.mp hd
          exact isBlank_blankFor e
        · rwa [List.length_map]
      · rw [hmarks.blankOut_head rfl, filter_cons_of_ne_comment rfl]
        exact .prepend_span hc hbody hrest
  | @single offset c rest division hopened hc _ ih =>
      have hkind := ne_comment_of_category (category_of_single hopened hc)
      rw [← List.singleton_append, blankOut_append, hmarks.blankOut_head hkind,
        filter_cons_of_ne_comment hkind]
      exact .single hopened hc (ih hclosed hmarks.tail)
  | @word offset chars rest division hne hchars hstop _ ih =>
      have hkind := ne_comment_of_category (category_of_word hchars)
      rw [blankOut_append, hmarks.blankOut_head hkind, filter_cons_of_ne_comment hkind]
      exact .word hne hchars (startsInWord_blankOut test _ hstop) (ih hclosed hmarks.tail)

/-! ### The comments by their tokens -/

theorem Piece.token_beginsAt {text : List Char} {piece : Piece} (file : String)
    (hinside : piece.offset ≤ text.length) {start : Nat} (hstart : start ≤ text.length) :
    (piece.token file text).beginsAt text start = decide (piece.offset = start) := by
  rw [Bool.eq_iff_iff, decide_eq_true_iff, ← Location.ofOffset_inj file hinside hstart]
  simp [Piece.token, Token.beginsAt, Location.ofOffset]

theorem Piece.token_reaches_iff {text : List Char} {piece : Piece} (file : String)
    (hinside : piece.offset ≤ text.length) {offset : Nat} (hoffset : offset ≤ text.length) :
    (piece.token file text).reaches text offset = true ↔
      piece.offset ≤ offset ∧ offset < piece.offset + piece.chars.length := by
  have hbegins (start : Nat) (hstart : start ≤ offset) :
      (piece.token file text).beginsAt text start = decide (piece.offset = start) :=
    Piece.token_beginsAt file hinside (Nat.le_trans hstart hoffset)
  simp only [Token.reaches, List.any_eq_true, List.mem_range, Bool.and_eq_true,
    decide_eq_true_iff]
  constructor
  · rintro ⟨start, hstart, hhere, hlength⟩
    rw [hbegins start (by omega), decide_eq_true_iff] at hhere
    subst hhere
    simp only [Piece.token, String.toList_ofList] at hlength
    exact ⟨by omega, hlength⟩
  · rintro ⟨hle, hlt⟩
    refine ⟨piece.offset, by omega, ?_, ?_⟩
    · rw [hbegins _ hle, decide_eq_true_iff]
    · simpa [Piece.token] using hlt

/-- No two pieces of a text share an offset. -/
theorem Tiles.eq_of_shared {offset : Nat} {text : List Char} {pieces : List Piece}
    (h : Tiles offset text pieces) {first second : Piece} (hfirst : first ∈ pieces)
    (hsecond : second ∈ pieces) {n : Nat}
    (hn : first.offset ≤ n ∧ n < first.offset + first.chars.length)
    (hn' : second.offset ≤ n ∧ n < second.offset + second.chars.length) : first = second := by
  by_contra hne
  have hapart : pieces.Pairwise fun p q =>
      p.offset + p.chars.length ≤ q.offset ∨ q.offset + q.chars.length ≤ p.offset :=
    h.pairwise.imp Or.inl
  have hsymm : Std.Symm fun p q : Piece =>
      p.offset + p.chars.length ≤ q.offset ∨ q.offset + q.chars.length ≤ p.offset :=
    ⟨fun _ _ => Or.symm⟩
  have := hapart.forall hfirst hsecond hne
  omega

theorem Tiles.marksComments {text : List Char} {pieces : List Piece}
    (h : Tiles 0 text pieces) (file : String) :
    MarksComments (inComment text (pieces.map (Piece.token file text))) pieces := by
  intro piece hpiece i hi
  have hwithin := h.within piece hpiece
  have hhere : piece.offset ≤ piece.offset + i ∧
      piece.offset + i < piece.offset + piece.chars.length := by omega
  -- the token that reaches an offset is that of the only piece around it
  have hreaches : ∀ other ∈ pieces,
      (other.token file text).reaches text (piece.offset + i) = true ↔
        other.offset ≤ piece.offset + i ∧
          piece.offset + i < other.offset + other.chars.length := by
    intro other hother
    have hwithin' := h.within other hother
    exact Piece.token_reaches_iff file (by omega) (by omega)
  rw [Bool.eq_iff_iff, inComment, List.any_map, List.any_eq_true]
  simp only [Function.comp_apply, Bool.and_eq_true]
  constructor
  · rintro ⟨other, hother, hcomment, hreached⟩
    rw [h.eq_of_shared hpiece hother hhere ((hreaches other hother).mp hreached)]
    exact hcomment
  · intro hcomment
    exact ⟨piece, hpiece, hcomment, (hreaches piece hpiece).mpr hhere⟩

end Munch

open Munch

/-- A text with blanks for its comments has the tokens of the text that have meaning,
at their old places. -/
theorem lex_blankComments {options : Options} (haccepted : options.checked = .ok options)
    {source : String} {tokens : TokenSeq} (hlex : lex source options = .ok tokens) :
    lex (String.ofList (blankComments source.toList tokens.toList)) options =
        .ok (.ofList tokens.withoutTrivia) ∧
      ∀ token ∈ tokens.withoutTrivia, token.isTrivia = false := by
  have hpadding := (Options.checked_eq_ok_iff.mp haccepted).1
  obtain ⟨pieces, hdivides, rfl⟩ := (lex_eq_ok_iff hpadding).mp hlex
  have htrivia := hdivides.isTrivia rfl
  have hblanked := hdivides.blankOut rfl ((hdivides.tiles rfl).marksComments options.file)
  rw [← String.toList_ofList (l := Text.blankOut ..)] at hblanked
  simp only [TokenSeq.withoutTrivia, TokenSeq.toList_ofList, List.mem_filter]
  refine ⟨?_, fun token htoken => by simpa using htoken.2⟩
  have htokens : Piece.token options.file (blankComments source.toList
      (pieces.map (Piece.token options.file source.toList))) =
        Piece.token options.file source.toList := by
    funext piece
    rw [Piece.token, blankComments,
      Location.ofOffset_congr _ (Text.map_newline_blankOut ..), Piece.token]
  have hmeaning : pieces.filter (!·.isComment) =
      pieces.filter fun piece => !(piece.token options.file source.toList).isTrivia := by
    apply List.filter_congr
    intro piece hpiece
    rw [← htrivia piece hpiece]
    rfl
  have hlex := lex_of_closed hpadding hblanked
  rw [String.toList_ofList, hmeaning] at hlex
  rw [blankComments, hlex, List.filter_map, ← blankComments, htokens]
  rfl

/-- A comment over two lines that touches words on either side and holds a quote, a
string that holds a tilde, and an empty comment at the end. -/
theorem lex_blankComments_between_words :
    ({ file := "m.tl", padding := "\t\n" } : Options).checked =
        .ok { file := "m.tl", padding := "\t\n" } ∧
      lex "x~\"\n~y \"~\"~~" { file := "m.tl", padding := "\t\n" } =
        .ok (.ofList [⟨"x", .identifier, some ⟨"m.tl", 1, 1⟩⟩,
          ⟨"~\"\n~", .comment, some ⟨"m.tl", 1, 2⟩⟩,
          ⟨"y", .identifier, some ⟨"m.tl", 2, 2⟩⟩,
          ⟨"\"~\"", .stringLiteral, some ⟨"m.tl", 2, 4⟩⟩,
          ⟨"~~", .comment, some ⟨"m.tl", 2, 7⟩⟩]) ∧
      lex "x  \n y \"~\"  " { file := "m.tl", padding := "\t\n" } =
        .ok (.ofList [⟨"x", .identifier, some ⟨"m.tl", 1, 1⟩⟩,
          ⟨"y", .identifier, some ⟨"m.tl", 2, 2⟩⟩,
          ⟨"\"~\"", .stringLiteral, some ⟨"m.tl", 2, 4⟩⟩]) := by
  have haccepted : ({ file := "m.tl", padding := "\t\n" } : Options).checked =
      .ok { file := "m.tl", padding := "\t\n" } := by decide +kernel
  have hlex : lex "x~\"\n~y \"~\"~~" { file := "m.tl", padding := "\t\n" } =
      .ok (.ofList [⟨"x", .identifier, some ⟨"m.tl", 1, 1⟩⟩,
        ⟨"~\"\n~", .comment, some ⟨"m.tl", 1, 2⟩⟩,
        ⟨"y", .identifier, some ⟨"m.tl", 2, 2⟩⟩,
        ⟨"\"~\"", .stringLiteral, some ⟨"m.tl", 2, 4⟩⟩,
        ⟨"~~", .comment, some ⟨"m.tl", 2, 7⟩⟩]) := by decide +kernel
  have hblanked := (lex_blankComments haccepted hlex).1
  exact ⟨haccepted, hlex, hblanked⟩

end Tilde
