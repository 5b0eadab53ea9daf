import Tilde.Proofs.Divisions

/-!
Divisions of texts that are put together. What follows a text changes nothing of
its pieces but the last, and the last only if it is a word that the other text
goes on with. A text whose last span is open takes everything that follows into
this span, up to the delimiter.
-/

namespace Tilde.Munch

open Alphabet SpanRule

/-- A text at an offset is a front, which does not stop in a word, and a word, which
may be empty. The front has the same pieces whatever comes after it. -/
structure LastWord (offset : Nat) (text : List Char) (pieces : List Piece)
    (front held : List Char) (found : List Piece) : Prop where
  text_eq : text = front ++ held
  letters : ∀ c ∈ held, isWordChar c = true
  complete : stopsInWord front = false
  pieces_eq : pieces = found ++ wordPieces (offset + front.length) held
  divides : ∀ rest after, Divides (offset + front.length) rest after →
    Divides offset (front ++ rest) (after.prepend found)

/-- A text keeps its last word when more is put in front of it. -/
theorem LastWord.behind {offset : Nat} {text : List Char} {pieces : List Piece}
    {front held : List Char} {found : List Piece} (first : List Char) (more : List Piece)
    (h : LastWord (offset + first.length) text pieces front held found)
    (hcomplete : stopsInWord (first ++ front) = false)
    (hdivides : ∀ rest after, Divides (offset + first.length) (front ++ rest) after →
      Divides offset (first ++ (front ++ rest)) (after.prepend more)) :
    LastWord offset (first ++ text) (more ++ pieces) (first ++ front) held (more ++ found) := by
  have hlength : offset + (first ++ front).length =
      offset + first.length + front.length := by
    rw [List.length_append, Nat.add_assoc]
  constructor
  · rw [h.text_eq, List.append_assoc]
  · exact h.letters
  · exact hcomplete
  · rw [hlength, List.append_assoc, ← h.pieces_eq]
  · intro rest after hrest
    rw [hlength] at hrest
    rw [List.append_assoc, Division.prepend_append]
    exact hdivides rest _ (h.divides rest after hrest)

theorem startsInWord_of_letters {chars : List Char} (hne : chars ≠ [])
    (hchars : ∀ c ∈ chars, isWordChar c = true) (rest : List Char) :
    startsInWord (chars ++ rest) = true := by
  obtain ⟨c, letters, rfl⟩ := List.exists_cons_of_ne_nil hne
  exact hchars c (List.mem_cons_self ..)

theorem stopsInWord_of_letters (rest : List Char) {chars : List Char} (hne : chars ≠ [])
    (hchars : ∀ c ∈ chars, isWordChar c = true) : stopsInWord (rest ++ chars) = true := by
  rcases List.eq_nil_or_concat chars with rfl | ⟨letters, c, rfl⟩
  · exact absurd rfl hne
  · rw [stopsInWord_append rest hne, List.concat_eq_append, stopsInWord_concat]
    exact hchars c (by simp)

/-- Every text without an open span has a last word in this sense. -/
theorem Divides.exists_lastWord {offset : Nat} {text : List Char} {division : Division}
    (h : Divides offset text division) (hclosed : division.unclosed = none) :
    ∃ front held found, LastWord offset text division.pieces front held found := by
  induction h with
  | @done offset =>
      exact ⟨[], [], [], rfl, by simp, rfl, rfl, fun _ _ hrest => hrest⟩
  | @blank offset c rest division hc _ ih =>
      obtain ⟨front, held, found, h⟩ := ih hclosed
      refine ⟨_, _, _, h.behind [c] [] ?_ fun rest after => .blank hc⟩
      exact stopsInWord_append_eq_false (isWordChar_of_isBlank hc) h.complete
  | unclosed hc hrest => cases hclosed
  | @span offset c body rest rule division hc hbody _ ih =>
      have htext : c :: body ++ c :: rest = (c :: body ++ [c]) ++ rest := by simp
      have hlength : body.length + 2 = (c :: body ++ [c]).length := by simp
      rw [hlength] at ih
      obtain ⟨front, held, found, h⟩ := ih hclosed
      rw [htext]
      refine ⟨_, _, _, h.behind _ [⟨offset, c :: body ++ [c], rule.kind⟩] ?_ ?_⟩
      · apply stopsInWord_append_eq_false
        · rw [stopsInWord_concat, isWordChar_of_openedBy hc]
        · exact h.complete
      · intro rest after
        exact .prepend_span hc hbody
  | @single offset c rest division hopened hc _ ih =>
      obtain ⟨front, held, found, h⟩ := ih hclosed
      refine ⟨_, _, _, h.behind [c] [⟨offset, [c], Lexeme.kindOf (String.singleton c)⟩] ?_
        fun rest after => .single hopened hc⟩
      exact stopsInWord_append_eq_false (isWordChar_of_splits hc) h.complete
  | @word offset chars rest division hne hchars hstop hrest ih =>
      -- the word is the last one itself, or else the last one is in the rest
      by_cases hlast : rest = []
      · subst hlast
        obtain rfl : division = ⟨[], none⟩ := by
          rw [hrest.eq_divideFrom, divideFrom]
        refine ⟨[], chars, [], by simp, hchars, rfl, ?_, fun _ _ hafter => hafter⟩
        simp [Division.cons, wordPieces, lexemePiece, hne]
      · obtain ⟨front, held, found, h⟩ := ih hclosed
        have hfront : front ≠ [] := by
          rintro rfl
          have hheld : held ≠ [] := by simpa [h.text_eq] using hlast
          have hstarts := startsInWord_of_letters hheld h.letters []
          rw [List.append_nil, ← List.nil_append held, ← h.text_eq, hstop] at hstarts
          cases hstarts
        refine ⟨_, _, _, h.behind chars
          [⟨offset, chars, Lexeme.kindOf (String.ofList chars)⟩] ?_ ?_⟩
        · rw [stopsInWord_append chars hfront, h.complete]
        · intro rest after hafter
          refine .word hne hchars ?_ hafter
          rw [startsInWord_append hfront, ← startsInWord_append hfront held, ← h.text_eq, hstop]

/-- A text and one that does not go on with its last word fall into the pieces of
the one and then those of the other. -/
theorem Divides.append {offset : Nat} {a b : List Char} {division after : Division}
    (h : Divides offset a division) (hclosed : division.unclosed = none)
    (hwords : stopsInWord a = true → startsInWord b = false)
    (hb : Divides (offset + a.length) b after) :
    Divides offset (a ++ b) (after.prepend division.pieces) := by
  obtain ⟨front, held, found, hlast⟩ := h.exists_lastWord hclosed
  obtain rfl := hlast.text_eq
  rw [hlast.pieces_eq, List.append_assoc, Division.prepend_append]
  apply hlast.divides
  rw [List.length_append, ← Nat.add_assoc] at hb
  by_cases hheld : held = []
  · subst hheld
    exact hb
  · exact hb.prepend_wordPieces hlast.letters
      (hwords (stopsInWord_of_letters front hheld hlast.letters))

theorem Divides.first_word {offset : Nat} {text : List Char} {division : Division}
    (h : Divides offset text division) (hstarts : startsInWord text = true) :
    ∃ chars rest after, text = chars ++ rest ∧ chars ≠ [] ∧
      (∀ c ∈ chars, isWordChar c = true) ∧ startsInWord rest = false ∧
      Divides (offset + chars.length) rest after ∧
      division = after.prepend (wordPieces offset chars) := by
  cases h with
  | done => cases hstarts
  | blank hc _ => simp [isWordChar_of_isBlank hc] at hstarts
  | unclosed hc _ => simp [isWordChar_of_openedBy hc] at hstarts
  | span hc _ _ => simp [isWordChar_of_openedBy hc] at hstarts
  | single _ hc _ => simp [isWordChar_of_splits hc] at hstarts
  | word hne hchars hstop hrest =>
      refine ⟨_, _, _, rfl, hne, hchars, hstop, hrest, ?_⟩
      rw [wordPieces, if_neg hne]
      rfl

/-- Two pieces of which the second goes on with the word of the first. -/
def Piece.join (last next : Piece) : Piece :=
  lexemePiece last.offset (last.chars ++ next.chars)

/-- Where a text goes on with the last word of another, the two words are one piece. -/
theorem Divides.append_word {offset : Nat} {a b : List Char} {division after : Division}
    (h : Divides offset a division) (hclosed : division.unclosed = none)
    (hstops : stopsInWord a = true) (hstarts : startsInWord b = true)
    (hb : Divides (offset + a.length) b after) :
    ∃ found last next rest, division.pieces = found ++ [last] ∧ after.pieces = next :: rest ∧
      Divides offset (a ++ b) ⟨found ++ last.join next :: rest, after.unclosed⟩ := by
  obtain ⟨front, held, found, hlast⟩ := h.exists_lastWord hclosed
  obtain rfl := hlast.text_eq
  obtain ⟨chars, rest, tail, rfl, hne, hchars, hstop, hrest, rfl⟩ := hb.first_word hstarts
  have hheld : held ≠ [] := by
    rintro rfl
    rw [List.append_nil, hlast.complete] at hstops
    cases hstops
  have hletters : ∀ c ∈ held ++ chars, isWordChar c = true :=
    List.forall_mem_append.mpr ⟨hlast.letters, hchars⟩
  have hlength : offset + (front ++ held).length + chars.length =
      offset + front.length + (held ++ chars).length := by
    rw [List.length_append, List.length_append]
    omega
  rw [hlength] at hrest
  have hdivides := hlast.divides _ _ (hrest.prepend_wordPieces hletters hstop)
  rw [List.append_assoc, ← List.append_assoc held]
  refine ⟨found, lexemePiece (offset + front.length) held,
    lexemePiece (offset + (front ++ held).length) chars, tail.pieces, ?_, ?_, ?_⟩
  · rw [hlast.pieces_eq, wordPieces, if_neg hheld]
  · rw [wordPieces, if_neg hne]
    rfl
  · have hboth : held ++ chars ≠ [] := by simp [hheld]
    rwa [wordPieces, if_neg hboth] at hdivides

/-- A text without the delimiter of an open span leaves the division as it is. -/
theorem Divides.append_open {offset : Nat} {a b : List Char} {division : Division}
    (h : Divides offset a division) {unclosed : Unclosed}
    (hopen : division.unclosed = some unclosed) (hb : unclosed.delimiter ∉ b) :
    Divides offset (a ++ b) division := by
  induction h with
  | done => cases hopen
  | blank hc _ ih => exact .blank hc (ih hopen)
  | @unclosed offset c rest rule hc hrest =>
      cases hopen
      exact .unclosed hc (List.not_mem_append hrest hb)
  | span hc hbody _ ih =>
      have hspan := Divides.span hc hbody (ih hopen)
      rwa [← List.cons_append, ← List.append_assoc] at hspan
  | single hopened hc _ ih => exact .single hopened hc (ih hopen)
  | @word offset chars rest division hne hchars hstop hrest ih =>
      have hmore : rest ≠ [] := by
        rintro rfl
        rw [hrest.eq_divideFrom, divideFrom] at hopen
        cases hopen
      rw [List.append_assoc]
      refine .word hne hchars ?_ (ih hopen)
      rwa [startsInWord_append hmore]

/-- An open span begins at a delimiter that does not occur again, and what stands
before it falls into the pieces found. -/
theorem Divides.exists_opening {offset : Nat} {text : List Char} {division : Division}
    (h : Divides offset text division) {unclosed : Unclosed}
    (hopen : division.unclosed = some unclosed) :
    ∃ front c rest rule, text = front ++ c :: rest ∧ openedBy c = some rule ∧ c ∉ rest ∧
      unclosed = ⟨offset + front.length, c⟩ ∧
      Divides offset front ⟨division.pieces, none⟩ := by
  induction h with
  | done => cases hopen
  | @unclosed offset c rest rule hc hrest =>
      cases hopen
      exact ⟨[], c, rest, rule, rfl, hc, hrest, rfl, .done⟩
  | @blank offset b _ division hb _ ih =>
      obtain ⟨front, c, rest, rule, rfl, hc, hrest, rfl, hfront⟩ := ih hopen
      refine ⟨b :: front, c, rest, rule, rfl, hc, hrest, ?_, .blank hb hfront⟩
      rw [List.length_cons, Nat.add_assoc, Nat.add_comm 1]
  | @span offset d body _ _ division hd hbody _ ih =>
      obtain ⟨front, c, rest, rule, rfl, hc, hrest, rfl, hfront⟩ := ih hopen
      refine ⟨d :: body ++ d :: front, c, rest, rule, by simp, hc, hrest, ?_,
        .span hd hbody hfront⟩
      simp only [Unclosed.mk.injEq, and_true, List.length_append, List.length_cons]
      omega
  | @single offset d _ division hopened hd _ ih =>
      obtain ⟨front, c, rest, rule, rfl, hc, hrest, rfl, hfront⟩ := ih hopen
      refine ⟨d :: front, c, rest, rule, rfl, hc, hrest, ?_, .single hopened hd hfront⟩
      rw [List.length_cons, Nat.add_assoc, Nat.add_comm 1]
  | @word offset chars _ division hne hchars hstop _ ih =>
      obtain ⟨front, c, rest, rule, rfl, hc, hrest, rfl, hfront⟩ := ih hopen
      have hstop' : startsInWord front = false := by
        cases front with
        | nil => rfl
        | cons d front => exact hstop
      refine ⟨chars ++ front, c, rest, rule, by simp, hc, hrest, ?_,
        .word hne hchars hstop' hfront⟩
      rw [List.length_append, Nat.add_assoc]

theorem Divides.offset_lt {text : List Char} {division : Division} (h : Divides 0 text division)
    {unclosed : Unclosed} (hopen : division.unclosed = some unclosed) :
    unclosed.offset < text.length := by
  obtain ⟨front, c, rest, _, rfl, -, -, rfl, -⟩ := h.exists_opening hopen
  simp only [List.length_append, List.length_cons]
  omega

/-- The delimiter of an open span does not stand at the end of a text that ends in a
blank. -/
theorem Divides.offset_add_one_lt {text : List Char} {division : Division}
    (h : Divides 0 text division) (hlast : ∀ c ∈ text.getLast?, isBlank c = true)
    {unclosed : Unclosed} (hopen : division.unclosed = some unclosed) :
    unclosed.offset + 1 < text.length := by
  obtain ⟨front, c, rest, rule, rfl, hc, -, rfl, -⟩ := h.exists_opening hopen
  have hrest : rest ≠ [] := by
    rintro rfl
    have hblank := hlast c (by rw [List.getLast?_concat]; rfl)
    simp [isBlank_of_openedBy hc] at hblank
  have hpos := List.length_pos_iff.mpr hrest
  simp only [List.length_append, List.length_cons]
  omega

/-- What stands before an open span has no open span. -/
theorem Divides.before_unclosed {offset : Nat} {front rest : List Char} {delimiter : Char}
    {pieces : List Piece}
    (h : Divides offset (front ++ rest) ⟨pieces, some ⟨offset + front.length, delimiter⟩⟩) :
    Divides offset front ⟨pieces, none⟩ := by
  obtain ⟨front', c, rest', _, htext, -, -, hunclosed, hfront⟩ := h.exists_opening rfl
  have hlength : front.length = front'.length :=
    Nat.add_left_cancel (Unclosed.mk.inj hunclosed).1
  rwa [(List.append_inj htext hlength).1]

/-- Where a text without an open span comes before a delimiter that does not occur
again, the span of this delimiter is left open. -/
theorem Divides.append_unclosed {offset : Nat} {front rest : List Char} {c : Char}
    {rule : SpanRule} {pieces : List Piece} (h : Divides offset front ⟨pieces, none⟩)
    (hc : openedBy c = some rule) (hrest : c ∉ rest) :
    Divides offset (front ++ c :: rest) ⟨pieces, some ⟨offset + front.length, c⟩⟩ := by
  have hwords : stopsInWord front = true → startsInWord (c :: rest) = false :=
    fun _ => isWordChar_of_openedBy hc
  simpa [Division.prepend] using h.append rfl hwords (.unclosed hc hrest)

theorem Divides.append_blanks {offset : Nat} {text blanks : List Char} {division : Division}
    (h : Divides offset text division) (hblanks : ∀ c ∈ blanks, isBlank c = true) :
    Divides offset (text ++ blanks) division := by
  cases hopen : division.unclosed with
  | none =>
      have hrest : Divides (offset + text.length) (blanks ++ []) ⟨[], none⟩ :=
        .prepend_blanks hblanks .done
      rw [List.append_nil] at hrest
      have happend := h.append hopen (fun _ => startsInWord_blanks hblanks) hrest
      rwa [Division.prepend, List.append_nil, ← hopen] at happend
  | some unclosed =>
      obtain ⟨_, c, _, _, -, hc, -, rfl, -⟩ := h.exists_opening hopen
      apply h.append_open hopen
      intro hmem
      have hblank := hblanks c hmem
      simp [isBlank_of_openedBy hc] at hblank

/-! ### Moving a text to another offset -/

/-- Pieces of a text that comes later in a longer one. -/
def Piece.shift (distance : Nat) (piece : Piece) : Piece :=
  { piece with offset := distance + piece.offset }

def Unclosed.shift (distance : Nat) (unclosed : Unclosed) : Unclosed :=
  { unclosed with offset := distance + unclosed.offset }

def Division.shift (distance : Nat) (division : Division) : Division where
  pieces := division.pieces.map (Piece.shift distance)
  unclosed := division.unclosed.map (Unclosed.shift distance)

/-- A text falls into the same pieces wherever it stands. -/
theorem Divides.shift {offset : Nat} {text : List Char} {division : Division}
    (h : Divides offset text division) (distance : Nat) :
    Divides (distance + offset) text (division.shift distance) := by
  induction h with
  | done => exact .done
  | blank hc _ ih => exact .blank hc (by rwa [Nat.add_assoc])
  | unclosed hc hrest => exact .unclosed hc hrest
  | span hc hbody _ ih => exact .span hc hbody (by rwa [Nat.add_assoc])
  | single hopened hc _ ih => exact .single hopened hc (by rwa [Nat.add_assoc])
  | word hne hchars hstop _ ih => exact .word hne hchars hstop (by rwa [Nat.add_assoc])

end Tilde.Munch
