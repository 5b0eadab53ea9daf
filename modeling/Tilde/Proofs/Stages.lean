import Tilde.Proofs.Divisions
import Tilde.Proofs.Steps

/-!
The invariant of the scan. Between any two steps the text is in three parts: what
the scan has done with, the word in progress and what the reader has ahead of it.
However the last two fall into pieces together, the whole text falls into the
pieces found so far and then those; so no piece that was found has to be taken
back, and what is found next depends on nothing but what is left.

A word in progress never stands before a blank or before punctuation. This is why
only its own letters or a comment can come next, and why no word is left over
when the text ends in a blank.
-/

namespace Tilde.Scan

open Alphabet SpanRule Munch

/-- The word in progress whose characters come after a part of the text. -/
def wordAfter (file : String) (passed held : List Char) : Option Word :=
  if held = [] then none
  else some ⟨Location.ofOffset file passed passed.length, String.ofList held⟩

@[simp] theorem State.word_finishWord (s : State) : s.finishWord.word = none := by
  unfold State.finishWord
  split
  · assumption
  · rfl

theorem State.word_extendWord {s : State} {file : String} {passed held ahead : List Char}
    (hreader : s.reader = .between (passed ++ held) ahead)
    (hword : s.word = wordAfter file passed held) (c : Char) :
    (s.extendWord file c).word = wordAfter file passed (held ++ [c]) := by
  by_cases hheld : held = []
  · subst hheld
    rw [List.append_nil] at hreader
    have hstart : s.reader.location file = Location.ofOffset file passed passed.length := by
      rw [hreader, Reader.location_between, Location.ofOffset_length_append]
    simp [State.extendWord, hword, wordAfter, hstart]
  · have hpush : (String.ofList held).push c = String.ofList (held ++ [c]) := by
      rw [String.push_eq_append, String.ofList_append, String.singleton_eq_ofList]
    simp only [State.extendWord, hword, wordAfter, if_neg hheld, hpush]
    rw [if_neg (List.concat_ne_nil c held)]

/-- The token of a finished word is that of its piece, whatever comes after it. -/
theorem Word.token_eq (file : String) (passed held rest : List Char) :
    (Word.mk (Location.ofOffset file passed passed.length) (String.ofList held)).token =
      (lexemePiece passed.length held).token file (passed ++ rest) := by
  rw [Word.token, Token.ofLexeme, lexemePiece, Piece.token, Location.ofOffset_length_append]

theorem State.tokens_finishWord {s : State} {file : String} {passed held : List Char}
    (hword : s.word = wordAfter file passed held) (rest : List Char) :
    s.finishWord.tokens.toList =
      s.tokens.toList ++
        (wordPieces passed.length held).map (Piece.token file (passed ++ rest)) := by
  by_cases hheld : held = []
  · simp [State.finishWord, hword, wordAfter, wordPieces, hheld]
  · simp [State.finishWord, hword, wordAfter, wordPieces, hheld,
      Word.token_eq file passed held rest]

theorem State.log_finishWord {s : State} {file : String} {passed held : List Char}
    (hword : s.word = wordAfter file passed held) (rest : List Char) :
    s.finishWord.log.toList =
      s.log.toList ++ (wordPieces passed.length held).map
        fun piece => .word (piece.token file (passed ++ rest)) := by
  by_cases hheld : held = []
  · simp [State.finishWord, hword, wordAfter, wordPieces, hheld]
  · simp [State.finishWord, hword, wordAfter, wordPieces, hheld,
      Word.token_eq file passed held rest]

/-- How far a scan has come in its text. -/
structure Stage where
  /-- The text before the word in progress. -/
  passed : List Char
  /-- The word in progress. -/
  held : List Char
  /-- The text from the reader on. -/
  ahead : List Char
  /-- The pieces found so far. -/
  found : List Piece

/-- A state of the scan of a text is at a stage. -/
structure State.At (options : Options) (text : List Char) (stage : Stage) (s : State) :
    Prop where
  text_eq : stage.passed ++ (stage.held ++ stage.ahead) = text
  reader_eq : s.reader = .between (stage.passed ++ stage.held) stage.ahead
  word_eq : s.word = wordAfter options.file stage.passed stage.held
  letters : ∀ c ∈ stage.held, isWordChar c = true
  /-- A word in progress is followed by one more of its letters or by a comment. -/
  goesOn : stage.held ≠ [] → startsInWord stage.ahead = true ∨ stage.ahead.head? = some '~'
  /-- A word that is finished where the reader is has no comment after it. -/
  settled : stage.held = [] → stopsInWord stage.passed = true → stage.ahead.head? ≠ some '~'
  /-- Only the end of a span is ever the end of the text. -/
  spanned : stage.ahead = [] → ∀ c ∈ stage.passed.getLast?, (openedBy c).isSome = true
  tokens_eq : s.tokens.toList = stage.found.map (Piece.token options.file text)
  /-- However the rest falls into pieces, so does the text. -/
  divides : ∀ division, Divides stage.passed.length (stage.held ++ stage.ahead) division →
    Divides 0 text (division.prepend stage.found)

/-- A scan breaks off at the delimiter at which the division of its text does, which is
not the last character of the text. -/
def Failure.Justified (options : Options) (text : List Char) (failure : Failure) : Prop :=
  ∃ pieces unclosed, Divides 0 text ⟨pieces, some unclosed⟩ ∧
    unclosed.offset + 1 < text.length ∧
    failure.fault = unclosed.fault options.file text []

variable {options : Options} {text : List Char} {stage : Stage} {s : State}

theorem State.at_start (options : Options) (text : List Char) :
    (State.start (String.ofList text)).At options text ⟨[], [], text, []⟩ where
  text_eq := rfl
  reader_eq := by simp [State.start, Reader.ofString_eq_between]
  word_eq := rfl
  letters := by simp
  goesOn h := absurd rfl h
  settled := fun _ hstops => by cases hstops
  spanned := by simp
  tokens_eq := rfl
  divides division h := by simpa using h

/-- A word in progress is not at the end of the text, -/
theorem State.At.held_eq_nil_of_ahead (h : s.At options text stage) (hahead : stage.ahead = []) :
    stage.held = [] := by
  by_contra hheld
  rcases h.goesOn hheld with hstarts | hhead
  · simp [hahead, startsInWord] at hstarts
  · simp [hahead] at hhead

/-- and the only span that begins right after it is a comment. -/
theorem State.At.eq_tilde {c : Char} {rest : List Char} {rule : SpanRule}
    (h : s.At options text stage) (hahead : stage.ahead = c :: rest) (hheld : stage.held ≠ [])
    (hc : openedBy c = some rule) : c = '~' := by
  rcases h.goesOn hheld with hstarts | hhead
  · simp [hahead, isWordChar_of_openedBy hc] at hstarts
  · rw [hahead] at hhead
    exact Option.some.inj hhead

/-- Only a letter or a comment leaves a word in progress. -/
theorem State.At.held_eq_nil {c : Char} {rest : List Char} (h : s.At options text stage)
    (hahead : stage.ahead = c :: rest) (hc : isWordChar c = false) (htilde : c ≠ '~') :
    stage.held = [] := by
  by_contra hheld
  rcases h.goesOn hheld with hstarts | hhead
  · simp [hahead, hc] at hstarts
  · simp [hahead, htilde] at hhead

variable {passed held rest : List Char} {found : List Piece} {c next : Char}

theorem State.At.step_blank (h : s.At options text ⟨passed, [], c :: next :: rest, found⟩)
    (hc : isBlank c = true) :
    ∃ after, step options s = .ok after ∧
      after.At options text ⟨passed ++ [c], [], next :: rest, found⟩ := by
  have hreader : s.reader = .between passed (c :: next :: rest) := by
    simpa using h.reader_eq
  refine ⟨_, Scan.step_blank hreader hc, ?_⟩
  exact {
    text_eq := by simpa using h.text_eq
    reader_eq := by simp
    word_eq := by simpa [wordAfter] using h.word_eq
    letters := by simp
    goesOn := fun hheld => absurd rfl hheld
    settled := by simp [stopsInWord_concat, isWordChar_of_isBlank hc]
    spanned := fun hahead => absurd hahead (List.cons_ne_nil next rest)
    tokens_eq := by simpa using h.tokens_eq
    divides := by
      intro division hdivision
      apply h.divides division
      apply Divides.blank hc
      simpa using hdivision }

/-- A letter that ends nothing makes the word in progress longer. -/
theorem State.At.step_letter (h : s.At options text ⟨passed, held, c :: next :: rest, found⟩)
    (hc : isWordChar c = true) (hends : endsWord c next = false) :
    ∃ after, step options s = .ok after ∧
      after.At options text ⟨passed, held ++ [c], next :: rest, found⟩ := by
  have hblank := ((isWordChar_iff c).mp hc).1
  refine ⟨_, Scan.step_letter h.reader_eq hblank (openedBy_of_isWordChar hc), ?_⟩
  rw [hends, if_neg Bool.false_ne_true]
  exact {
    text_eq := by simpa using h.text_eq
    reader_eq := by simp
    word_eq := State.word_extendWord (by simpa using h.reader_eq) (by simpa using h.word_eq) c
    letters := List.forall_mem_append.mpr ⟨h.letters, by simpa using hc⟩
    goesOn := by
      intro _
      rcases (endsWord_of_isWordChar hc).mp hends with hnext | rfl
      · exact .inl hnext
      · exact .inr rfl
    settled := fun hheld => absurd hheld (List.concat_ne_nil c held)
    spanned := fun hahead => absurd hahead (List.cons_ne_nil next rest)
    tokens_eq := by simpa [State.extendWord] using h.tokens_eq
    divides := by
      intro division hdivision
      apply h.divides division
      simpa using hdivision }

/-- A character after which the word in progress ends finishes it, provided that the
word with this character is a piece of the text. -/
theorem State.At.step_last (h : s.At options text ⟨passed, held, c :: next :: rest, found⟩)
    (hblank : isBlank c = false) (hopened : openedBy c = none) (hends : endsWord c next = true)
    (hpiece : ∀ division, Divides (passed.length + (held.length + 1)) (next :: rest) division →
      Divides passed.length (held ++ c :: next :: rest)
        (division.prepend (wordPieces passed.length (held ++ [c])))) :
    ∃ after, step options s = .ok after ∧
      after.At options text ⟨passed ++ (held ++ [c]), [], next :: rest,
        found ++ wordPieces passed.length (held ++ [c])⟩ := by
  refine ⟨_, Scan.step_letter h.reader_eq hblank hopened, ?_⟩
  rw [hends, if_pos rfl]
  have hword := State.word_extendWord (s := s.watch options (passed ++ held).getLast? c next)
    (by simpa using h.reader_eq) (by simpa using h.word_eq) c
  have htokens := State.tokens_finishWord hword (held ++ c :: next :: rest)
  exact {
    text_eq := by simpa using h.text_eq
    reader_eq := by simp
    word_eq := by simp [wordAfter]
    letters := by simp
    goesOn := fun hheld => absurd rfl hheld
    settled := by
      intro _ hstops
      rw [← List.append_assoc, stopsInWord_concat] at hstops
      rintro ⟨⟩
      simp [(endsWord_of_isWordChar hstops).mpr] at hends
    spanned := fun hahead => absurd hahead (List.cons_ne_nil next rest)
    tokens_eq := by
      have hfound := h.tokens_eq
      have htext := h.text_eq
      dsimp only at hfound htext ⊢
      rw [htokens, htext, List.map_append, ← hfound]
      simp [State.extendWord]
    divides := by
      intro division hdivision
      rw [Division.prepend_append]
      apply h.divides
      apply hpiece division
      simpa using hdivision }

/-- A letter that ends the word in progress completes a piece. -/
theorem State.At.step_lastLetter
    (h : s.At options text ⟨passed, held, c :: next :: rest, found⟩)
    (hc : isWordChar c = true) (hends : endsWord c next = true) :
    ∃ after, step options s = .ok after ∧
      after.At options text ⟨passed ++ (held ++ [c]), [], next :: rest,
        found ++ wordPieces passed.length (held ++ [c])⟩ := by
  have hblank := ((isWordChar_iff c).mp hc).1
  have hletters : ∀ d ∈ held ++ [c], isWordChar d = true :=
    List.forall_mem_append.mpr ⟨h.letters, by simpa using hc⟩
  have hstop : startsInWord (next :: rest) = false := by
    cases hnext : startsInWord (next :: rest) with
    | false => rfl
    | true => simp [(endsWord_of_isWordChar hc).mpr (.inl hnext)] at hends
  apply h.step_last hblank (openedBy_of_isWordChar hc) hends
  intro division hdivision
  have hlength : passed.length + (held ++ [c]).length =
      passed.length + (held.length + 1) := by simp
  rw [← hlength] at hdivision
  have hword := hdivision.prepend_wordPieces hletters hstop
  rwa [List.append_assoc, List.singleton_append] at hword

/-- A word in progress, finished by the span that opens after it. -/
theorem State.At.divides_span {rule : SpanRule} {body after : List Char}
    (h : s.At options text ⟨passed, held, c :: body ++ c :: after, found⟩)
    (hc : openedBy c = some rule) (hbody : c ∉ body) {division : Division}
    (hdivision : Divides (passed ++ held ++ (c :: body ++ [c])).length after division) :
    Divides 0 text (division.prepend (found ++ wordPieces passed.length held ++
      [⟨(passed ++ held).length, c :: body ++ [c], rule.kind⟩])) := by
  have hoffset : (passed ++ held ++ (c :: body ++ [c])).length =
      passed.length + held.length + (body.length + 2) := by
    simp
    omega
  rw [hoffset] at hdivision
  rw [Division.prepend_append, Division.prepend_append, List.length_append]
  apply h.divides
  apply Divides.prepend_wordPieces h.letters
  · exact isWordChar_of_openedBy hc
  · exact .span hc hbody hdivision

/-- A closed span is one piece, and the word before it another. -/
theorem State.At.step_span {rule : SpanRule} {body after : List Char}
    (h : s.At options text ⟨passed, held, c :: body ++ c :: after, found⟩)
    (hc : openedBy c = some rule) (hbody : c ∉ body) :
    ∃ s', step options s = .ok s' ∧
      s'.At options text ⟨passed ++ held ++ (c :: body ++ [c]), [], after,
        found ++ wordPieces passed.length held ++
          [⟨(passed ++ held).length, c :: body ++ [c], rule.kind⟩]⟩ := by
  obtain ⟨next, rest, hspan⟩ := List.exists_cons_of_ne_nil (List.append_ne_nil_of_right_ne_nil
    body (List.cons_ne_nil c after))
  have hreader : s.reader = .between (passed ++ held) (c :: next :: rest) := by
    rw [← hspan]
    exact h.reader_eq
  have hword : (s.watch options (passed ++ held).getLast? c next).word =
      wordAfter options.file passed held := by
    rw [State.word_watch]
    exact h.word_eq
  have htokens := State.tokens_finishWord hword (held ++ (c :: body ++ c :: after))
  refine ⟨_, Scan.step_span hreader hc hspan.symm hbody, ?_⟩
  exact {
    text_eq := by simpa using h.text_eq
    reader_eq := by simp [State.takeSpan]
    word_eq := by simp [State.takeSpan, wordAfter]
    letters := by simp
    goesOn := fun hheld => absurd rfl hheld
    settled := by
      intro _ hstops
      rw [← List.append_assoc, stopsInWord_concat, isWordChar_of_openedBy hc] at hstops
      cases hstops
    spanned := by
      intro _ d hd
      rw [← List.append_assoc, List.getLast?_concat, Option.mem_some_iff] at hd
      rw [← hd, hc]
      rfl
    tokens_eq := by
      have hfound := h.tokens_eq
      have htext := h.text_eq
      have hstart : s.reader.location options.file =
          Location.ofOffset options.file text (passed ++ held).length := by
        rw [hreader, Reader.location_between, ← htext, ← hspan, List.append_assoc]
        rfl
      dsimp only at hfound htext ⊢
      simp only [State.takeSpan, TokenSeq.toList_push, htokens, htext, State.tokens_watch,
        hfound, hstart, List.map_append, List.map_singleton, Piece.token]
    divides := by
      intro division hdivision
      exact h.divides_span hc hbody (by simpa using hdivision) }

/-- A word in progress, finished where a span is left open. -/
theorem State.At.divides_unclosed {rule : SpanRule}
    (h : s.At options text ⟨passed, held, c :: rest, found⟩)
    (hc : openedBy c = some rule) (hrest : c ∉ rest) :
    Divides 0 text ⟨found ++ wordPieces passed.length held,
      some ⟨(passed ++ held).length, c⟩⟩ := by
  rw [List.length_append]
  simpa [Division.prepend] using h.divides _
    (Divides.prepend_wordPieces h.letters (isWordChar_of_openedBy hc) (.unclosed hc hrest))

/-- Where a span is not closed, the scan breaks off and so does the division. -/
theorem State.At.step_unclosed {rule : SpanRule}
    (h : s.At options text ⟨passed, held, c :: next :: rest, found⟩)
    (hc : openedBy c = some rule) (hrest : c ∉ next :: rest) :
    ∃ failure, step options s = .error failure ∧ failure.Justified options text := by
  have htext : text = passed ++ held ++ (c :: next :: rest) := by
    rw [List.append_assoc]
    exact h.text_eq.symm
  refine ⟨_, Scan.step_unclosed h.reader_eq hc hrest, _, _, h.divides_unclosed hc hrest, ?_, ?_⟩
  · simp only [htext, List.length_append, List.length_cons]
    omega
  · rw [SpanRule.unterminated, h.reader_eq, Reader.location_between, Reader.wholeLine_between,
      Unclosed.fault, spanForm_eq hc, ← delimiter_of_openedBy hc, List.append_nil, htext]

/-- What a scan can find ahead of it, as long as there is more than one character. -/
inductive Stage.Turn : Stage → Prop
  | blank {passed rest : List Char} {found : List Piece} {c next : Char}
      (hc : isBlank c = true) : Turn ⟨passed, [], c :: next :: rest, found⟩
  | sign {passed rest : List Char} {found : List Piece} {c next : Char}
      (hblank : isBlank c = false) (hopened : openedBy c = none) (hc : splits c = true) :
      Turn ⟨passed, [], c :: next :: rest, found⟩
  | letter {passed held rest : List Char} {found : List Piece} {c next : Char}
      (hc : isWordChar c = true) (hends : endsWord c next = false) :
      Turn ⟨passed, held, c :: next :: rest, found⟩
  | lastLetter {passed held rest : List Char} {found : List Piece} {c next : Char}
      (hc : isWordChar c = true) (hends : endsWord c next = true) :
      Turn ⟨passed, held, c :: next :: rest, found⟩
  | span {passed held body after : List Char} {found : List Piece} {c : Char}
      {rule : SpanRule} (hc : openedBy c = some rule) (hbody : c ∉ body) :
      Turn ⟨passed, held, c :: body ++ c :: after, found⟩
  | unclosed {passed held rest : List Char} {found : List Piece} {c next : Char}
      {rule : SpanRule} (hc : openedBy c = some rule) (hrest : c ∉ next :: rest) :
      Turn ⟨passed, held, c :: next :: rest, found⟩

/-- The cases are those of the scan: what the current character opens, and if it opens
nothing, whether it is a blank, punctuation or a letter. Only the last leaves room for a
word in progress. -/
theorem State.At.turn (h : s.At options text stage) (hmore : 1 < stage.ahead.length) :
    stage.Turn := by
  obtain ⟨passed, held, ahead, found⟩ := stage
  obtain ⟨c, next, rest, rfl⟩ : ∃ c next rest, ahead = c :: next :: rest := by
    match ahead, hmore with
    | c :: next :: rest, _ => exact ⟨c, next, rest, rfl⟩
  cases hopened : openedBy c with
  | some rule =>
      by_cases hmem : c ∈ next :: rest
      · obtain ⟨body, after, hspan, hbody⟩ := List.eq_append_cons_of_mem hmem
        rw [hspan]
        exact .span hopened hbody
      · exact .unclosed hopened hmem
  | none =>
      have htilde := ((openedBy_eq_none_iff c).mp hopened).1
      cases hblank : isBlank c with
      | true =>
          obtain rfl : held = [] := h.held_eq_nil rfl (isWordChar_of_isBlank hblank) htilde
          exact .blank hblank
      | false =>
          cases hsplits : splits c with
          | true =>
              obtain rfl : held = [] := h.held_eq_nil rfl (isWordChar_of_splits hsplits) htilde
              exact .sign hblank hopened hsplits
          | false =>
              have hc := isWordChar_of_openedBy_eq_none hblank hopened hsplits
              cases hends : endsWord c next with
              | false => exact .letter hc hends
              | true => exact .lastLetter hc hends

/-- Punctuation is a piece by itself. -/
theorem State.At.step_sign (h : s.At options text ⟨passed, [], c :: next :: rest, found⟩)
    (hblank : isBlank c = false) (hopened : openedBy c = none) (hc : splits c = true) :
    ∃ after, Scan.step options s = .ok after ∧
      after.At options text ⟨passed ++ [c], [], next :: rest,
        found ++ wordPieces passed.length [c]⟩ :=
  h.step_last hblank hopened (endsWord_of_splits hc)
    fun _ hdivision => .single hopened hc hdivision

/-- A step finds what the division finds next, or breaks off where it does. -/
theorem State.At.step (h : s.At options text stage) (hmore : 1 < stage.ahead.length) :
    (∃ s' stage', Scan.step options s = .ok s' ∧ s'.At options text stage') ∨
      ∃ failure, Scan.step options s = .error failure ∧ failure.Justified options text := by
  cases h.turn hmore with
  | blank hc => exact .inl ⟨_, _, (h.step_blank hc).choose_spec⟩
  | sign hblank hopened hc => exact .inl ⟨_, _, (h.step_sign hblank hopened hc).choose_spec⟩
  | letter hc hends => exact .inl ⟨_, _, (h.step_letter hc hends).choose_spec⟩
  | lastLetter hc hends => exact .inl ⟨_, _, (h.step_lastLetter hc hends).choose_spec⟩
  | span hc hbody => exact .inl ⟨_, _, (h.step_span hc hbody).choose_spec⟩
  | unclosed hc hrest => exact .inr (h.step_unclosed hc hrest)

theorem State.At.hasNext_eq (h : s.At options text stage) :
    s.reader.hasNext = decide (1 < stage.ahead.length) := by
  rw [h.reader_eq, Reader.hasNext_between]

/-- What every step takes from one stage to another holds at the end of the scan, where
nothing is left to look ahead at, unless the scan breaks off. -/
theorem steps_of_step {P : Stage → State → Prop} {R : Failure → Prop}
    (hat : ∀ stage s, P stage s → s.At options text stage)
    (hstep : ∀ stage s, P stage s → 1 < stage.ahead.length →
      (∃ s' stage', step options s = .ok s' ∧ P stage' s') ∨
        ∃ failure, step options s = .error failure ∧ R failure) (h : P stage s) :
    (∃ s' stage', steps options s = .ok s' ∧ P stage' s' ∧ stage'.ahead.length ≤ 1) ∨
      ∃ failure, steps options s = .error failure ∧ R failure := by
  -- on the number of characters left to pass, which every step makes smaller
  induction hn : s.reader.remaining using Nat.strong_induction_on generalizing s stage with
  | _ n ih =>
      have hnext := (hat stage s h).hasNext_eq
      by_cases hmore : 1 < stage.ahead.length
      · rw [decide_eq_true hmore] at hnext
        rw [steps_of_hasNext hnext]
        rcases hstep stage s h hmore with ⟨s', stage', hs', h'⟩ | ⟨failure, hs', hfailure⟩
        · rw [hs']
          exact ih _ (hn ▸ remaining_step hs') h' rfl
        · rw [hs']
          exact .inr ⟨failure, rfl, hfailure⟩
      · rw [decide_eq_false hmore] at hnext
        exact .inl ⟨s, stage, steps_of_not_hasNext hnext, h, Nat.not_lt.mp hmore⟩

/-- The whole scan ends at a stage with nothing to look ahead at, or it breaks off
where the division does. -/
theorem State.At.steps (h : s.At options text stage) :
    (∃ s' stage', Scan.steps options s = .ok s' ∧ s'.At options text stage' ∧
        stage'.ahead.length ≤ 1) ∨
      ∃ failure, Scan.steps options s = .error failure ∧ failure.Justified options text :=
  steps_of_step (fun _ _ h => h) (fun _ _ h => h.step) h

end Tilde.Scan
