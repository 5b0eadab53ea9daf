import Tilde.Proofs.Reports

/-!
The log of a scan. Between any two steps it is a chronicle of the text up to where the
reader is: every step stops once, and what it finishes it reports there. A scan that
breaks off has stopped at the delimiter of the open span last, and has finished there the
word right before it.
-/

namespace Tilde.Scan

open Alphabet SpanRule Munch

variable {options : Options} {text : List Char} {stage : Stage} {s : State}
  {passed held rest : List Char} {found : List Piece} {c next : Char}

/-- How many characters of its text a scan has passed. -/
def Stage.offset (stage : Stage) : Nat :=
  (stage.passed ++ stage.held).length

/-- A state of the scan of a text is at a stage, and its log tells how it came there. -/
structure State.Told (options : Options) (text : List Char) (stage : Stage) (s : State) :
    Prop extends State.At options text stage s where
  chronicle : Chronicle options text stage.found stage.offset s.log.toList

/-- A scan broke off at the open span of its text, and its log goes as far as the delimiter. -/
structure Failure.Told (options : Options) (text : List Char) (pieces : List Piece)
    (unclosed : Unclosed) (failure : Failure) : Prop where
  divides : Divides 0 text ⟨pieces, some unclosed⟩
  chronicle : Chronicle options text pieces (unclosed.offset + 1) failure.log.toList

theorem State.told_start (options : Options) (text : List Char) :
    (State.start (String.ofList text)).Told options text ⟨[], [], text, []⟩ where
  toAt := State.at_start options text
  chronicle := .empty options text

/-! ### What a step reports -/

theorem State.log_watch (s : State) (htext : text = passed ++ c :: next :: rest) :
    (s.watch options passed.getLast? c next).log.toList =
      s.log.toList ++ Entry.shown options text passed.length := by
  cases htrace : options.trace with
  | true => simp [State.watch, State.report, Entry.shown, htrace, htext]
  | false => simp [State.watch, Entry.shown_of_trace_eq_false htrace, htrace]

theorem map_entry_wordPieces {file : String} {offset : Nat}
    (hspan : (Lexeme.kindOf (String.ofList held)).isSpan = false) :
    (wordPieces offset held).map (fun piece => Entry.word (piece.token file text)) =
      (wordPieces offset held).map (Piece.entry file text) := by
  apply List.map_congr_left
  intro piece hpiece
  obtain ⟨-, rfl⟩ := mem_wordPieces.mp hpiece
  rw [Piece.entry_of_isSpan_eq_false hspan]

/-- A finished word is reported after what is shown where it is finished. -/
theorem State.log_finishWord_of_shown {watched : State} {shown : List Entry} (rest : List Char)
    (htext : text = passed ++ rest) (hword : watched.word = wordAfter options.file passed held)
    (hlog : watched.log.toList = s.log.toList ++ shown)
    (hspan : (Lexeme.kindOf (String.ofList held)).isSpan = false) :
    watched.finishWord.log.toList = s.log.toList ++ (shown ++
      (wordPieces passed.length held).map (Piece.entry options.file text)) := by
  rw [State.log_finishWord hword rest, hlog, ← htext, map_entry_wordPieces hspan,
    List.append_assoc]

theorem State.Told.step_blank (h : s.Told options text ⟨passed, [], c :: next :: rest, found⟩)
    (hc : isBlank c = true) :
    ∃ after stage', step options s = .ok after ∧ after.Told options text stage' := by
  have hreader : s.reader = .between passed (c :: next :: rest) := by simpa using h.reader_eq
  have htext : text = passed ++ c :: next :: rest := by simpa using h.text_eq.symm
  obtain ⟨after, hstep, hat⟩ := h.toAt.step_blank hc
  obtain rfl := Except.ok.inj ((Scan.step_blank hreader hc).symm.trans hstep)
  refine ⟨_, _, hstep, hat, ?_⟩
  have hstop := h.chronicle.stop_word [] (by simp) (by simp) (by simp)
  rw [State.log_watch s htext]
  simpa [Stage.offset] using hstop

theorem State.Told.step_letter (h : s.Told options text ⟨passed, held, c :: next :: rest, found⟩)
    (hc : isWordChar c = true) (hends : endsWord c next = false) :
    ∃ after stage', step options s = .ok after ∧ after.Told options text stage' := by
  have hblank := ((isWordChar_iff c).mp hc).1
  have htext : text = passed ++ held ++ c :: next :: rest := by simpa using h.text_eq.symm
  have hletter : step options s = _ :=
    Scan.step_letter h.reader_eq hblank (openedBy_of_isWordChar hc)
  rw [hends, if_neg Bool.false_ne_true] at hletter
  obtain ⟨after, hstep, hat⟩ := h.toAt.step_letter hc hends
  obtain rfl := Except.ok.inj (hletter.symm.trans hstep)
  refine ⟨_, _, hstep, hat, ?_⟩
  have hstop := h.chronicle.stop_word [] (by simp) (by simp) (by simp)
  rw [State.extendWord, State.log_watch s htext]
  simpa [Stage.offset, Nat.add_assoc] using hstop

/-- What ends at a character is reported there, if it is not a word before a comment. -/
theorem State.Told.step_last (h : s.Told options text ⟨passed, held, c :: next :: rest, found⟩)
    (hblank : isBlank c = false) (hopened : openedBy c = none) (hends : endsWord c next = true)
    (hspan : (Lexeme.kindOf (String.ofList (held ++ [c]))).isSpan = false)
    (hnext : isWordChar c = true → next ≠ '~') {after : State}
    (hstep : step options s = .ok after)
    (hat : after.At options text ⟨passed ++ (held ++ [c]), [], next :: rest,
      found ++ wordPieces passed.length (held ++ [c])⟩) :
    after.Told options text ⟨passed ++ (held ++ [c]), [], next :: rest,
      found ++ wordPieces passed.length (held ++ [c])⟩ := by
  have htext : text = passed ++ held ++ c :: next :: rest := by simpa using h.text_eq.symm
  have hletter : step options s = _ := Scan.step_letter h.reader_eq hblank hopened
  rw [hends, if_pos rfl] at hletter
  obtain rfl := Except.ok.inj (hletter.symm.trans hstep)
  have hword := State.word_extendWord (s := s.watch options (passed ++ held).getLast? c next)
    (by simpa using h.reader_eq) (by simpa using h.word_eq) c
  have hlog := State.log_finishWord_of_shown (held ++ c :: next :: rest) (by simpa using htext)
    hword (State.log_watch s htext) hspan
  have hstop := h.chronicle.stop_word (wordPieces passed.length (held ++ [c])) ?_ ?_ ?_
  · refine ⟨hat, ?_⟩
    dsimp only
    rw [hlog]
    simpa [Stage.offset, Nat.add_assoc] using hstop
  · intro piece hpiece
    obtain ⟨-, rfl⟩ := mem_wordPieces.mp hpiece
    simp [lexemePiece, Stage.offset, Nat.add_assoc]
  · intro piece hpiece
    obtain ⟨-, rfl⟩ := mem_wordPieces.mp hpiece
    rw [Piece.reportedAt_eq_last hspan]
    · simp [lexemePiece, Stage.offset, ← Nat.add_assoc]
    · intro hstops
      rw [lexemePiece, stopsInWord_concat] at hstops
      have hsplit : text = (passed ++ (held ++ [c])) ++ next :: rest := by simp [htext]
      have hafter : text[(passed ++ (held ++ [c])).length]? = some next := by
        rw [hsplit, List.getElem?_append_right (Nat.le_refl _), Nat.sub_self]
        rfl
      rw [List.length_append] at hafter
      rw [lexemePiece, hafter]
      simpa using hnext hstops
  · intro piece hpiece
    obtain ⟨-, rfl⟩ := mem_wordPieces.mp hpiece
    exact hspan

theorem State.Told.step_sign (h : s.Told options text ⟨passed, [], c :: next :: rest, found⟩)
    (hblank : isBlank c = false) (hopened : openedBy c = none) (hc : splits c = true) :
    ∃ after stage', step options s = .ok after ∧ after.Told options text stage' := by
  obtain ⟨after, hstep, hat⟩ := h.toAt.step_sign hblank hopened hc
  refine ⟨after, _, hstep, h.step_last hblank hopened (endsWord_of_splits hc) ?_ ?_ hstep hat⟩
  · rw [List.nil_append, ← String.singleton_eq_ofList, isSpan_kindOf_singleton hc]
  · intro hletter
    rw [isWordChar_of_splits hc] at hletter
    cases hletter

theorem State.Told.step_lastLetter
    (h : s.Told options text ⟨passed, held, c :: next :: rest, found⟩)
    (hc : isWordChar c = true) (hends : endsWord c next = true) :
    ∃ after stage', step options s = .ok after ∧ after.Told options text stage' := by
  obtain ⟨after, hstep, hat⟩ := h.toAt.step_lastLetter hc hends
  have hletters : ∀ d ∈ held ++ [c], isWordChar d = true :=
    List.forall_mem_append.mpr ⟨h.letters, by simpa using hc⟩
  refine ⟨after, _, hstep, h.step_last ((isWordChar_iff c).mp hc).1 (openedBy_of_isWordChar hc)
    hends (isSpan_kindOf_letters hletters) ?_ hstep hat⟩
  rintro - rfl
  simp [(endsWord_of_isWordChar hc).mpr] at hends

/-- The word in progress where a span begins, if there is one, is finished there: the span
is a comment. -/
theorem State.Told.forall_wordPieces (h : s.Told options text ⟨passed, held, c :: rest, found⟩)
    {rule : SpanRule} (hc : openedBy c = some rule) :
    (∀ piece ∈ wordPieces passed.length held,
      piece.offset + piece.chars.length ≤ (passed ++ held).length) ∧
    (∀ piece ∈ wordPieces passed.length held, piece.reportedAt text = (passed ++ held).length) ∧
    ∀ piece ∈ wordPieces passed.length held, piece.kind.isSpan = false := by
  have hspan := isSpan_kindOf_letters h.letters
  rw [List.length_append]
  refine ⟨?_, ?_, ?_⟩
  · intro piece hpiece
    obtain ⟨-, rfl⟩ := mem_wordPieces.mp hpiece
    exact Nat.le_refl _
  · intro piece hpiece
    obtain ⟨hheld, rfl⟩ := mem_wordPieces.mp hpiece
    obtain rfl : c = '~' := h.eq_tilde rfl hheld hc
    have hafter : text[passed.length + held.length]? = some '~' := by
      rw [← h.text_eq]
      simp
    exact Piece.reportedAt_eq_next hspan (stopsInWord_of_letters [] hheld h.letters) hafter
  · intro piece hpiece
    obtain ⟨-, rfl⟩ := mem_wordPieces.mp hpiece
    exact hspan

/-- The word in progress is reported where a span begins. -/
theorem State.Told.log_finishWord_watch
    (h : s.Told options text ⟨passed, held, c :: next :: rest, found⟩)
    (htext : text = passed ++ held ++ c :: next :: rest) :
    (s.watch options (passed ++ held).getLast? c next).finishWord.log.toList =
      s.log.toList ++ (Entry.shown options text (passed ++ held).length ++
        (wordPieces passed.length held).map (Piece.entry options.file text)) := by
  have hword : (s.watch options (passed ++ held).getLast? c next).word =
      wordAfter options.file passed held := by
    rw [State.word_watch, h.word_eq]
  exact State.log_finishWord_of_shown (held ++ c :: next :: rest) (by simpa using htext) hword
    (State.log_watch s htext) (isSpan_kindOf_letters h.letters)

/-- A span is reported as the piece that it is. -/
theorem entry_span (file : String) {rule : SpanRule} {body : List Char} {start after : Reader}
    {token : Token} (hstart : start = .between passed rest) (htext : text = passed ++ rest)
    (hkind : token.kind = rule.kind) (hspan : rule.kind.isSpan = true) :
    Span.entry ⟨token, start, body.length, after⟩ =
      Piece.entry file text ⟨passed.length, c :: body ++ [c], rule.kind⟩ := by
  have hplace : Location.ofOffset file text passed.length = start.location file := by
    rw [hstart, Reader.location_between, htext]
  rw [Piece.entry, if_pos hspan, Span.entry, hkind]
  simp [hplace, Reader.location]

theorem State.Told.step_span {rule : SpanRule} {body after : List Char}
    (h : s.Told options text ⟨passed, held, c :: body ++ c :: after, found⟩)
    (hc : openedBy c = some rule) (hbody : c ∉ body) :
    ∃ s' stage', step options s = .ok s' ∧ s'.Told options text stage' := by
  -- the closing delimiter at least comes after the opening one
  obtain ⟨next, rest, hspan⟩ := List.exists_cons_of_ne_nil (List.append_ne_nil_of_right_ne_nil
    body (List.cons_ne_nil c after))
  have h' : s.Told options text ⟨passed, held, c :: next :: rest, found⟩ := by
    rw [← hspan]
    exact h
  have htext : text = passed ++ held ++ c :: next :: rest := by simpa using h'.text_eq.symm
  obtain ⟨s', hstep, hat⟩ := h.toAt.step_span hc hbody
  have htaken : step options s = _ := Scan.step_span h'.reader_eq hc hspan.symm hbody
  obtain rfl := Except.ok.inj (htaken.symm.trans hstep)
  refine ⟨_, _, hstep, hat, ?_⟩
  obtain ⟨hwithin, hreported, hspans⟩ := h.forall_wordPieces hc
  have hstop := h.chronicle.stop_span (wordPieces passed.length held)
    ⟨(passed ++ held).length, c :: body ++ [c], rule.kind⟩ (isSpan_kind hc) rfl (by simp)
    hwithin hreported hspans
  dsimp only [State.takeSpan]
  rw [Array.toList_push, h'.log_finishWord_watch htext,
    entry_span options.file h'.reader_eq htext rfl (isSpan_kind hc)]
  simpa [Stage.offset, Nat.add_assoc] using hstop

/-- Where a span is left open the scan breaks off. -/
theorem State.Told.step_unclosed {rule : SpanRule}
    (h : s.Told options text ⟨passed, held, c :: next :: rest, found⟩)
    (hc : openedBy c = some rule) (hrest : c ∉ next :: rest) :
    ∃ failure, step options s = .error failure ∧
      ∃ pieces unclosed, failure.Told options text pieces unclosed := by
  have htext : text = passed ++ held ++ c :: next :: rest := by simpa using h.text_eq.symm
  refine ⟨_, Scan.step_unclosed h.reader_eq hc hrest, _, _, h.divides_unclosed hc hrest, ?_⟩
  obtain ⟨hwithin, hreported, hspans⟩ := h.forall_wordPieces hc
  have hstop := h.chronicle.stop_word (wordPieces passed.length held)
    (fun piece hpiece => (hwithin piece hpiece).trans (Nat.le_succ _)) hreported hspans
  dsimp only
  rw [h.log_finishWord_watch htext]
  exact hstop

/-! ### The whole scan -/

theorem State.Told.step (h : s.Told options text stage) (hmore : 1 < stage.ahead.length) :
    (∃ s' stage', Scan.step options s = .ok s' ∧ s'.Told options text stage') ∨
      ∃ failure, Scan.step options s = .error failure ∧
        ∃ pieces unclosed, failure.Told options text pieces unclosed := by
  cases h.toAt.turn hmore with
  | blank hc => exact .inl (h.step_blank hc)
  | sign hblank hopened hc => exact .inl (h.step_sign hblank hopened hc)
  | letter hc hends => exact .inl (h.step_letter hc hends)
  | lastLetter hc hends => exact .inl (h.step_lastLetter hc hends)
  | span hc hbody => exact .inl (h.step_span hc hbody)
  | unclosed hc hrest => exact .inr (h.step_unclosed hc hrest)

theorem State.Told.steps (h : s.Told options text stage) :
    (∃ s' stage', Scan.steps options s = .ok s' ∧ s'.Told options text stage' ∧
        stage'.ahead.length ≤ 1) ∨
      ∃ failure, Scan.steps options s = .error failure ∧
        ∃ pieces unclosed, failure.Told options text pieces unclosed :=
  steps_of_step (fun _ _ h => h.toAt) (fun _ _ h => h.step) h

/-- The scan of a text that ends in a blank has passed all other characters at its end. -/
theorem State.At.offset_eq (h : s.At options text stage) (hdone : stage.ahead.length ≤ 1)
    (hlast : text.getLast? = some c) (hc : isBlank c = true) :
    stage.offset = text.length - 1 := by
  have htext := h.text_eq
  rw [← List.append_assoc] at htext
  match hahead : stage.ahead, hdone with
  | [_], _ =>
      rw [← htext, hahead, List.length_append, Stage.offset]
      rfl
  | [], _ =>
      rw [hahead, h.held_eq_nil_of_ahead hahead, List.append_nil, List.append_nil] at htext
      have hopened := h.spanned hahead c (by rw [htext, hlast]; rfl)
      simp [openedBy_of_isBlank hc] at hopened

/-- What an outcome reports is a chronicle of a text up to an offset and then some closing
entries. -/
def Outcome.Recorded (options : Options) (text : List Char) (found : List Piece) (limit : Nat)
    (closing : List Entry) (outcome : Outcome) : Prop :=
  ∃ log, outcome.log.toList = log ++ closing ∧ Chronicle options text found limit log

/-- A text that ends in a blank and leaves nothing open is recorded to its end. -/
theorem run_recorded_of_closed (h : Divides 0 text ⟨found, none⟩)
    (hlast : text.getLast? = some c) (hc : isBlank c = true) (options : Options) :
    (run options (String.ofList text)).Recorded options text found (text.length - 1)
      [.total options.file found.length] := by
  rcases (State.told_start options text).steps with
    ⟨s, stage, hsteps, hs, hdone⟩ | ⟨failure, hsteps, pieces, unclosed, hfailure⟩
  · cases ((hs.ends hdone).divides_of_isBlank hlast hc).unique h
    have hsize : s.tokens.size = stage.found.length := by
      rw [TokenSeq.size_eq_length, hs.tokens_eq, List.length_map]
    refine ⟨s.log.toList, ?_, hs.offset_eq hdone hlast hc ▸ hs.chronicle⟩
    rw [run, hsteps, ← hsize, ← Array.toList_push]
  · cases hfailure.divides.unique h

/-- A text that leaves a span open is recorded up to the delimiter. -/
theorem run_recorded_of_unclosed {unclosed : Unclosed}
    (h : Divides 0 text ⟨found, some unclosed⟩) (hlast : text.getLast? = some c)
    (hc : isBlank c = true) (options : Options) :
    (run options (String.ofList text)).Recorded options text found (unclosed.offset + 1) [] := by
  rcases (State.told_start options text).steps with
    ⟨s, stage, hsteps, hs, hdone⟩ | ⟨failure, hsteps, pieces, _, hfailure⟩
  · cases ((hs.ends hdone).divides_of_isBlank hlast hc).unique h
  · cases hfailure.divides.unique h
    refine ⟨failure.log.toList, ?_, hfailure.chronicle⟩
    rw [run, hsteps, List.append_nil]

end Tilde.Scan
