import Tilde.Proofs.Joining
import Tilde.Proofs.Stages

/-!
How a scan ends. The last character of a text is looked at but never read, unless it
closes a span. So a scan has found all pieces of its text when it ends if the text is
empty or ends in a blank or in a span, and lacks the last one if the text ends in a
letter or in punctuation. A delimiter at the end that would open a span goes unread.
What comes before it has been found then, except that a tilde does not end the word
in progress, which is lost with it.
-/

namespace Tilde.Scan

open Alphabet SpanRule Munch

/-- The pieces that a scan has found when it comes to the end of its text. -/
inductive Ends (text : List Char) (found : List Piece) : Prop
  | complete (hlast : ∀ c ∈ text.getLast?, isBlank c = true ∨ (openedBy c).isSome = true)
      (hdivides : Divides 0 text ⟨found, none⟩)
  /-- The last piece goes up to a letter or punctuation at the end. -/
  | short {c : Char} {last : Piece} (hlast : text.getLast? = some c)
      (hblank : isBlank c = false) (hopened : openedBy c = none)
      (hdivides : Divides 0 text ⟨found ++ [last], none⟩)
  /-- A span would be opened at the end. -/
  | unread {front : List Char} {c : Char} {rule : SpanRule} (htext : text = front ++ [c])
      (hc : openedBy c = some rule) (hword : ¬(c = '~' ∧ stopsInWord front = true))
      (hdivides : Divides 0 front ⟨found, none⟩)
  /-- A comment would be opened at the end, right after a word. -/
  | interrupted {front : List Char} {last : Piece} (htext : text = front ++ ['~'])
      (hword : stopsInWord front = true) (hdivides : Divides 0 front ⟨found ++ [last], none⟩)

variable {options : Options} {text : List Char} {s : State}

/-- Nothing is left ahead after a span, or before the first character. -/
theorem State.At.ends_of_nil {passed held : List Char} {found : List Piece}
    (h : s.At options text ⟨passed, held, [], found⟩) : Ends text found := by
  obtain rfl : held = [] := h.held_eq_nil_of_ahead rfl
  obtain rfl : passed = text := by simpa using h.text_eq
  apply Ends.complete
  · exact fun c hc => .inr (h.spanned rfl c hc)
  · simpa [Division.prepend] using h.divides _ .done

/-- A delimiter that is left ahead leaves its span open. -/
theorem State.At.ends_of_openedBy {passed held : List Char} {c : Char} {found : List Piece}
    (h : s.At options text ⟨passed, held, [c], found⟩) {rule : SpanRule}
    (hc : openedBy c = some rule) : Ends text found := by
  have htext : text = (passed ++ held) ++ [c] := by
    rw [List.append_assoc]
    exact h.text_eq.symm
  have hfront : Divides 0 (passed ++ held) ⟨found ++ wordPieces passed.length held, none⟩ := by
    have hopen := h.divides_unclosed hc List.not_mem_nil
    rw [htext, ← Nat.zero_add (passed ++ held).length] at hopen
    exact hopen.before_unclosed
  by_cases hheld : held = []
  · subst hheld
    rw [List.append_nil] at htext hfront
    apply Ends.unread htext hc
    · rintro ⟨rfl, hstops⟩
      exact h.settled rfl hstops rfl
    · simpa [wordPieces] using hfront
  · obtain rfl : c = '~' := h.eq_tilde rfl hheld hc
    rw [wordPieces, if_neg hheld] at hfront
    exact .interrupted htext (stopsInWord_of_letters passed hheld h.letters) hfront

/-- A letter that is left ahead is the last of its word, and punctuation a piece by
itself. -/
theorem State.At.ends_of_openedBy_eq_none {passed held : List Char} {c : Char}
    {found : List Piece} (h : s.At options text ⟨passed, held, [c], found⟩)
    (hc : openedBy c = none) : Ends text found := by
  have hlast : text.getLast? = some c := by
    rw [← h.text_eq, ← List.append_assoc, List.getLast?_concat]
  have htilde : c ≠ '~' := ((openedBy_eq_none_iff c).mp hc).1
  cases hblank : isBlank c with
  | true =>
      obtain rfl : held = [] := h.held_eq_nil rfl (isWordChar_of_isBlank hblank) htilde
      apply Ends.complete
      · rintro d hd
        obtain rfl : c = d := Option.some.inj (hlast.symm.trans hd)
        exact .inl hblank
      · simpa [Division.prepend] using h.divides _ (.blank hblank .done)
  | false =>
      cases hsplits : splits c with
      | true =>
          obtain rfl : held = [] := h.held_eq_nil rfl (isWordChar_of_splits hsplits) htilde
          have hdivides := h.divides _ (.single hc hsplits .done)
          exact .short hlast hblank hc hdivides
      | false =>
          have hletters : ∀ d ∈ held ++ [c], isWordChar d = true :=
            List.forall_mem_append.mpr ⟨h.letters,
              by simpa using isWordChar_of_openedBy_eq_none hblank hc hsplits⟩
          have hword : Divides passed.length (held ++ [c] ++ [])
              (Division.cons (lexemePiece passed.length (held ++ [c])) ⟨[], none⟩) :=
            .word (List.concat_ne_nil c held) hletters rfl .done
          rw [List.append_nil] at hword
          exact .short hlast hblank hc (h.divides _ hword)

theorem State.At.ends {stage : Stage} (h : s.At options text stage)
    (hdone : stage.ahead.length ≤ 1) : Ends text stage.found := by
  obtain ⟨passed, held, ahead, found⟩ := stage
  match ahead, hdone with
  | [], _ => exact h.ends_of_nil
  | [c], _ =>
      cases hc : openedBy c with
      | some rule => exact h.ends_of_openedBy hc
      | none => exact h.ends_of_openedBy_eq_none hc

/-- A blank at the end of a text leaves nothing to be found. -/
theorem Ends.divides_of_isBlank {found : List Piece} (h : Ends text found) {c : Char}
    (hlast : text.getLast? = some c) (hc : isBlank c = true) :
    Divides 0 text ⟨found, none⟩ := by
  cases h with
  | complete _ hdivides => exact hdivides
  | short hlast' hblank _ _ =>
      cases hlast.symm.trans hlast'
      simp [hc] at hblank
  | unread htext hopened _ _ =>
      rw [htext, List.getLast?_concat] at hlast
      cases hlast
      simp [isBlank_of_openedBy hopened] at hc
  | interrupted htext _ _ =>
      rw [htext, List.getLast?_concat] at hlast
      cases hlast
      simp [isBlank_iff] at hc

/-- A scan gives the tokens of the pieces that it has found at the end, or it breaks
off at an open span that is not just a delimiter at the end. -/
theorem run_ends (options : Options) (text : List Char) :
    (∃ found, Ends text found ∧ (run options (String.ofList text)).result =
        .ok (.ofList (found.map (Piece.token options.file text)))) ∨
      ∃ pieces unclosed, Divides 0 text ⟨pieces, some unclosed⟩ ∧
        unclosed.offset + 1 < text.length ∧
        (run options (String.ofList text)).result =
          .error (unclosed.fault options.file text []) := by
  rcases (State.at_start options text).steps with
    ⟨s, stage, hsteps, hs, hdone⟩ | ⟨failure, hsteps, pieces, unclosed, hdivides, hinside, hfault⟩
  · refine .inl ⟨stage.found, hs.ends hdone, ?_⟩
    rw [run, hsteps]
    refine congrArg Except.ok (TokenSeq.toList_inj.mp ?_)
    rw [hs.tokens_eq, TokenSeq.toList_ofList]
  · refine .inr ⟨pieces, unclosed, hdivides, hinside, ?_⟩
    rw [run, hsteps, ← hfault]

/-! ### The outcome of a scan by the division of its text -/

variable {pieces : List Piece} {unclosed : Unclosed}

/-- A delimiter at the end of a text leaves its span open. -/
theorem divides_concat {front : List Char} {c : Char} {rule : SpanRule}
    (hfront : Divides 0 front ⟨pieces, none⟩) (hc : openedBy c = some rule) :
    Divides 0 (front ++ [c]) ⟨pieces, some ⟨front.length, c⟩⟩ := by
  simpa using hfront.append_unclosed hc List.not_mem_nil

/-- A text in which nothing is left open is scanned to the end if it is empty or ends in
a blank or in a span, and the tokens are its pieces. -/
theorem run_of_closed (h : Divides 0 text ⟨pieces, none⟩)
    (hlast : ∀ c ∈ text.getLast?, isBlank c = true ∨ (openedBy c).isSome = true)
    (options : Options) :
    (run options (String.ofList text)).result =
      .ok (.ofList (pieces.map (Piece.token options.file text))) := by
  rcases run_ends options text with ⟨found, hends, hrun⟩ | ⟨_, _, hdivides, -, -⟩
  · cases hends with
    | complete _ hdivides =>
        cases hdivides.unique h
        exact hrun
    | short hc hblank hopened _ =>
        have hread := hlast _ hc
        simp [hblank, hopened] at hread
    | unread htext hc _ hfront =>
        cases (htext ▸ h).unique (divides_concat hfront hc)
    | interrupted htext _ hfront =>
        cases (htext ▸ h).unique (divides_concat hfront rfl)
  · cases hdivides.unique h

/-- A scan misses the last piece of a text that ends in a letter or in punctuation. -/
theorem run_of_short (h : Divides 0 text ⟨pieces, none⟩) {c : Char}
    (hlast : text.getLast? = some c) (hblank : isBlank c = false) (hopened : openedBy c = none)
    (options : Options) :
    ∃ found last, pieces = found ++ [last] ∧
      (run options (String.ofList text)).result =
        .ok (.ofList (found.map (Piece.token options.file text))) := by
  rcases run_ends options text with ⟨found, hends, hrun⟩ | ⟨_, _, hdivides, -, -⟩
  · cases hends with
    | complete hread _ =>
        have hc := hread c hlast
        simp [hblank, hopened] at hc
    | @short _ last _ _ _ hdivides =>
        cases hdivides.unique h
        exact ⟨found, last, rfl, hrun⟩
    | unread htext hc _ hfront =>
        cases (htext ▸ h).unique (divides_concat hfront hc)
    | interrupted htext _ hfront =>
        cases (htext ▸ h).unique (divides_concat hfront rfl)
  · cases hdivides.unique h

/-- A scan breaks off where a span is left open, if any character comes after its
delimiter. -/
theorem run_of_unclosed (h : Divides 0 text ⟨pieces, some unclosed⟩)
    (hinside : unclosed.offset + 1 < text.length) (options : Options) :
    (run options (String.ofList text)).result =
      .error (unclosed.fault options.file text []) := by
  rcases run_ends options text with ⟨_, hends, -⟩ | ⟨_, _, hdivides, -, hrun⟩
  · cases hends with
    | complete _ hdivides => cases hdivides.unique h
    | short _ _ _ hdivides => cases hdivides.unique h
    | unread htext hc _ hfront =>
        subst htext
        cases h.unique (divides_concat hfront hc)
        simp at hinside
    | interrupted htext _ hfront =>
        subst htext
        cases h.unique (divides_concat hfront rfl)
        simp at hinside
  · cases hdivides.unique h
    exact hrun

/-- A scan does not see a delimiter at the end that opens a span. It finds all pieces
before it, but for a word right before a tilde. -/
theorem run_of_unread (h : Divides 0 text ⟨pieces, some unclosed⟩)
    (hend : unclosed.offset + 1 = text.length) (options : Options) :
    ∃ front c rule found, text = front ++ [c] ∧ openedBy c = some rule ∧
      Divides 0 front ⟨pieces, none⟩ ∧
      (run options (String.ofList text)).result =
        .ok (.ofList (found.map (Piece.token options.file text))) ∧
      if c = '~' ∧ stopsInWord front = true then ∃ last, pieces = found ++ [last]
      else pieces = found := by
  rcases run_ends options text with ⟨found, hends, hrun⟩ | ⟨_, _, hdivides, hinside, -⟩
  · cases hends with
    | complete _ hdivides => cases hdivides.unique h
    | short _ _ _ hdivides => cases hdivides.unique h
    | @unread front c _ htext hc hword hfront =>
        subst htext
        cases h.unique (divides_concat hfront hc)
        refine ⟨front, c, _, _, rfl, hc, hfront, hrun, ?_⟩
        rw [if_neg hword]
    | @interrupted front last htext hword hfront =>
        subst htext
        cases h.unique (divides_concat hfront rfl)
        refine ⟨front, '~', _, _, rfl, rfl, hfront, hrun, ?_⟩
        rw [if_pos ⟨rfl, hword⟩]
        exact ⟨last, rfl⟩
  · cases hdivides.unique h
    omega

end Tilde.Scan
