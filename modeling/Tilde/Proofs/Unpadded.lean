import Tilde.Proofs.Outcomes

/-!
Scans of texts that nobody has padded. A source that was built with a padded text may
be given any other text afterwards, and its scan then differs from lexing that text
in no more than the last character: a scan needs a character after the one that it
reads. Where the text ends in a blank or in a span there is no difference. Where it
ends in a word or in punctuation the last token is missing. Where it ends in a
delimiter that opens a span, the delimiter goes unseen and there is no fault.
-/

namespace Tilde

open Munch Alphabet SpanRule

/-- A fault without the line that it is shown on. -/
def Fault.bare : Fault → Fault
  | .unterminated form delimiter location _ => .unterminated form delimiter location none
  | fault => fault

/-- A fault that is located at the last character of a text. -/
def Fault.AtLast (file : String) (text : String) (fault : Fault) : Prop :=
  fault.location = some (Location.ofOffset file text.toList (text.length - 1))

/-- One sequence has a token more than another at its end. -/
def TokenSeq.Extends (longer shorter : TokenSeq) : Prop :=
  ∃ last, longer = shorter.push last

/-- A source with another text in place of its own, which need not be padded. -/
def Source.withText (source : Source) (text : String) : Source :=
  { source with text := text }

/-- What lexing a text gives, with places in the file of a source. -/
def Source.lexText (source : Source) (text : String) : Except Fault TokenSeq :=
  lex text { file := source.options.file }

section

variable {source : Source} {text : String} {pieces : List Piece} {unclosed : Unclosed}

theorem Source.tokens_withText (source : Source) (text : String) :
    (source.withText text).tokens =
      (Scan.run source.options (String.ofList text.toList)).result := by
  rw [String.ofList_toList]
  rfl

theorem Source.paddingSuffices_lexText (source : Source) :
    Options.paddingSuffices ({ file := source.options.file } : Options).padding = true :=
  Options.paddingSuffices_default

/-- The fault of an open span is at the last character exactly if its delimiter is. -/
theorem Munch.Unclosed.atLast_fault_iff (file : String) (padding : List Char)
    (h : unclosed.offset < text.toList.length) :
    (unclosed.fault file text.toList padding).AtLast file text ↔
      unclosed.offset + 1 = text.toList.length := by
  have hinj := Location.ofOffset_inj file h.le (Nat.sub_le text.toList.length 1)
  rw [Fault.AtLast, ← String.length_toList]
  simp only [Unclosed.fault, Fault.location, Option.some.injEq, hinj]
  omega

/-- The tokens of a text do not change when more is put behind it, and the last of them
can be left out. -/
theorem Munch.Tiles.extends_token {text : List Char} {found : List Piece} {last : Piece}
    (h : Tiles 0 text (found ++ [last])) (file : String) (more : List Char) :
    TokenSeq.Extends (.ofList ((found ++ [last]).map (Piece.token file text)))
      (.ofList (found.map (Piece.token file (text ++ more)))) := by
  have htokens := h.token_append file more
  simp only [List.map_append] at htokens
  refine ⟨last.token file text, TokenSeq.toList_inj.mp ?_⟩
  rw [TokenSeq.toList_push, TokenSeq.toList_ofList, TokenSeq.toList_ofList,
    (List.append_inj' htokens rfl).1, List.map_append, List.map_singleton]

/-- A text that is empty or ends in a blank is scanned as if it were padded. -/
theorem Source.tokens_of_blank (hblank : ∀ c ∈ text.toList.getLast?, isBlank c = true) :
    (source.withText text).tokens.mapError Fault.bare =
      (source.lexText text).mapError Fault.bare := by
  have hpadding := source.paddingSuffices_lexText
  have hdivides := divides_divideFrom 0 text.toList
  rw [tokens_withText, lexText]
  rcases hdivision : divideFrom 0 text.toList with ⟨pieces, _ | unclosed⟩
  · rw [hdivision] at hdivides
    rw [Scan.run_of_closed hdivides fun c hc => .inl (hblank c hc),
      lex_of_closed hpadding hdivides]
  · rw [hdivision] at hdivides
    have hinside := hdivides.offset_add_one_lt hblank rfl
    rw [Scan.run_of_unclosed hdivides hinside, lex_of_unclosed hpadding hdivides]
    rfl

/-- The delimiter of an open span goes unread at the end of a text, and there is no
fault; but a tilde there also leaves a word right before it unfinished. -/
theorem Source.tokens_of_unread (h : Divides 0 text.toList ⟨pieces, some unclosed⟩)
    (hend : unclosed.offset + 1 = text.toList.length) :
    ∃ before c tokens found, text = before ++ String.singleton c ∧ (c = '~' ∨ c = '"') ∧
      source.lexText before = .ok tokens ∧ (source.withText text).tokens = .ok found ∧
      if c = '~' ∧ stopsInWord before.toList = true then tokens.Extends found
      else found = tokens := by
  obtain ⟨front, c, _, found, htext, hc, hfront, hrun, hmissing⟩ :=
    Scan.run_of_unread h hend source.options
  have hlex : source.lexText (String.ofList front) =
      .ok (.ofList (pieces.map (Piece.token source.options.file front))) := by
    rw [← String.toList_ofList (l := front)] at hfront
    rw [lexText, lex_of_closed source.paddingSuffices_lexText hfront, String.toList_ofList]
  refine ⟨String.ofList front, c, _, _, ?_, (openedBy_eq_some_iff.mp hc).imp And.left And.left,
    hlex, source.tokens_withText text ▸ hrun, ?_⟩
  · rw [← String.toList_inj, htext]
    simp
  · rw [String.toList_ofList, htext]
    split at hmissing
    · rename_i hword
      obtain ⟨last, rfl⟩ := hmissing
      rw [if_pos hword]
      exact (hfront.tiles rfl).extends_token source.options.file [c]
    · rename_i hword
      subst hmissing
      rw [if_neg hword, (hfront.tiles rfl).token_append]

end

/-- The scan of any text, padded or not, compared with lexing the text. -/
theorem tokens_withText_eq (source : Source) (text : String) :
    ((∀ c ∈ text.toList.getLast?, isBlank c = true) →
      (source.withText text).tokens.mapError Fault.bare =
        (source.lexText text).mapError Fault.bare) ∧
    (∀ tokens, source.lexText text = .ok tokens →
      (text.toList.getLast? = some '~' ∨ text.toList.getLast? = some '"' →
        (source.withText text).tokens = .ok tokens) ∧
      ∀ c, text.toList.getLast? = some c → isBlank c = false → c ≠ '~' → c ≠ '"' →
        ∃ found, (source.withText text).tokens = .ok found ∧ tokens.Extends found) ∧
    ∀ fault, source.lexText text = .error fault →
      (¬fault.AtLast source.options.file text →
        ∃ fault', (source.withText text).tokens = .error fault' ∧ fault'.bare = fault.bare) ∧
      (fault.AtLast source.options.file text →
        ∃ before c tokens found, text = before ++ String.singleton c ∧ (c = '~' ∨ c = '"') ∧
          source.lexText before = .ok tokens ∧ (source.withText text).tokens = .ok found ∧
          if c = '~' ∧ stopsInWord before.toList = true then tokens.Extends found
          else found = tokens) := by
  have hpadding := source.paddingSuffices_lexText
  refine ⟨Source.tokens_of_blank, ?_, ?_⟩
  · intro tokens hlex
    obtain ⟨pieces, hdivides, rfl⟩ := (lex_eq_ok_iff hpadding).mp hlex
    rw [Source.tokens_withText]
    constructor
    · intro hlast
      apply Scan.run_of_closed hdivides
      intro c hc
      rcases hlast with hlast | hlast
      · cases hlast.symm.trans hc
        exact .inr rfl
      · cases hlast.symm.trans hc
        exact .inr rfl
    · intro c hlast hblank htilde hquote
      obtain ⟨found, last, rfl, hrun⟩ := Scan.run_of_short hdivides hlast hblank
        ((openedBy_eq_none_iff c).mpr ⟨htilde, hquote⟩) source.options
      refine ⟨_, hrun, ?_⟩
      simpa using (hdivides.tiles rfl).extends_token source.options.file []
  · intro fault hlex
    obtain ⟨pieces, unclosed, hdivides, rfl⟩ := (lex_eq_error_iff hpadding).mp hlex
    have hwithin := hdivides.offset_lt rfl
    rw [Unclosed.atLast_fault_iff _ _ hwithin]
    constructor
    · intro hinside
      rw [Source.tokens_withText]
      exact ⟨_, Scan.run_of_unclosed hdivides (by omega) source.options, rfl⟩
    · exact Source.tokens_of_unread hdivides

/-- One text for each way to end: in a blank, in a comment, in a word, inside a string
and in a tilde right after a word. -/
theorem tokens_withText_eq_everyEnd :
    let source : Source := ⟨"x  ", { file := "m.tl" }⟩
    (source.withText "do \"\n").tokens.mapError Fault.bare =
        (source.lexText "do \"\n").mapError Fault.bare ∧
      (source.withText "do~x~").tokens =
        .ok (.ofList [⟨"do", .doWord, some ⟨"m.tl", 1, 1⟩⟩,
          ⟨"~x~", .comment, some ⟨"m.tl", 1, 3⟩⟩]) ∧
      (∃ found, (source.withText "~~do").tokens = .ok found ∧
        TokenSeq.Extends (.ofList [⟨"~~", .comment, some ⟨"m.tl", 1, 1⟩⟩,
          ⟨"do", .doWord, some ⟨"m.tl", 1, 3⟩⟩]) found) ∧
      (∃ fault, (source.withText "do\n\"x").tokens = .error fault ∧
        fault.bare = .unterminated .stringLiteral "\"" (some ⟨"m.tl", 2, 1⟩) none) ∧
      ∃ before c tokens found, "do~" = before ++ String.singleton c ∧ (c = '~' ∨ c = '"') ∧
        source.lexText before = .ok tokens ∧ (source.withText "do~").tokens = .ok found ∧
        if c = '~' ∧ stopsInWord before.toList = true then tokens.Extends found
        else found = tokens := by
  intro source
  have hblank : ∀ c ∈ "do \"\n".toList.getLast?, isBlank c = true := by
    intro c hc
    obtain rfl : '\n' = c := Option.some.inj hc
    decide +kernel
  have hcomment : source.lexText "do~x~" = .ok (.ofList
      [⟨"do", .doWord, some ⟨"m.tl", 1, 1⟩⟩, ⟨"~x~", .comment, some ⟨"m.tl", 1, 3⟩⟩]) := by
    decide +kernel
  have hword : source.lexText "~~do" = .ok (.ofList
      [⟨"~~", .comment, some ⟨"m.tl", 1, 1⟩⟩, ⟨"do", .doWord, some ⟨"m.tl", 1, 3⟩⟩]) := by
    decide +kernel
  have hinside : source.lexText "do\n\"x" = .error
      (.unterminated .stringLiteral "\"" (some ⟨"m.tl", 2, 1⟩) (some "\"x  ")) := by
    decide +kernel
  have hunread : source.lexText "do~" = .error
      (.unterminated .comment "~" (some ⟨"m.tl", 1, 3⟩) (some "do~  ")) := by
    decide +kernel
  have heq := tokens_withText_eq source
  refine ⟨(heq _).1 hblank, ((heq _).2.1 _ hcomment).1 (.inl rfl),
    ((heq _).2.1 _ hword).2 'o' rfl (by decide +kernel) (by decide) (by decide),
    ((heq _).2.2 _ hinside).1 ?_, ((heq _).2.2 _ hunread).2 ?_⟩
  · rw [Fault.AtLast]
    decide +kernel
  · rw [Fault.AtLast]
    decide +kernel

end Tilde
