import Mathlib.Data.List.Basic
import Tilde.Proofs.Unpadded

/-!
The padding of a text and what it does to the outcome of lexing. A padding is asked for
no more than that the padded text ends in two blanks, and so it may hold anything else
if it was not checked when the options were built. What it holds is text then, and is
lexed like the rest. Blanks that it holds are never seen again, except on the line that
a fault is shown on, which is that of the padded text.
-/

namespace Tilde

open Munch Alphabet

/-- The last two characters of a text are blanks. -/
def EndsInBlanks (text : String) : Prop :=
  ∃ front c d, text.toList = front ++ [c, d] ∧ isBlank c = true ∧ isBlank d = true

/-- Options with nothing but the file name of others. -/
def Options.plain (options : Options) : Options where
  file := options.file

/-- Two outcomes come to the same: the same tokens at the same places, or the same fault
but for the line that it is shown on. -/
def SameOutcome (first second : Except Fault TokenSeq) : Prop :=
  first.mapError Fault.bare = second.mapError Fault.bare

theorem Options.paddingSuffices_plain (options : Options) :
    Options.paddingSuffices options.plain.padding = true :=
  Options.paddingSuffices_default

/-! ### Whether a padding is enough -/

theorem endsInPadding_iff (text : String) :
    endsInPadding text = true ↔ EndsInBlanks text := by
  rw [endsInPadding, Bool.and_eq_true, beq_iff_eq, ← String.length_toList, Options.requiredBlanks,
    List.all_eq_true, EndsInBlanks]
  constructor
  · rintro ⟨htwo, hblanks⟩
    obtain ⟨c, d, htail⟩ := List.length_eq_two.mp htwo
    have hsplit := List.take_append_drop (text.toList.length - 2) text.toList
    rw [htail] at hsplit hblanks
    exact ⟨_, c, d, hsplit.symm, hblanks c (by simp), hblanks d (by simp)⟩
  · rintro ⟨front, c, d, htext, hc, hd⟩
    rw [htext]
    simp [hc, hd]

theorem EndsInBlanks.isBlank_of_mem_getLast? {text : String} (h : EndsInBlanks text) :
    ∀ c ∈ text.toList.getLast?, isBlank c = true := by
  obtain ⟨front, c, d, htext, -, hd⟩ := h
  have hlast : text.toList.getLast? = some d := by simp [htext]
  rintro e he
  rw [hlast] at he
  rwa [← Option.some.inj he]

theorem EndsInBlanks.of_paddingSuffices {padding : String}
    (hpadding : Options.paddingSuffices padding = true) (text : String) :
    EndsInBlanks (text ++ padding) :=
  (endsInPadding_iff _).mp (endsInPadding_pad hpadding text)

/-- Without the blanks it needs at its end a text is refused. -/
theorem lex_of_not_endsInBlanks {options : Options} {text : String}
    (h : ¬EndsInBlanks (text ++ options.padding)) :
    lex text options = .error (.unpadded Options.requiredBlanks) := by
  rw [← endsInPadding_iff, Bool.not_eq_true] at h
  rw [lex, lexLogged, Source.ofText, pad, h, if_neg Bool.false_ne_true]

theorem lex_of_endsInBlanks {options : Options} {text : String}
    (h : EndsInBlanks (text ++ options.padding)) :
    lex text options = (Source.mk (text ++ options.padding) options).tokens := by
  rw [← endsInPadding_iff] at h
  rw [lex, lexLogged, Source.ofText, pad, if_pos h]
  rfl

/-! ### What a padding does to the outcome -/

/-- A padding is lexed as part of the text. -/
theorem sameOutcome_append {options : Options} {text : String}
    (h : EndsInBlanks (text ++ options.padding)) :
    SameOutcome (lex text options) (lex (text ++ options.padding) options.plain) := by
  rw [lex_of_endsInBlanks h]
  exact @Source.tokens_of_blank ⟨text ++ options.padding, options⟩ _ h.isBlank_of_mem_getLast?

/-- Blanks behind a text are not seen. -/
theorem sameOutcome_append_blanks {options : Options}
    (hpadding : Options.paddingSuffices options.padding = true) (text : String)
    {blanks : String} (hblanks : ∀ c ∈ blanks.toList, isBlank c = true) :
    SameOutcome (lex (text ++ blanks) options) (lex text options) := by
  have hdivides := divides_divideFrom 0 text.toList
  have hpadded := hdivides.append_blanks hblanks
  rw [← String.toList_append] at hpadded
  rcases hdivision : divideFrom 0 text.toList with ⟨pieces, _ | unclosed⟩
  · rw [hdivision] at hdivides hpadded
    rw [lex_of_closed hpadding hpadded, lex_of_closed hpadding hdivides, String.toList_append,
      (hdivides.tiles rfl).token_append]
    rfl
  · rw [hdivision] at hdivides hpadded
    have hwithin := (hdivides.offset_lt rfl).le
    rw [lex_of_unclosed hpadding hpadded, lex_of_unclosed hpadding hdivides, String.toList_append,
      SameOutcome, Except.mapError, Except.mapError, Unclosed.fault, Unclosed.fault,
      Location.ofOffset_append_left hwithin]
    rfl

/-- A text with enough padding is not refused, whatever else is wrong with it. -/
theorem SameOutcome.ne_unpadded {options : Options} {text : String}
    (hpadding : Options.paddingSuffices options.padding = true)
    {outcome : Except Fault TokenSeq} (h : SameOutcome outcome (lex text options))
    (required : Int) : outcome ≠ .error (.unpadded required) := by
  rintro rfl
  rw [SameOutcome, Except.mapError] at h
  cases hlex : lex text options with
  | ok tokens =>
      rw [hlex] at h
      cases h
  | error fault =>
      obtain ⟨pieces, unclosed, -, rfl⟩ := (lex_eq_error_iff hpadding).mp hlex
      rw [hlex] at h
      cases h

theorem exists_unpadded_iff (options : Options) (text : String) :
    (∃ required, lex text options = .error (.unpadded required)) ↔
      ¬EndsInBlanks (text ++ options.padding) := by
  constructor
  · rintro ⟨required, hlex⟩ hends
    exact (sameOutcome_append hends).ne_unpadded options.paddingSuffices_plain required hlex
  · intro hends
    exact ⟨_, lex_of_not_endsInBlanks hends⟩

/-- All paddings of blanks that are enough come to the same. -/
theorem sameOutcome_plain {options : Options} {text : String}
    (hends : EndsInBlanks (text ++ options.padding))
    (hblanks : ∀ c ∈ options.padding.toList, isBlank c = true) :
    SameOutcome (lex text options) (lex text options.plain) :=
  (sameOutcome_append hends).trans
    (sameOutcome_append_blanks options.paddingSuffices_plain text hblanks)

theorem sameOutcome_plain_of_checked {options : Options}
    (haccepted : options.checked = .ok options) (text : String) :
    SameOutcome (lex text options) (lex text options.plain) := by
  have hpadding := (Options.checked_eq_ok_iff.mp haccepted).1
  exact sameOutcome_plain (.of_paddingSuffices hpadding text) (paddingSuffices_iff.mp hpadding).2

/-- Nothing depends on the padding of a text but whether it is refused: it is refused if
it does not end in blanks when it is padded, and else it is lexed together with its
padding, or by itself if the padding is blank. A padding that can be built into options
is always enough, and which it is makes no difference. -/
theorem lex_padding_irrelevant (options : Options) (text : String) :
    ((∃ required, lex text options = .error (.unpadded required)) ↔
      ¬EndsInBlanks (text ++ options.padding)) ∧
    (EndsInBlanks (text ++ options.padding) →
      SameOutcome (lex text options) (lex (text ++ options.padding) options.plain) ∧
      ((∀ c ∈ options.padding.toList, isBlank c = true) →
        SameOutcome (lex text options) (lex text options.plain))) ∧
    (options.checked = .ok options →
      (∀ required, lex text options ≠ .error (.unpadded required)) ∧
      ∀ other : Options, other.checked = .ok other → other.file = options.file →
        SameOutcome (lex text options) (lex text other)) := by
  refine ⟨exists_unpadded_iff options text, fun hends => ⟨sameOutcome_append hends, ?_⟩, ?_⟩
  · exact sameOutcome_plain hends
  · intro haccepted
    have hsame := sameOutcome_plain_of_checked haccepted text
    refine ⟨hsame.ne_unpadded options.paddingSuffices_plain, ?_⟩
    intro other hother hfile
    have hplain : other.plain = options.plain := by rw [Options.plain, hfile, Options.plain]
    have hsame' := sameOutcome_plain_of_checked hother text
    rw [hplain] at hsame'
    exact hsame.trans hsame'.symm

/-- One blank too few, a padding that closes a comment of the text and was not checked, a
single blank behind a text that has another, and a fault under two paddings that were. -/
theorem lex_padding_irrelevant_four :
    (¬EndsInBlanks ("do" ++ " ") ∧
      ∃ required, lex "do" { file := "m.tl", padding := " " } = .error (.unpadded required)) ∧
    (EndsInBlanks ("do~y" ++ "~\n\t") ∧
      SameOutcome (lex "do~y" { file := "m.tl", padding := "~\n\t" })
        (lex "do~y~\n\t" { file := "m.tl" })) ∧
    (EndsInBlanks ("a\n" ++ " ") ∧ (∀ c ∈ " ".toList, isBlank c = true) ∧
      SameOutcome (lex "a\n" { file := "m.tl", padding := " " })
        (lex "a\n" { file := "m.tl" })) ∧
    ({ file := "m.tl", padding := "\n\n\n" } : Options).checked =
        .ok { file := "m.tl", padding := "\n\n\n" } ∧
      ({ file := "m.tl" } : Options).checked = .ok { file := "m.tl" } ∧
      SameOutcome (lex "do\n\"x" { file := "m.tl", padding := "\n\n\n" })
        (lex "do\n\"x" { file := "m.tl" }) := by
  have hfew : ¬EndsInBlanks ("do" ++ " ") := by
    rw [← endsInPadding_iff]
    decide +kernel
  have hclosing : EndsInBlanks ("do~y" ++ "~\n\t") := by
    rw [← endsInPadding_iff]
    decide +kernel
  have hshort : EndsInBlanks ("a\n" ++ " ") := by
    rw [← endsInPadding_iff]
    decide +kernel
  have hblank : ∀ c ∈ " ".toList, isBlank c = true := by
    intro c hc
    obtain rfl : c = ' ' := List.mem_singleton.mp hc
    decide +kernel
  have hlong : ({ file := "m.tl", padding := "\n\n\n" } : Options).checked =
      .ok { file := "m.tl", padding := "\n\n\n" } := by decide +kernel
  have husual : ({ file := "m.tl" } : Options).checked = .ok { file := "m.tl" } := by
    decide +kernel
  exact ⟨⟨hfew, (lex_padding_irrelevant { file := "m.tl", padding := " " } "do").1.mpr hfew⟩,
    ⟨hclosing,
      ((lex_padding_irrelevant { file := "m.tl", padding := "~\n\t" } "do~y").2.1 hclosing).1⟩,
    ⟨hshort, hblank,
      ((lex_padding_irrelevant { file := "m.tl", padding := " " } "a\n").2.1 hshort).2 hblank⟩,
    hlong, husual,
    ((lex_padding_irrelevant _ "do\n\"x").2.2 hlong).2 _ husual rfl⟩

end Tilde
