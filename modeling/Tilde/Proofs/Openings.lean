import Tilde.Proofs.Outcomes

/-!
Texts that leave a span open. Lexing fails exactly if there is a delimiter that
comes after a text which can be lexed and does not occur again. Whether a delimiter
opens a span, closes one or stands in one depends on all that comes before it; but
there is never a choice, so no text has two such delimiters, and the fault is that
of the only one.
-/

namespace Tilde

open Munch Alphabet SpanRule

/-- A text around one of its characters. -/
structure Opening where
  before : String
  delimiter : Char
  after : String

namespace Opening

/-- A text is left open at a delimiter: what comes before it can be lexed, and it
does not occur again. -/
structure LeavesOpen (options : Options) (source : String) (opening : Opening) : Prop where
  source_eq :
    source = opening.before ++ String.singleton opening.delimiter ++ opening.after
  opens : opening.delimiter = '~' ∨ opening.delimiter = '"'
  lexes : ∃ tokens, lex opening.before options = .ok tokens
  unclosed : opening.delimiter ∉ opening.after.toList

/-- The tilde opens comments, and the double quote string literals. -/
def form (opening : Opening) : SpanForm :=
  if opening.delimiter = '~' then .comment else .stringLiteral

/-- The place of the delimiter in the text. -/
def location (file : String) (opening : Opening) : Location :=
  Location.ofOffset file
    (opening.before ++ String.singleton opening.delimiter ++ opening.after).toList
    opening.before.length

end Opening

theorem Opening.LeavesOpen.toList_eq {options : Options} {source : String} {opening : Opening}
    (h : opening.LeavesOpen options source) :
    source.toList = opening.before.toList ++ opening.delimiter :: opening.after.toList := by
  simp [h.source_eq]

theorem Opening.LeavesOpen.divides {options : Options}
    (hpadding : Options.paddingSuffices options.padding = true) {source : String}
    {opening : Opening} (h : opening.LeavesOpen options source) :
    ∃ pieces, Divides 0 source.toList
      ⟨pieces, some ⟨opening.before.toList.length, opening.delimiter⟩⟩ := by
  obtain ⟨tokens, hlex⟩ := h.lexes
  obtain ⟨pieces, hbefore, -⟩ := (lex_eq_ok_iff hpadding).mp hlex
  obtain ⟨rule, hrule⟩ : ∃ rule, openedBy opening.delimiter = some rule := by
    rcases h.opens with hdelimiter | hdelimiter
    · exact ⟨_, openedBy_eq_some_iff.mpr (.inl ⟨hdelimiter, rfl⟩)⟩
    · exact ⟨_, openedBy_eq_some_iff.mpr (.inr ⟨hdelimiter, rfl⟩)⟩
  have hdivides := hbefore.append_unclosed hrule h.unclosed
  rw [Nat.zero_add, ← h.toList_eq] at hdivides
  exact ⟨pieces, hdivides⟩

/-- A text is left open at one delimiter at most. -/
theorem Opening.LeavesOpen.unique {options : Options}
    (hpadding : Options.paddingSuffices options.padding = true) {source : String}
    {first second : Opening} (hfirst : first.LeavesOpen options source)
    (hsecond : second.LeavesOpen options source) : first = second := by
  obtain ⟨_, hdivides⟩ := hfirst.divides hpadding
  obtain ⟨_, hdivides'⟩ := hsecond.divides hpadding
  have hlength : first.before.toList.length = second.before.toList.length := by
    have hdivision := hdivides.unique hdivides'
    simp only [Division.mk.injEq, Option.some.injEq, Unclosed.mk.injEq] at hdivision
    exact hdivision.2.1
  obtain ⟨hbefore, hrest⟩ :=
    List.append_inj (hfirst.toList_eq.symm.trans hsecond.toList_eq) hlength
  obtain ⟨hdelimiter, hafter⟩ := List.cons.inj hrest
  cases first
  cases second
  simp only [Opening.mk.injEq]
  exact ⟨String.toList_inj.mp hbefore, hdelimiter, String.toList_inj.mp hafter⟩

/-- The fault of a text is that of the delimiter at which it is left open, with the line
around the delimiter. -/
theorem Opening.LeavesOpen.lex_eq_unterminated {options inner : Options}
    (hpadding : Options.paddingSuffices options.padding = true)
    (hinner : Options.paddingSuffices inner.padding = true) {source : String}
    {opening : Opening} (h : opening.LeavesOpen inner source) :
    lex source options =
      .error (.unterminated opening.form (String.singleton opening.delimiter)
        (some (opening.location options.file))
        (some (String.ofList (Text.lineAround (source.toList ++ options.padding.toList)
          opening.before.length)))) := by
  obtain ⟨pieces, hdivides⟩ := h.divides hinner
  rw [lex_of_unclosed hpadding hdivides, Opening.location, ← h.source_eq,
    ← String.length_toList]
  rfl

theorem Opening.LeavesOpen.lex_eq {options inner : Options}
    (hpadding : Options.paddingSuffices options.padding = true)
    (hinner : Options.paddingSuffices inner.padding = true) {source : String}
    {opening : Opening} (h : opening.LeavesOpen inner source) :
    ∃ line, lex source options =
      .error (.unterminated opening.form (String.singleton opening.delimiter)
        (some (opening.location options.file)) (some line)) :=
  ⟨_, h.lex_eq_unterminated hpadding hinner⟩

/-- Where lexing fails, the text is left open at a delimiter. -/
theorem exists_leavesOpen_of_lex_eq_error {options inner : Options}
    (hpadding : Options.paddingSuffices options.padding = true)
    (hinner : Options.paddingSuffices inner.padding = true) {source : String} {fault : Fault}
    (hlex : lex source options = .error fault) :
    ∃ opening : Opening, opening.LeavesOpen inner source := by
  obtain ⟨pieces, unclosed, hdivides, -⟩ := (lex_eq_error_iff hpadding).mp hlex
  obtain ⟨front, c, rest, _, htext, hc, hrest, -, hfront⟩ := hdivides.exists_opening rfl
  refine ⟨⟨String.ofList front, c, String.ofList rest⟩, ?_, ?_, ?_, ?_⟩
  · rw [← String.toList_inj, htext]
    simp
  · exact (openedBy_eq_some_iff.mp hc).imp And.left And.left
  · rw [← String.toList_ofList (l := front)] at hfront
    exact ⟨_, lex_of_closed hinner hfront⟩
  · simpa using hrest

/-- Lexing fails exactly on the texts that are left open at some delimiter. There is
one such delimiter then, which the fault names with its place. -/
theorem lex_fails_iff {options inner : Options} (haccepted : options.checked = .ok options)
    (hinner : inner.checked = .ok inner) (source : String) :
    ((∃ fault, lex source options = .error fault) ↔
      ∃ opening : Opening, opening.LeavesOpen inner source) ∧
    ∀ opening : Opening, opening.LeavesOpen inner source →
      (∀ other : Opening, other.LeavesOpen inner source → other = opening) ∧
      ∃ line, lex source options =
        .error (.unterminated opening.form (String.singleton opening.delimiter)
          (some (opening.location options.file)) (some line)) := by
  have hpadding := (Options.checked_eq_ok_iff.mp haccepted).1
  have hpadding' := (Options.checked_eq_ok_iff.mp hinner).1
  refine ⟨⟨?_, ?_⟩, ?_⟩
  · rintro ⟨fault, hlex⟩
    exact exists_leavesOpen_of_lex_eq_error hpadding hpadding' hlex
  · rintro ⟨opening, hopening⟩
    obtain ⟨line, hlex⟩ := hopening.lex_eq hpadding hpadding'
    exact ⟨_, hlex⟩
  · intro opening hopening
    exact ⟨fun other hother => hother.unique hpadding' hopening,
      hopening.lex_eq hpadding hpadding'⟩

/-- Tildes and quotes that open, close and stand in spans before one is left open on
the second line. -/
theorem lex_fails_iff_second_line :
    ({ file := "m.tl", padding := "\t\n " } : Options).checked =
        .ok { file := "m.tl", padding := "\t\n " } ∧
      ({} : Options).checked = .ok {} ∧
      (⟨"~\"~x\"~\n\"", '"', " ~y~\n"⟩ : Opening).LeavesOpen {} "~\"~x\"~\n\"\" ~y~\n" ∧
      ∃ line, lex "~\"~x\"~\n\"\" ~y~\n" { file := "m.tl", padding := "\t\n " } =
        .error (.unterminated .stringLiteral "\"" (some ⟨"m.tl", 2, 2⟩) (some line)) := by
  have haccepted : ({ file := "m.tl", padding := "\t\n " } : Options).checked =
      .ok { file := "m.tl", padding := "\t\n " } := by decide +kernel
  have hinner : ({} : Options).checked = .ok {} := by decide +kernel
  have hopening :
      (⟨"~\"~x\"~\n\"", '"', " ~y~\n"⟩ : Opening).LeavesOpen {} "~\"~x\"~\n\"\" ~y~\n" := {
    source_eq := by decide +kernel
    opens := .inr rfl
    lexes := ⟨.ofList [⟨"~\"~", .comment, some ⟨"<input>", 1, 1⟩⟩,
      ⟨"x", .identifier, some ⟨"<input>", 1, 4⟩⟩,
      ⟨"\"~\n\"", .stringLiteral, some ⟨"<input>", 1, 5⟩⟩], by decide +kernel⟩
    unclosed := by decide +kernel }
  exact ⟨haccepted, hinner, hopening,
    ((lex_fails_iff haccepted hinner _).2 _ hopening).2⟩

end Tilde
