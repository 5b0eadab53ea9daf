import Tilde.Proofs.Openings

/-!
The line that a fault shows. A text that leaves a span open has a fault at the delimiter
that opens it, and the fault shows the whole line of the delimiter with a caret under it.
The line is one of the padded text: where the delimiter is on the last line of the text,
what the padding adds to this line is shown with it.
-/

namespace Tilde

open Munch SpanRule

namespace Text

theorem BeginsLine.append_right {text : List Char} {offset start : Nat}
    (h : BeginsLine text offset start) (hoffset : offset ≤ text.length) (more : List Char) :
    BeginsLine (text ++ more) offset start where
  le := h.le
  clear := by
    rw [List.take_append_of_le_length hoffset]
    exact h.clear
  opened := by
    refine h.opened.imp_right fun hnewline => ?_
    rw [List.getElem?_append_left (List.getElem?_eq_some_iff.mp hnewline).1, hnewline]

/-- A line goes on in what is put behind its text if it is the last one. -/
theorem lineAfter_append_left {text : List Char} {offset : Nat} (hoffset : offset ≤ text.length)
    (more : List Char) :
    lineAfter (text ++ more) offset =
      lineAfter text offset ++
        if '\n' ∈ text.drop offset then [] else more.takeWhile (· ≠ '\n') := by
  rw [lineAfter, List.drop_append_of_le_length hoffset, List.takeWhile_append, lineAfter]
  by_cases hmem : '\n' ∈ text.drop offset
  · have hstops : ((text.drop offset).takeWhile (· ≠ '\n')).length ≠
        (text.drop offset).length := by
      intro hall
      have hself := (List.takeWhile_prefix _).eq_of_length hall
      exact notMem_takeWhile_ne '\n' _ (hself ▸ hmem)
    rw [if_neg hstops, if_pos hmem, List.append_nil]
  · have hself := List.takeWhile_eq_self_iff.mpr (forall_ne_of_notMem hmem)
    rw [hself, if_pos rfl, if_neg hmem]

/-- A character that ends no line is shown on its line, after what stands before it. -/
theorem getElem?_lineAround {text rest : List Char} {offset : Nat} {c : Char}
    (hdrop : text.drop offset = c :: rest) (hc : c ≠ '\n') :
    (lineAround text offset)[(lineBefore text offset).length]? = some c := by
  simp [lineAround, lineAfter, hdrop, hc]

end Text

/-! ### Rendering -/

theorem Fault.isEmpty_hint (fault : Fault) : fault.hint.isEmpty = false := by
  cases fault with
  | underrun => rfl
  | unpadded => rfl
  | unterminated form delimiter _ _ =>
      rw [String.isEmpty_eq_false_iff]
      change "add a closing '" ++ delimiter ++ "' to end the " ++ form.description ≠ ""
      simp

/-- A fault is rendered in four parts where its place and the line of it are known. -/
theorem Fault.render_of_sourceLine {fault : Fault} {place : Location} {line : String}
    (hplace : fault.location = some place) (hline : fault.sourceLine = some line)
    (hcolumn : 0 < place.column) :
    fault.render = "\n".intercalate
      [place.render ++ ": error: " ++ fault.message, Diagnostic.quotedLine line,
        Diagnostic.caret place.column, "hint: " ++ fault.hint] := by
  have hheadline : fault.diagnostic.headline = place.render ++ ": error: " ++ fault.message := by
    simp [Diagnostic.headline, Fault.diagnostic, hplace, toString]
  have hexcerpt : fault.diagnostic.excerpt =
      [Diagnostic.quotedLine line, Diagnostic.caret place.column] := by
    simp [Diagnostic.excerpt, Fault.diagnostic, hplace, hline, hcolumn]
  have hadvice : fault.diagnostic.advice = ["hint: " ++ fault.hint] := by
    simp [Diagnostic.advice, Fault.diagnostic, fault.isEmpty_hint, toString]
  rw [Fault.render, Diagnostic.render, Diagnostic.parts, hheadline, hexcerpt, hadvice]
  rfl

/-- The caret is set in with the line, and then goes as far to the right as the column. -/
theorem Fault.exists_indent {fault : Fault} {place : Location} {line : String}
    (hplace : fault.location = some place) (hline : fault.sourceLine = some line) {before : Nat}
    (hcolumn : place.column = before + 1) :
    ∃ indent : String, (∀ c ∈ indent.toList, c = ' ') ∧
      indent.length = "    ".length + before ∧
      fault.render = "\n".intercalate
        [place.render ++ ": error: " ++ fault.message, "    " ++ line, indent ++ "^",
          "hint: " ++ fault.hint] := by
  have hindex : (place.column - 1).toNat = before := by omega
  refine ⟨Diagnostic.spaces (Diagnostic.margin + before), ?_, ?_, ?_⟩
  · simp [Diagnostic.spaces]
  · simp only [Diagnostic.spaces, String.length_ofList, List.length_replicate]
    rfl
  · rw [Fault.render_of_sourceLine hplace hline (by omega), Diagnostic.caret, hindex]
    rfl

/-! ### The line of an open span -/

/-- A fault shows the delimiter at which a text is left open, on a line that goes from
`start` to `stop` in the padded text. -/
structure Fault.Shows (options : Options) (source : String) (opening : Opening) (fault : Fault)
    (line : String) (start stop : Nat) : Prop where
  names : fault = .unterminated opening.form (String.singleton opening.delimiter)
    (some (opening.location options.file)) (some line)
  begins : Text.BeginsLine (source ++ options.padding).toList opening.before.length start
  ends : Text.EndsLine (source ++ options.padding).toList opening.before.length stop
  line_eq : line = String.ofList (((source ++ options.padding).toList.take stop).drop start)
  clear : '\n' ∉ line.toList
  /-- It is a line of the text itself, with what the padding adds to the last one. -/
  own : ∃ last, Text.BeginsLine source.toList opening.before.length start ∧
    Text.EndsLine source.toList opening.before.length last ∧
    line.toList = (source.toList.take last).drop start ++
      if '\n' ∈ opening.after.toList then [] else options.padding.toList.takeWhile (· ≠ '\n')
  column_eq : (opening.location options.file).column = opening.before.length - start + 1
  delimiter_at :
    line.toList[((opening.location options.file).column - 1).toNat]? = some opening.delimiter
  /-- The caret is as far to the right as the delimiter, which is set in with its line. -/
  render_eq : ∃ indent : String, (∀ c ∈ indent.toList, c = ' ') ∧
    indent.length = "    ".length + (opening.before.length - start) ∧
    fault.render = "\n".intercalate
      [(opening.location options.file).render ++ ": error: " ++ fault.message, "    " ++ line,
        indent ++ "^", "hint: " ++ fault.hint]

theorem Opening.LeavesOpen.delimiter_ne_newline {options : Options} {source : String}
    {opening : Opening} (h : opening.LeavesOpen options source) :
    opening.delimiter ≠ '\n' := by
  rcases h.opens with hdelimiter | hdelimiter <;> rw [hdelimiter] <;> decide

theorem Opening.LeavesOpen.length_le {options : Options} {source : String} {opening : Opening}
    (h : opening.LeavesOpen options source) : opening.before.length ≤ source.toList.length := by
  rw [h.toList_eq, List.length_append, String.length_toList]
  exact Nat.le_add_right ..

theorem Opening.LeavesOpen.drop_eq {options : Options} {source : String} {opening : Opening}
    (h : opening.LeavesOpen options source) :
    source.toList.drop opening.before.length = opening.delimiter :: opening.after.toList := by
  rw [h.toList_eq, ← String.length_toList, List.drop_left]

/-- The line around the delimiter, as it is in the text and as it goes on in the padding. -/
theorem Opening.LeavesOpen.lineAround_append {options : Options} {source : String}
    {opening : Opening} (h : opening.LeavesOpen options source) (padding : List Char) :
    Text.lineAround (source.toList ++ padding) opening.before.length =
      Text.lineAround source.toList opening.before.length ++
        if '\n' ∈ opening.after.toList then [] else padding.takeWhile (· ≠ '\n') := by
  have hnewline : '\n' ∈ opening.delimiter :: opening.after.toList ↔
      '\n' ∈ opening.after.toList := by
    rw [List.mem_cons, or_iff_right h.delimiter_ne_newline.symm]
  rw [Text.lineAround, Text.lineBefore_append_left h.length_le,
    Text.lineAfter_append_left h.length_le, h.drop_eq, ← List.append_assoc, Text.lineAround]
  simp only [hnewline]

/-- The column of the delimiter counts from where its line begins. -/
theorem Opening.LeavesOpen.column_location {options : Options} {source : String}
    {opening : Opening} (h : opening.LeavesOpen options source) {start : Nat}
    (hbegins : Text.BeginsLine source.toList opening.before.length start) (file : String) :
    (opening.location file).column = opening.before.length - start + 1 := by
  have hle := hbegins.le
  have hlength := hbegins.length_lineBefore h.length_le
  rw [Opening.location, ← h.source_eq]
  simp only [Location.ofOffset, Text.columnNumber, hlength]
  omega

/-- The delimiter stands on its line where the column says. -/
theorem Opening.LeavesOpen.getElem?_lineAround {options : Options} {source : String}
    {opening : Opening} (h : opening.LeavesOpen options source) {start : Nat}
    (hbegins : Text.BeginsLine source.toList opening.before.length start)
    (padding : List Char) :
    (Text.lineAround (source.toList ++ padding) opening.before.length)[
      opening.before.length - start]? = some opening.delimiter := by
  have hdrop : (source.toList ++ padding).drop opening.before.length =
      opening.delimiter :: (opening.after.toList ++ padding) := by
    rw [List.drop_append_of_le_length h.length_le, h.drop_eq, List.cons_append]
  have hlength : (Text.lineBefore (source.toList ++ padding) opening.before.length).length =
      opening.before.length - start := by
    rw [Text.lineBefore_append_left h.length_le, hbegins.length_lineBefore h.length_le]
  rw [← hlength]
  exact Text.getElem?_lineAround hdrop h.delimiter_ne_newline

/-- Where lexing fails, the fault shows the delimiter at which the text is left open. -/
theorem lex_fault_shows {options : Options} (haccepted : options.checked = .ok options)
    {source : String} {fault : Fault} (hlex : lex source options = .error fault) :
    ∃ opening line start stop, opening.LeavesOpen options source ∧
      fault.Shows options source opening line start stop := by
  have hpadding := (Options.checked_eq_ok_iff.mp haccepted).1
  obtain ⟨opening, h⟩ := exists_leavesOpen_of_lex_eq_error hpadding hpadding hlex
  have hfault := Except.error.inj (hlex.symm.trans (h.lex_eq_unterminated hpadding hpadding))
  obtain ⟨start, hbegins, -⟩ := Text.exists_beginsLine h.length_le
  obtain ⟨last, hlast⟩ := Text.exists_endsLine h.length_le
  have hwithin : opening.before.length ≤ (source.toList ++ options.padding.toList).length := by
    rw [List.length_append]
    exact h.length_le.trans (Nat.le_add_right ..)
  obtain ⟨stop, hends⟩ := Text.exists_endsLine hwithin
  have hbegins' := hbegins.append_right h.length_le options.padding.toList
  have hcolumn := h.column_location hbegins options.file
  have hle := hbegins.le
  have hindex : ((opening.location options.file).column - 1).toNat =
      opening.before.length - start := by omega
  rw [← String.toList_append] at hbegins' hends
  refine ⟨opening, _, start, stop, h, {
    names := hfault
    begins := hbegins'
    ends := hends
    line_eq := by rw [← String.toList_append, Text.lineAround_eq hbegins' hends]
    clear := by
      rw [String.toList_ofList]
      exact Text.newline_not_mem_lineAround _ _
    own := by
      refine ⟨last, hbegins, hlast, ?_⟩
      rw [String.toList_ofList, h.lineAround_append, Text.lineAround_eq hbegins hlast]
    column_eq := hcolumn
    delimiter_at := by
      rw [hindex, String.toList_ofList]
      exact h.getElem?_lineAround hbegins _
    render_eq := by
      subst hfault
      exact Fault.exists_indent rfl rfl (by omega) }⟩

/-- A comment that is left open on the last line, which goes on in the padding. -/
theorem lex_fault_shows_last_line :
    ({ file := "m.tl", padding := "\t\n " } : Options).checked =
        .ok { file := "m.tl", padding := "\t\n " } ∧
      lex "do~\n~ \"\"~x" { file := "m.tl", padding := "\t\n " } =
        .error (.unterminated .comment "~" (some ⟨"m.tl", 2, 5⟩) (some "~ \"\"~x\t")) ∧
      ∃ opening line start stop,
        opening.LeavesOpen { file := "m.tl", padding := "\t\n " } "do~\n~ \"\"~x" ∧
        Fault.Shows { file := "m.tl", padding := "\t\n " } "do~\n~ \"\"~x" opening
          (.unterminated .comment "~" (some ⟨"m.tl", 2, 5⟩) (some "~ \"\"~x\t"))
          line start stop := by
  have haccepted : ({ file := "m.tl", padding := "\t\n " } : Options).checked =
      .ok { file := "m.tl", padding := "\t\n " } := by decide +kernel
  have hlex : lex "do~\n~ \"\"~x" { file := "m.tl", padding := "\t\n " } =
      .error (.unterminated .comment "~" (some ⟨"m.tl", 2, 5⟩) (some "~ \"\"~x\t")) := by
    decide +kernel
  exact ⟨haccepted, hlex, lex_fault_shows haccepted hlex⟩

example :
    (Fault.unterminated .comment "~" (some ⟨"m.tl", 2, 5⟩) (some "~ \"\"~x\t")).render =
      "m.tl:2:5: error: unterminated comment\n    ~ \"\"~x\t\n        ^\n" ++
        "hint: add a closing '~' to end the comment" := by
  decide +kernel

end Tilde
