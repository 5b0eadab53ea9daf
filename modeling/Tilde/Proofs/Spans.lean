import Mathlib.Order.Bounds.Basic
import Tilde.Proofs.Readings

/-!
Spans that are read from anywhere. A scan reads a span where its delimiter opens one, from
a reader that is in step with the text. But a span is read by the same rule from any reader
and with any delimiter: it takes the character that the reader is on, whatever it is, and
goes to the first place after it where the delimiter stands. What the reader calls its line
and column is carried on from there, right or wrong, up to the next line end.
-/

namespace Tilde

/-- The last line end of a range of a text. -/
structure Text.LastNewline (text : List Char) (start stop k : Nat) : Prop where
  le : start ≤ k
  lt : k < stop
  newline : text[k]? = some '\n'
  clear : '\n' ∉ (text.take stop).drop (k + 1)

/-- A range of a text that is put together from three parts, where it is the second. -/
theorem Text.slice_eq {text : List Char} {start stop : Nat} (before chars rest : List Char)
    (htext : text = before ++ (chars ++ rest)) (hstart : start = before.length)
    (hstop : stop = before.length + chars.length) : (text.take stop).drop start = chars := by
  rw [htext, hstart, hstop, take_append_add, List.drop_left, List.take_left]

theorem Text.exists_last_newline {chars : List Char} (hmem : '\n' ∈ chars) :
    ∃ front back, chars = front ++ '\n' :: back ∧ '\n' ∉ back := by
  obtain ⟨back, front, hreverse, hclear⟩ :=
    List.eq_append_cons_of_mem (List.mem_reverse.mpr hmem)
  refine ⟨front.reverse, back.reverse, ?_, by simpa using hclear⟩
  rw [← List.reverse_inj, hreverse]
  simp

/-- The column after a range counts from the last line end in it, if it has one. -/
theorem Reader.column_passAll (before chars rest : List Char) (r : Reader) :
    if '\n' ∈ chars then
      ∃ k, Text.LastNewline (before ++ (chars ++ rest)) before.length
          (before.length + chars.length) k ∧
        (r.passAll chars).column = before.length + chars.length - k
    else (r.passAll chars).column = r.column + chars.length := by
  split
  · rename_i hmem
    obtain ⟨front, back, rfl, hclear⟩ := Text.exists_last_newline hmem
    refine ⟨before.length + front.length, ⟨Nat.le_add_right .., ?_, ?_, ?_⟩, ?_⟩
    · simp
    · simp
    · rwa [Text.slice_eq (before ++ front ++ ['\n']) back rest (by simp)
        (by simp [Nat.add_assoc]) (by simp; omega)]
    · rw [column_passAll_of_newline _ hclear]
      simp
      omega
  · rename_i hclear
    exact column_passAll_of_notMem hclear r

namespace SpanRule

/-- The character of a text at an offset is the whole delimiter of a rule. -/
def DelimitsAt (rule : SpanRule) (text : List Char) (j : Nat) : Prop :=
  ∃ c, text[j]? = some c ∧ String.singleton c = rule.delimiter

/-- A span of a rule that is read from a reader at offset `i` and closed at offset `j`. -/
structure SpanTo (rule : SpanRule) (start : Reader) (file : String) (i j : Nat) (span : Span) :
    Prop where
  kind_eq : span.token.kind = rule.kind
  location_eq : span.token.location = some ⟨file, start.line, start.column⟩
  lexeme_eq : span.token.lexeme =
    rule.delimiter ++ String.ofList ((start.text.toList.take j).drop (i + 1)) ++ rule.delimiter
  /-- The lexeme is the text that was passed if the span was read from its delimiter. -/
  lexeme_eq_iff : span.token.lexeme = String.ofList ((start.text.toList.take (j + 1)).drop i) ↔
    rule.DelimitsAt start.text.toList i
  text_eq : span.after.text = start.text
  index_eq : span.after.index = j + 1
  line_eq : span.after.line =
    start.line + ((start.text.toList.take (j + 1)).drop i).count '\n'
  column_eq :
    if '\n' ∈ (start.text.toList.take (j + 1)).drop i then
      ∃ k, Text.LastNewline start.text.toList i (j + 1) k ∧ span.after.column = j + 1 - k
    else span.after.column = start.column + (j + 1 - i)

variable {rule : SpanRule} {start : Reader} {before body rest : List Char} {c closing : Char}

theorem not_delimits_iff {d : Char} :
    rule.delimits (String.singleton d) = false ↔ String.singleton d ≠ rule.delimiter := by
  simp [delimits]

/-- A delimiter of no or of several characters stands nowhere. -/
theorem not_delimitsAt_of_length (hlength : rule.delimiter.length ≠ 1) (text : List Char)
    (j : Nat) : ¬rule.DelimitsAt text j := by
  rintro ⟨c, -, hc⟩
  rw [← hc, String.length_singleton] at hlength
  exact hlength rfl

/-- No character of a range closes a span if the delimiter stands nowhere in it. -/
theorem forall_not_delimits {text : List Char} {i stop : Nat}
    (hnone : ∀ j, i < j → j < stop → ¬rule.DelimitsAt text j) :
    ∀ d ∈ (text.take stop).drop (i + 1), rule.delimits (String.singleton d) = false := by
  intro d hd
  obtain ⟨m, hm, rfl⟩ := List.mem_iff_getElem.mp hd
  rw [List.length_drop, List.length_take] at hm
  rw [not_delimits_iff]
  intro hdelimits
  refine hnone (i + 1 + m) (by omega) (by omega) ⟨_, ?_, hdelimits⟩
  rw [List.getElem_drop, List.getElem_take]
  exact List.getElem?_eq_getElem _

/-- A text with a reader on one of its characters and the delimiter at a later one, but
nowhere between. -/
theorem exists_split_of_isLeast {text : List Char} {i j : Nat}
    (h : IsLeast {j | i < j ∧ rule.DelimitsAt text j} j) :
    ∃ before c body closing rest, text = before ++ (c :: body ++ closing :: rest) ∧
      before.length = i ∧ i + body.length + 1 = j ∧ String.singleton closing = rule.delimiter ∧
      ∀ d ∈ body, rule.delimits (String.singleton d) = false := by
  obtain ⟨⟨hij, closing, hclosing, hdelimiter⟩, hleast⟩ := h
  obtain ⟨hj, hchar⟩ := List.getElem?_eq_some_iff.mp hclosing
  have hi : i < (text.take j).length := by
    rw [List.length_take]
    omega
  have hsplit : text = (text.take j).take i ++
      ((text.take j)[i] :: (text.take j).drop (i + 1) ++ closing :: text.drop (j + 1)) := by
    rw [← hchar, ← List.drop_eq_getElem_cons hj, ← List.drop_eq_getElem_cons hi,
      ← List.append_assoc, List.take_append_drop, List.take_append_drop]
  refine ⟨_, _, _, closing, _, hsplit, ?_, ?_, hdelimiter, ?_⟩
  · rw [List.length_take]
    omega
  · rw [List.length_drop, List.length_take]
    omega
  · apply forall_not_delimits
    intro k hik hkj hk
    exact Nat.not_le_of_lt hkj (hleast ⟨hik, hk⟩)

/-- The reader after a span has passed all of it. -/
theorem read_of_closed_spanTo (hstart : start.index = before.length)
    (htext : start.text.toList = before ++ (c :: body ++ closing :: rest))
    (hclosing : String.singleton closing = rule.delimiter)
    (hbody : ∀ d ∈ body, rule.delimits (String.singleton d) = false) (file : String) :
    ∃ span, rule.read start file = .ok span ∧
      rule.SpanTo start file before.length (before.length + body.length + 1) span := by
  have hnonneg : 0 ≤ start.index := by omega
  have hahead : start.ahead = c :: body ++ closing :: rest := by
    rw [Reader.ahead, hstart, htext, Int.toNat_natCast, List.drop_left]
  have hcloses : rule.delimits (String.singleton closing) = true := by
    simp [delimits, hclosing]
  have hpassed : start.text.toList = before ++ (c :: body ++ [closing] ++ rest) := by
    simp [htext]
  have hstop : before.length + body.length + 1 + 1 =
      before.length + (c :: body ++ [closing]).length := by
    simp
    omega
  have hslice : (start.text.toList.take (before.length + body.length + 1 + 1)).drop
      before.length = c :: body ++ [closing] :=
    Text.slice_eq before _ rest hpassed rfl hstop
  have hinner : (start.text.toList.take (before.length + body.length + 1)).drop
      (before.length + 1) = body :=
    Text.slice_eq (before ++ [c]) body (closing :: rest) (by simp [htext]) (by simp)
      (by simp; omega)
  have hcolumn := Reader.column_passAll before (c :: body ++ [closing]) rest start
  rw [← hpassed, ← hstop] at hcolumn
  refine ⟨_, read_of_closed hnonneg hahead hbody hcloses file, rfl, rfl, ?_, ?_, ?_, ?_, ?_, ?_⟩
  · rw [hinner]
  · have hhere : start.text.toList[before.length]? = some c := by
      rw [htext]
      simp
    rw [hslice, DelimitsAt, hhere, ← hclosing, ← String.toList_inj]
    simp [eq_comm]
  · exact Reader.text_passAll ..
  · rw [Reader.index_passAll, hstart]
    simp
    omega
  · rw [hslice]
    exact Reader.line_passAll ..
  · rw [hslice]
    split
    · rename_i hmem
      rw [if_pos hmem] at hcolumn
      obtain ⟨k, hlast, hcolumn⟩ := hcolumn
      refine ⟨k, hlast, ?_⟩
      rw [hcolumn]
      simp
      omega
    · rename_i hclear
      rw [if_neg hclear] at hcolumn
      rw [hcolumn]
      simp
      omega

theorem read_of_outside (h : start.index < 0 ∨ start.size ≤ start.index) (file : String) :
    rule.read start file = .error (.underrun start.index start.size) := by
  rw [read, Reader.advance_of_outside h]
  rfl

theorem read_of_never_closed {i : Nat} (hstart : start.index = i) (hi : i < start.size)
    (hnever : ∀ j, i < j → ¬rule.DelimitsAt start.text.toList j) (file : String) :
    rule.read start file = .error (rule.unterminated start file) := by
  have hnonneg : 0 ≤ start.index := by omega
  have hinside : i < start.text.toList.length := by
    rwa [Array.length_toList]
  have hahead : start.ahead = start.text.toList[i] :: start.text.toList.drop (i + 1) := by
    rw [Reader.ahead, hstart, Int.toNat_natCast, List.drop_eq_getElem_cons hinside]
  have hbody := forall_not_delimits fun j hij (_ : j < start.text.toList.length) => hnever j hij
  rw [List.take_length] at hbody
  exact read_of_unclosed hnonneg hahead hbody file

/-- Reading a span from any reader. Outside the text there is nothing to read. Inside it
the span is closed at the first place after the reader where the delimiter stands, and is
a fault at the reader if there is none. -/
theorem read_from_anywhere (rule : SpanRule) (start : Reader) (file : String) :
    (start.index < 0 ∨ start.size ≤ start.index →
      rule.read start file = .error (.underrun start.index start.size)) ∧
    (rule.delimiter.length ≠ 1 → ∀ j, ¬rule.DelimitsAt start.text.toList j) ∧
    ∀ i : Nat, start.index = i → i < start.size →
      ((∀ j, i < j → ¬rule.DelimitsAt start.text.toList j) →
        rule.read start file =
          .error (.unterminated rule.form rule.delimiter
            (some ⟨file, start.line, start.column⟩) (some start.wholeLine))) ∧
      ∀ j, IsLeast {j | i < j ∧ rule.DelimitsAt start.text.toList j} j →
        ∃ span, rule.read start file = .ok span ∧ rule.SpanTo start file i j span := by
  refine ⟨fun h => read_of_outside h file,
    fun hlength => not_delimitsAt_of_length hlength _, fun i hstart hi => ⟨?_, ?_⟩⟩
  · exact fun hnever => read_of_never_closed hstart hi hnever file
  · intro j hleast
    obtain ⟨before, c, body, closing, rest, htext, rfl, rfl, hclosing, hbody⟩ :=
      exists_split_of_isLeast hleast
    exact read_of_closed_spanTo hstart htext hclosing hbody file

/-- A reader before its text, one with a delimiter of two characters ahead of it, and one
that is not on the delimiter and out of step with its text. -/
theorem read_from_anywhere_three :
    let before := Reader.ofPlace "~~" (-1) 1 1
    let marked := Reader.ofPlace "a--" 0 1 1
    let astray := Reader.ofPlace "ab\ncd!" 1 (-7) 40
    let dashed : SpanRule := ⟨"--", .comment, .general⟩
    let lettered : SpanRule := ⟨"d", .identifier, .general⟩
    (before.index < 0 ∧ comment.read before "m.tl" = .error (.underrun (-1) 2)) ∧
    (dashed.delimiter.length ≠ 1 ∧ marked.index = (0 : Nat) ∧ 0 < marked.size ∧
      (∀ j, 0 < j → ¬dashed.DelimitsAt marked.text.toList j) ∧
      dashed.read marked "m.tl" =
        .error (.unterminated .general "--" (some ⟨"m.tl", 1, 1⟩) (some "a--"))) ∧
    astray.index = (1 : Nat) ∧ 1 < astray.size ∧
      IsLeast {j | 1 < j ∧ lettered.DelimitsAt astray.text.toList j} 4 ∧
      ∃ span, lettered.read astray "m.tl" = .ok span ∧
        lettered.SpanTo astray "m.tl" 1 4 span := by
  intro before marked astray dashed lettered
  have hbefore : before.index < 0 := by decide
  have hlength : dashed.delimiter.length ≠ 1 := by decide
  have hsize : 0 < marked.size := by decide
  have hwithin : 1 < astray.size := by decide
  have hline : marked.wholeLine = "a--" := by decide +kernel
  obtain ⟨-, hnowhere, hmarked⟩ := read_from_anywhere dashed marked "m.tl"
  have hnever : ∀ j, 0 < j → ¬dashed.DelimitsAt marked.text.toList j :=
    fun j _ => hnowhere hlength j
  have hunclosed := (hmarked 0 rfl hsize).1 hnever
  rw [hline] at hunclosed
  have hleast : IsLeast {j | 1 < j ∧ lettered.DelimitsAt astray.text.toList j} 4 := by
    refine ⟨⟨by decide, 'd', rfl, rfl⟩, ?_⟩
    rintro j ⟨hj, c, hc, hdelimits⟩
    by_contra hlt
    obtain rfl | rfl : j = 2 ∨ j = 3 := by omega
    · obtain rfl : '\n' = c := Option.some.inj hc
      revert hdelimits
      decide
    · obtain rfl : 'c' = c := Option.some.inj hc
      revert hdelimits
      decide
  exact ⟨⟨hbefore, (read_from_anywhere comment before "m.tl").1 (.inl hbefore)⟩,
    ⟨hlength, rfl, hsize, hnever, hunclosed⟩, rfl, hwithin, hleast,
    ((read_from_anywhere lettered astray "m.tl").2.2 1 rfl hwithin).2 4 hleast⟩

end SpanRule

end Tilde
