import Mathlib.Data.List.TakeWhile
import Mathlib.Tactic.ByContra
import Tilde.Location

/-!
Lines and columns of a text that is put together from two parts. An offset in the
first part is where it was. An offset in the second part has the lines of the
first part above it, and it has the last of them to its left if there is no line
end before it in its own part.
-/

namespace Tilde.Text

theorem lineBefore_append_left {a : List Char} {n : Nat} (hn : n ≤ a.length)
    (b : List Char) : lineBefore (a ++ b) n = lineBefore a n := by
  rw [lineBefore, List.take_append_of_le_length hn, lineBefore]

theorem lineNumber_append_left {a : List Char} {n : Nat} (hn : n ≤ a.length)
    (b : List Char) : lineNumber (a ++ b) n = lineNumber a n := by
  rw [lineNumber, List.take_append_of_le_length hn, lineNumber]

theorem columnNumber_append_left {a : List Char} {n : Nat} (hn : n ≤ a.length)
    (b : List Char) : columnNumber (a ++ b) n = columnNumber a n := by
  rw [columnNumber, lineBefore_append_left hn, columnNumber]

theorem take_append_add (a b : List Char) (n : Nat) :
    (a ++ b).take (a.length + n) = a ++ b.take n := by
  rw [List.take_append, List.take_of_length_le (Nat.le_add_right ..), Nat.add_sub_cancel_left]

theorem lineBefore_of_notMem {text : List Char} {n : Nat} (hn : '\n' ∉ text.take n) :
    lineBefore text n = text.take n := by
  rw [← List.mem_reverse] at hn
  rw [lineBefore, List.takeWhile_eq_self_iff.mpr (forall_ne_of_notMem hn), List.reverse_reverse]

theorem lineBefore_append_right (a b : List Char) (n : Nat) :
    lineBefore (a ++ b) (a.length + n) =
      if '\n' ∈ b.take n then lineBefore b n
      else lineBefore a a.length ++ lineBefore b n := by
  rw [lineBefore, take_append_add, List.reverse_append, List.takeWhile_append]
  split
  · rename_i hall
    have hclear : '\n' ∉ b.take n := by
      intro hmem
      have hself := List.takeWhile_eq_self_iff.mp
        ((List.takeWhile_prefix _).eq_of_length hall) '\n' (List.mem_reverse.mpr hmem)
      simp at hself
    rw [if_neg hclear, lineBefore_of_notMem hclear, List.reverse_append, List.reverse_reverse,
      lineBefore, List.take_length]
  · rename_i hsome
    have hmem : '\n' ∈ b.take n := by
      by_contra hclear
      have hline := lineBefore_of_notMem hclear
      rw [lineBefore, List.reverse_eq_iff] at hline
      exact hsome (congrArg List.length hline)
    rw [if_pos hmem, lineBefore]

theorem lineNumber_append_right (a b : List Char) (n : Nat) :
    lineNumber (a ++ b) (a.length + n) = a.count '\n' + lineNumber b n := by
  rw [lineNumber, take_append_add, List.count_append, lineNumber, Nat.add_assoc]

theorem columnNumber_append_right (a b : List Char) (n : Nat) :
    columnNumber (a ++ b) (a.length + n) =
      if '\n' ∈ b.take n then columnNumber b n
      else (lineBefore a a.length).length + columnNumber b n := by
  rw [columnNumber, lineBefore_append_right, columnNumber]
  split
  · rfl
  · rw [List.length_append, Nat.add_assoc]

theorem lineAfter_append_right (a b : List Char) (n : Nat) :
    lineAfter (a ++ b) (a.length + n) = lineAfter b n := by
  rw [lineAfter, List.drop_append, List.drop_of_length_le (Nat.le_add_right ..),
    List.nil_append, Nat.add_sub_cancel_left, lineAfter]

theorem lineAround_append_right (a b : List Char) (n : Nat) :
    lineAround (a ++ b) (a.length + n) =
      if '\n' ∈ b.take n then lineAround b n
      else lineBefore a a.length ++ lineAround b n := by
  rw [lineAround, lineBefore_append_right, lineAfter_append_right, lineAround]
  split
  · rfl
  · rw [List.append_assoc]

/-- A line of a text has characters of the text only. -/
theorem mem_of_mem_lineAround {text : List Char} {offset : Nat} {c : Char}
    (h : c ∈ lineAround text offset) : c ∈ text := by
  rw [lineAround, lineBefore, lineAfter, List.mem_append, List.mem_reverse] at h
  rcases h with h | h
  · exact List.mem_of_mem_take (List.mem_reverse.mp (List.takeWhile_subset _ h))
  · exact List.mem_of_mem_drop (List.takeWhile_subset _ h)

theorem lineNumber_eq_one_iff (text : List Char) (n : Nat) :
    lineNumber text n = 1 ↔ '\n' ∉ text.take n := by
  rw [lineNumber, Nat.add_eq_right, List.count_eq_zero]

/-- Where the line of an offset begins: just after the last line end before the
offset, or else with the text. -/
structure BeginsLine (text : List Char) (offset start : Nat) : Prop where
  le : start ≤ offset
  /-- No line end lies between. -/
  clear : '\n' ∉ (text.take offset).drop start
  /-- A line end stands just before, unless the text begins here. -/
  opened : start = 0 ∨ text[start - 1]? = some '\n'

/-- What stands before an offset is a number of whole lines, each with its line
end, and then the line of the offset. -/
theorem take_eq_append_lineBefore (text : List Char) (offset : Nat) :
    ∃ above, text.take offset = above ++ lineBefore text offset ∧
      (above = [] ∨ ∃ lines, above = lines ++ ['\n']) := by
  refine ⟨((text.take offset).reverse.dropWhile (· ≠ '\n')).reverse, ?_, ?_⟩
  · rw [lineBefore, ← List.reverse_append, List.takeWhile_append_dropWhile,
      List.reverse_reverse]
  · cases habove : (text.take offset).reverse.dropWhile (· ≠ '\n') with
    | nil => exact .inl rfl
    | cons c lines =>
        have hc := List.head_dropWhile_not (fun c => decide (c ≠ '\n'))
          (habove ▸ List.cons_ne_nil c lines)
        simp only [habove, List.head_cons] at hc
        obtain rfl : c = '\n' := by simpa using hc
        exact .inr ⟨lines.reverse, by simp⟩

/-- A column counts from the beginning of its line. -/
theorem exists_beginsLine {text : List Char} {offset : Nat} (hoffset : offset ≤ text.length) :
    ∃ start, BeginsLine text offset start ∧
      columnNumber text offset = offset - start + 1 := by
  obtain ⟨above, htake, habove⟩ := take_eq_append_lineBefore text offset
  have hlength : offset = above.length + (lineBefore text offset).length := by
    have := congrArg List.length htake
    rwa [List.length_take, Nat.min_eq_left hoffset, List.length_append] at this
  refine ⟨above.length, ⟨by omega, ?_, ?_⟩, ?_⟩
  · rw [htake, List.drop_left, lineBefore, List.mem_reverse]
    exact notMem_takeWhile_ne '\n' _
  · rcases habove with rfl | ⟨lines, rfl⟩
    · exact .inl rfl
    · right
      have hsplit := List.take_append_drop offset text
      rw [htake] at hsplit
      rw [← hsplit]
      simp
  · rw [columnNumber]
    omega

/-- What follows whole lines before an offset is what stands before it on its line. -/
theorem lineBefore_eq_of_take {text above within : List Char} {offset : Nat}
    (htake : text.take offset = above ++ within) (hclear : '\n' ∉ within)
    (habove : above = [] ∨ ∃ lines, above = lines ++ ['\n']) :
    lineBefore text offset = within := by
  rw [← List.mem_reverse] at hclear
  rw [lineBefore, htake, List.reverse_append,
    List.takeWhile_append_of_pos (forall_ne_of_notMem hclear)]
  rcases habove with rfl | ⟨lines, rfl⟩ <;> simp

theorem BeginsLine.lineBefore_eq {text : List Char} {offset start : Nat}
    (h : BeginsLine text offset start) :
    lineBefore text offset = (text.take offset).drop start := by
  have htake : text.take offset = text.take start ++ (text.take offset).drop start := by
    conv_lhs => rw [← List.take_append_drop start (text.take offset), List.take_take,
      Nat.min_eq_left h.le]
  refine lineBefore_eq_of_take htake h.clear ?_
  rcases h.opened with rfl | hnewline
  · exact .inl List.take_zero
  · cases start with
    | zero => exact .inl List.take_zero
    | succ k =>
        rw [Nat.add_sub_cancel] at hnewline
        exact .inr ⟨text.take k, by rw [List.take_add_one, hnewline, Option.toList_some]⟩

theorem BeginsLine.length_lineBefore {text : List Char} {offset start : Nat}
    (h : BeginsLine text offset start) (hoffset : offset ≤ text.length) :
    (lineBefore text offset).length = offset - start := by
  rw [h.lineBefore_eq, List.length_drop, List.length_take, Nat.min_eq_left hoffset]

/-- Where the line of an offset ends: just before the first line end from the offset on,
or else with the text. -/
structure EndsLine (text : List Char) (offset stop : Nat) : Prop where
  le : offset ≤ stop
  /-- No line end lies between. -/
  clear : '\n' ∉ (text.take stop).drop offset
  /-- A line end stands here, unless the text ends here. -/
  closed : stop = text.length ∨ text[stop]? = some '\n'

theorem EndsLine.le_length {text : List Char} {offset stop : Nat}
    (h : EndsLine text offset stop) : stop ≤ text.length := by
  rcases h.closed with rfl | hnewline
  · exact Nat.le_refl _
  · exact (List.getElem?_eq_some_iff.mp hnewline).1.le

theorem EndsLine.lineAfter_eq {text : List Char} {offset stop : Nat}
    (h : EndsLine text offset stop) :
    lineAfter text offset = (text.take stop).drop offset := by
  have hwithin : offset ≤ (text.take stop).length := by
    have := h.le
    have := h.le_length
    rw [List.length_take]
    omega
  have hdrop : text.drop offset = (text.take stop).drop offset ++ text.drop stop := by
    conv_lhs => rw [← List.take_append_drop stop text]
    exact List.drop_append_of_le_length hwithin
  rw [lineAfter, hdrop, List.takeWhile_append_of_pos (forall_ne_of_notMem h.clear)]
  rcases h.closed with rfl | hnewline
  · simp
  · obtain ⟨hstop, hchar⟩ := List.getElem?_eq_some_iff.mp hnewline
    rw [List.drop_eq_getElem_cons hstop, hchar]
    simp

theorem exists_endsLine {text : List Char} {offset : Nat} (hoffset : offset ≤ text.length) :
    ∃ stop, EndsLine text offset stop := by
  have hsplit := List.takeWhile_append_dropWhile (p := (· ≠ '\n')) (l := text.drop offset)
  have hafter : (text.take (offset + (lineAfter text offset).length)).drop offset =
      lineAfter text offset := by
    rw [List.drop_take, Nat.add_sub_cancel_left]
    exact (List.prefix_iff_eq_take.mp (List.takeWhile_prefix _)).symm
  refine ⟨offset + (lineAfter text offset).length, Nat.le_add_right .., ?_, ?_⟩
  · rw [hafter]
    exact notMem_takeWhile_ne '\n' _
  · cases hrest : (text.drop offset).dropWhile (· ≠ '\n') with
    | nil =>
        left
        rw [hrest, List.append_nil] at hsplit
        have hlength := congrArg List.length hsplit
        rw [List.length_drop] at hlength
        rw [lineAfter]
        omega
    | cons c rest =>
        right
        have hc := List.head_dropWhile_not (fun c => decide (c ≠ '\n'))
          (hrest ▸ List.cons_ne_nil c rest)
        simp only [hrest, List.head_cons] at hc
        obtain rfl : c = '\n' := by simpa using hc
        rw [← List.getElem?_drop, ← hsplit, hrest, lineAfter]
        simp

/-- The line around an offset is what stands between its two ends. -/
theorem lineAround_eq {text : List Char} {offset start stop : Nat}
    (hbegins : BeginsLine text offset start) (hends : EndsLine text offset stop) :
    lineAround text offset = (text.take stop).drop start := by
  have htake : text.take stop = text.take offset ++ (text.take stop).drop offset := by
    conv_lhs => rw [← List.take_append_drop offset (text.take stop), List.take_take,
      Nat.min_eq_left hends.le]
  have hwithin : start ≤ (text.take offset).length := by
    have := hbegins.le
    have := hends.le
    have := hends.le_length
    rw [List.length_take]
    omega
  rw [lineAround, hbegins.lineBefore_eq, hends.lineAfter_eq, htake,
    List.drop_append_of_le_length hwithin, ← htake]

/-! ### Texts with the same line ends -/

theorem lineNumber_congr {a b : List Char} (h : a.map (· == '\n') = b.map (· == '\n'))
    (n : Nat) : lineNumber a n = lineNumber b n := by
  have hcount (text : List Char) :
      (text.take n).count '\n' = ((text.map (· == '\n')).take n).count true := by
    rw [← List.map_take, List.count, List.count, List.countP_map]
    congr 1
    funext c
    simp
  rw [lineNumber, lineNumber, hcount, hcount, h]

theorem columnNumber_congr {a b : List Char} (h : a.map (· == '\n') = b.map (· == '\n'))
    (n : Nat) : columnNumber a n = columnNumber b n := by
  have hlength (text : List Char) :
      (lineBefore text n).length =
        (((text.map (· == '\n')).take n).reverse.takeWhile (!·)).length := by
    have htest : ((!·) ∘ fun c => c == '\n') = fun c => decide (c ≠ '\n') := by
      funext c
      rw [Bool.eq_iff_iff]
      simp
    rw [lineBefore, List.length_reverse, ← List.map_take, ← List.map_reverse,
      List.takeWhile_map, List.length_map, htest]
  rw [columnNumber, columnNumber, hlength, hlength, h]

end Tilde.Text

namespace Tilde.Location

open Text

/-- One place comes before another: on an earlier line, or on the same line
further to the left. -/
def Precedes (p q : Location) : Prop :=
  p.line < q.line ∨ p.line = q.line ∧ p.column < q.column

theorem ofOffset_append_left {a : List Char} {n : Nat} (hn : n ≤ a.length) (file : String)
    (b : List Char) : ofOffset file (a ++ b) n = ofOffset file a n := by
  rw [ofOffset, lineNumber_append_left hn, columnNumber_append_left hn, ofOffset]

theorem ofOffset_length_append (file : String) (a b : List Char) :
    ofOffset file (a ++ b) a.length = ofOffset file a a.length :=
  ofOffset_append_left (Nat.le_refl _) file b

theorem line_ofOffset_eq_one_iff (file : String) (text : List Char) (n : Nat) :
    (ofOffset file text n).line = 1 ↔ '\n' ∉ text.take n := by
  rw [← lineNumber_eq_one_iff]
  exact Int.natCast_inj

/-- The place that a place of a text has when another text is put in front. -/
def behind (front : List Char) (place : Location) : Location where
  file := place.file
  line := front.count '\n' + place.line
  column :=
    if place.line = 1 then (lineBefore front front.length).length + place.column
    else place.column

/-- An offset in the second part of a text has its place in this part, behind the
first. -/
theorem ofOffset_append_right (file : String) (a b : List Char) (n : Nat) :
    ofOffset file (a ++ b) (a.length + n) = (ofOffset file b n).behind a := by
  simp only [behind, line_ofOffset_eq_one_iff]
  simp only [ofOffset, lineNumber_append_right, columnNumber_append_right]
  by_cases hmem : '\n' ∈ b.take n
  · simp [hmem]
  · simp [hmem]

theorem ofOffset_precedes (file : String) {text : List Char} {m n : Nat} (hmn : m < n)
    (hn : n ≤ text.length) : (ofOffset file text m).Precedes (ofOffset file text n) := by
  -- cut at the earlier offset, where the second part of the text begins
  obtain ⟨k, rfl⟩ := Nat.exists_eq_add_of_lt hmn
  generalize hfirst : text.take m = first
  generalize hrest : text.drop m = rest
  have htext : text = first ++ rest := by rw [← hfirst, ← hrest, List.take_append_drop]
  have hm : m = first.length := by
    rw [← hfirst, List.length_take]
    omega
  subst htext hm
  simp only [List.length_append] at hn
  have hline : lineNumber (first ++ rest) first.length = first.count '\n' + 1 := by
    simpa using lineNumber_append_right first rest 0
  have hcolumn : columnNumber (first ++ rest) first.length =
      (lineBefore first first.length).length + 1 := by
    simpa using columnNumber_append_right first rest 0
  simp only [Precedes, ofOffset, Nat.add_assoc, hline, hcolumn, lineNumber_append_right,
    columnNumber_append_right]
  by_cases hmem : '\n' ∈ rest.take (k + 1)
  · left
    have hcount := List.count_pos_iff.mpr hmem
    rw [lineNumber]
    omega
  · right
    rw [if_neg hmem, (lineNumber_eq_one_iff rest (k + 1)).mpr hmem, columnNumber,
      lineBefore_of_notMem hmem, List.length_take]
    omega

/-- A place is that of no other offset. -/
theorem ofOffset_inj (file : String) {text : List Char} {m n : Nat} (hm : m ≤ text.length)
    (hn : n ≤ text.length) : ofOffset file text m = ofOffset file text n ↔ m = n := by
  have hirrefl (p : Location) : ¬p.Precedes p := by
    simp [Precedes]
  constructor
  · intro hplace
    rcases Nat.lt_trichotomy m n with hlt | heq | hlt
    · exact absurd (hplace ▸ ofOffset_precedes file hlt hn) (hirrefl _)
    · exact heq
    · exact absurd (hplace ▸ ofOffset_precedes file hlt hm) (hirrefl _)
  · rintro rfl
    rfl

/-- Where lines end decides the place of every offset. -/
theorem ofOffset_congr (file : String) {a b : List Char}
    (h : a.map (· == '\n') = b.map (· == '\n')) (n : Nat) :
    ofOffset file a n = ofOffset file b n := by
  rw [ofOffset, lineNumber_congr h, columnNumber_congr h, ofOffset]

end Tilde.Location
