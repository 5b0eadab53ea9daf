import Tilde.Proofs.Lines
import Tilde.Span

/-!
What a reader has ahead of it decides what it can look at, where it can move and
which spans it reads; this holds of every reader that is not before its text,
whatever its line and column. A reader that has passed the whole of a part of its
text, one character after the other, also has the line and column of the offset
that it is at.
-/

namespace Tilde.Reader

/-- The characters from the reader on. -/
def ahead (r : Reader) : List Char :=
  r.text.toList.drop r.index.toNat

/-- The reader after the characters of a list have been passed. -/
def passAll (r : Reader) (chars : List Char) : Reader :=
  chars.foldl pass r

@[simp] theorem passAll_nil (r : Reader) : r.passAll [] = r := rfl

@[simp] theorem passAll_cons (r : Reader) (c : Char) (chars : List Char) :
    r.passAll (c :: chars) = (r.pass c).passAll chars := rfl

theorem passAll_append (r : Reader) (front back : List Char) :
    r.passAll (front ++ back) = (r.passAll front).passAll back :=
  List.foldl_append

@[simp] theorem index_passAll (r : Reader) (chars : List Char) :
    (r.passAll chars).index = r.index + chars.length := by
  induction chars generalizing r with
  | nil => simp
  | cons c chars ih =>
      rw [passAll_cons, ih, index_pass, List.length_cons]
      omega

@[simp] theorem text_passAll (r : Reader) (chars : List Char) :
    (r.passAll chars).text = r.text := by
  induction chars generalizing r with
  | nil => rfl
  | cons c chars ih => rw [passAll_cons, ih, text_pass]

theorem line_passAll (r : Reader) (chars : List Char) :
    (r.passAll chars).line = r.line + chars.count '\n' := by
  induction chars generalizing r with
  | nil => simp
  | cons c chars ih =>
      rw [passAll_cons, ih, List.count_cons, pass]
      by_cases hc : c = '\n'
      · simp [hc]
        omega
      · simp [hc]

/-- Characters on one line take a column each. -/
theorem column_passAll_of_notMem {chars : List Char} (hclear : '\n' ∉ chars) (r : Reader) :
    (r.passAll chars).column = r.column + chars.length := by
  induction chars generalizing r with
  | nil => simp
  | cons c chars ih =>
      obtain ⟨hc, hclear⟩ := List.ne_and_not_mem_of_not_mem_cons hclear
      rw [passAll_cons, ih hclear, pass, if_neg (Ne.symm hc), List.length_cons]
      dsimp only
      omega

/-- After a line end the column does not depend on what came before. -/
theorem column_passAll_of_newline (front : List Char) {back : List Char}
    (hclear : '\n' ∉ back) (r : Reader) :
    (r.passAll (front ++ '\n' :: back)).column = 1 + back.length := by
  rw [passAll_append, passAll_cons, column_passAll_of_notMem hclear, pass, if_pos rfl]

/-! ### Looking outside the text -/

theorem charAt?_eq_none_iff {r : Reader} {position : Int} :
    r.charAt? position = none ↔ position < 0 ∨ r.size ≤ position := by
  rw [charAt?]
  split
  · rw [Array.getElem?_eq_none_iff, size]
    omega
  · simp
    omega

theorem peek_of_outside {r : Reader} {offset : Int}
    (h : r.index + offset < 0 ∨ r.size ≤ r.index + offset) :
    r.peek offset = .error (.underrun (r.index + offset) r.size) := by
  rw [peek, charAt?_eq_none_iff.mpr h]

/-- Looking succeeds inside the text and nowhere else. -/
theorem exists_peek_eq_ok_iff {r : Reader} {offset : Int} :
    (∃ c, r.peek offset = .ok c) ↔ 0 ≤ r.index + offset ∧ r.index + offset < r.size := by
  simp only [peek_eq_ok_iff, ← Option.isSome_iff_exists]
  rw [Option.isSome_iff_ne_none, ne_eq, charAt?_eq_none_iff]
  omega

theorem advance_of_outside {r : Reader} (h : r.index < 0 ∨ r.size ≤ r.index) :
    r.advance = .error (.underrun r.index r.size) := by
  rw [← Int.add_zero r.index] at h
  rw [advance, current, peek_of_outside h, Int.add_zero]

/-! ### Looking ahead -/

theorem charAt?_index_add {r : Reader} (hr : 0 ≤ r.index) (k : Nat) :
    r.charAt? (r.index + k) = r.ahead[k]? := by
  have hk : (r.index + k).toNat = r.index.toNat + k := by omega
  rw [charAt?, if_pos (by omega), hk, ahead, List.getElem?_drop, Array.getElem?_toList]

theorem peek_of_ahead {r : Reader} (hr : 0 ≤ r.index) {k : Nat} {c : Char}
    (hk : r.ahead[k]? = some c) : r.peek k = .ok c :=
  peek_eq_ok_iff.mpr ((charAt?_index_add hr k).trans hk)

theorem current_of_ahead {r : Reader} (hr : 0 ≤ r.index) {c : Char} {rest : List Char}
    (hahead : r.ahead = c :: rest) : r.current = .ok c :=
  peek_of_ahead hr (k := 0) (by simp [hahead])

theorem next_of_ahead {r : Reader} (hr : 0 ≤ r.index) {c d : Char} {rest : List Char}
    (hahead : r.ahead = c :: d :: rest) : r.next = .ok d :=
  peek_of_ahead hr (k := 1) (by simp [hahead])

theorem ahead_pass {r : Reader} (hr : 0 ≤ r.index) {c : Char} {rest : List Char}
    (hahead : r.ahead = c :: rest) : (r.pass c).ahead = rest := by
  have hindex : (r.index + 1).toNat = r.index.toNat + 1 := by omega
  rw [ahead, text_pass, index_pass, hindex, ← List.drop_drop, ← ahead, hahead,
    List.drop_one, List.tail_cons]

theorem advance_of_ahead {r : Reader} (hr : 0 ≤ r.index) {c : Char} {rest : List Char}
    (hahead : r.ahead = c :: rest) : r.advance = .ok (r.pass c) := by
  rw [advance, current_of_ahead hr hahead]

theorem ahead_passAll {r : Reader} (hr : 0 ≤ r.index) {chars rest : List Char}
    (hahead : r.ahead = chars ++ rest) : (r.passAll chars).ahead = rest := by
  induction chars generalizing r with
  | nil => exact hahead
  | cons c chars ih =>
      exact ih (by rw [index_pass]; omega) (ahead_pass hr hahead)

theorem length_ahead (r : Reader) : r.ahead.length = r.size - r.index.toNat := by
  simp [ahead, size]

theorem hasNext_eq {r : Reader} (hr : 0 ≤ r.index) :
    r.hasNext = decide (1 < r.ahead.length) := by
  rw [hasNext, length_ahead, decide_eq_decide]
  omega

theorem isDone_eq {r : Reader} (hr : 0 ≤ r.index) :
    r.isDone = decide (r.ahead.length = 0) := by
  rw [isDone, length_ahead, decide_eq_decide]
  omega

theorem toList_between {text : Array Char} {start stop : Nat} (hstart : start ≤ stop)
    (hstop : stop ≤ text.size) :
    (Text.Slice.between text start stop).toList =
      (text.toList.drop start).take (stop - start) := by
  rw [Text.Slice.between, Text.Slice.bound_ofNat (hstart.trans hstop),
    Text.Slice.bound_ofNat hstop, Array.toList_extract, List.extract_eq_take_drop]

theorem findFrom?_eq {text : Array Char} {start : Nat} (hstart : start ≤ text.size)
    (test : Char → Bool) :
    Text.Slice.findFrom? text start test =
      ((text.toList.drop start).findIdx? test).map (start + ·) := by
  have hlength : (text.toList.drop start).length ≤ text.size - start := by simp
  have hextract : text.extract start text.size = (text.toList.drop start).toArray := by
    rw [← Array.toList_inj, Array.toList_extract, List.extract_eq_take_drop,
      List.take_of_length_le hlength]
  rw [Text.Slice.findFrom?, Text.Slice.bound_ofNat hstart, hextract, List.findIdx?_toArray]

/-- Where the column is right for a line that begins at an offset, the whole line is
what stands from there up to the next line end. -/
theorem wholeLine_eq {r : Reader} {start : Nat} (hstart : r.index - (r.column - 1) = start)
    (hsize : start ≤ r.text.size) :
    r.wholeLine = String.ofList ((r.text.toList.drop start).takeWhile (· ≠ '\n')) := by
  have htest : (fun c => !decide (c ≠ '\n')) = (fun c : Char => c == '\n') := by
    funext c
    rw [Bool.eq_iff_iff]
    simp
  have hlength : (r.text.toList.drop start).length = r.text.size - start := by simp
  rw [wholeLine, hstart, findFrom?_eq hsize, List.takeWhile_eq_take_findIdx_not, htest]
  cases hfind : (r.text.toList.drop start).findIdx? (· == '\n') with
  | none =>
      rw [List.findIdx?_eq_none_iff_findIdx_eq.mp hfind, hlength]
      exact congrArg String.ofList (toList_between hsize (Nat.le_refl r.size))
  | some k =>
      obtain ⟨hk, hindex⟩ := List.findIdx?_eq_some_iff_findIdx_eq.mp hfind
      rw [hindex, Option.map_some]
      dsimp only
      rw [toList_between (Nat.le_add_right ..) (by omega), Nat.add_sub_cancel_left]

/-! ### Readers in step with their text -/

/-- The reader that has passed a part of its text from the start on. -/
def between (passed ahead : List Char) : Reader where
  text := (passed ++ ahead).toArray
  index := passed.length
  line := Text.lineNumber passed passed.length
  column := Text.columnNumber passed passed.length

theorem ofString_eq_between (text : String) : ofString text = between [] text.toList := by
  rfl

theorem index_between_nonneg (passed rest : List Char) :
    0 ≤ (between passed rest).index :=
  Int.natCast_nonneg _

@[simp] theorem ahead_between (passed rest : List Char) :
    (between passed rest).ahead = rest := by
  simp [ahead, between]

theorem current_between (passed : List Char) (c : Char) (rest : List Char) :
    (between passed (c :: rest)).current = .ok c :=
  current_of_ahead (index_between_nonneg ..) (ahead_between ..)

theorem next_between (passed : List Char) (c d : Char) (rest : List Char) :
    (between passed (c :: d :: rest)).next = .ok d :=
  next_of_ahead (index_between_nonneg ..) (ahead_between ..)

theorem hasNext_between (passed rest : List Char) :
    (between passed rest).hasNext = decide (1 < rest.length) := by
  rw [hasNext_eq (index_between_nonneg ..), ahead_between]

theorem previous_between (passed rest : List Char) :
    (between passed rest).previous = .ok passed.getLast? := by
  rcases List.eq_nil_or_concat passed with rfl | ⟨front, c, rfl⟩
  · rfl
  · have hindex : (between (front.concat c) rest).index = front.length + 1 := by
      simp [between]
    have hback : ((front.length : Int) + 1 + -1).toNat = front.length := by omega
    have hchar : (between (front.concat c) rest).charAt?
        ((between (front.concat c) rest).index + -1) = some c := by
      rw [charAt?_eq_some_iff, hindex, hback]
      exact ⟨by omega, by simp [between]⟩
    rw [previous, if_neg (by omega), peek_eq_ok_iff.mpr hchar, List.concat_eq_append,
      List.getLast?_concat]
    rfl

/-- A character passed moves the reader on by one, to the place of the next offset. -/
theorem pass_between (passed : List Char) (c : Char) (rest : List Char) :
    (between passed (c :: rest)).pass c = between (passed ++ [c]) rest := by
  have hhere : Text.lineNumber passed passed.length = passed.count '\n' + 1 := by
    rw [Text.lineNumber, List.take_length]
  have hline := Text.lineNumber_append_right passed [c] 1
  have hcolumn := Text.columnNumber_append_right passed [c] 1
  rw [pass]
  split
  · rename_i hc
    subst hc
    simp only [between, Reader.mk.injEq, List.length_append, List.length_singleton, hline,
      hcolumn, hhere]
    refine ⟨by simp, by omega, ?_, rfl⟩
    rw [show Text.lineNumber ['\n'] 1 = 2 from rfl]
    omega
  · rename_i hc
    have hclear : '\n' ∉ [c].take 1 := by simpa using Ne.symm hc
    have hcolumns : Text.columnNumber [c] 1 = 2 := by
      rw [Text.columnNumber, Text.lineBefore_of_notMem hclear]
      rfl
    rw [if_neg hclear, hcolumns] at hcolumn
    rw [(Text.lineNumber_eq_one_iff [c] 1).mpr hclear] at hline
    simp only [between, Reader.mk.injEq, List.length_append, List.length_singleton, hline,
      hcolumn, hhere]
    refine ⟨by simp, by omega, trivial, ?_⟩
    rw [Text.columnNumber]
    omega

theorem advance_between (passed : List Char) (c : Char) (rest : List Char) :
    (between passed (c :: rest)).advance = .ok (between (passed ++ [c]) rest) := by
  rw [advance_of_ahead (index_between_nonneg ..) (ahead_between ..), pass_between]

theorem passAll_between (passed chars rest : List Char) :
    (between passed (chars ++ rest)).passAll chars = between (passed ++ chars) rest := by
  induction chars generalizing passed with
  | nil => simp
  | cons c chars ih =>
      rw [List.cons_append, passAll_cons, pass_between, ih, List.append_assoc,
        List.singleton_append]

theorem location_between (file : String) (passed rest : List Char) :
    (between passed rest).location file =
      Location.ofOffset file (passed ++ rest) passed.length := by
  rw [Location.ofOffset_length_append]
  rfl

theorem wholeLine_between (passed rest : List Char) :
    (between passed rest).wholeLine =
      String.ofList (Text.lineAround (passed ++ rest) passed.length) := by
  obtain ⟨above, habove, -⟩ := Text.take_eq_append_lineBefore passed passed.length
  rw [List.take_length] at habove
  have hlength := congrArg List.length habove
  rw [List.length_append] at hlength
  have hstart : (between passed rest).index - ((between passed rest).column - 1) =
      above.length := by
    simp only [between, Text.columnNumber]
    omega
  have hdrop : (passed ++ rest).drop above.length =
      Text.lineBefore passed passed.length ++ rest := by
    conv_lhs => rw [habove, List.append_assoc, List.drop_left]
  rw [wholeLine_eq hstart (by simp [between]; omega)]
  simp only [between, hdrop]
  have hclear : '\n' ∉ Text.lineBefore passed passed.length := by
    rw [Text.lineBefore, List.mem_reverse]
    exact Text.notMem_takeWhile_ne '\n' _
  rw [List.takeWhile_append_of_pos (Text.forall_ne_of_notMem hclear), Text.lineAround,
    Text.lineBefore_append_left (Nat.le_refl _), Text.lineAfter, List.drop_left]

end Tilde.Reader

namespace Tilde.SpanRule

open Reader

variable {rule : SpanRule}

/-- What reading a body does with the character that it is on. -/
theorem readBody_of_ahead {r : Reader} (hr : 0 ≤ r.index) {c : Char} {rest : List Char}
    (hahead : r.ahead = c :: rest) (body : String) :
    rule.readBody r body =
      if rule.delimits (String.singleton c) then .ok (some (body, r))
      else rule.readBody (r.pass c) (body.push c) := by
  have hcurrent := current_of_ahead hr hahead
  have hdone : r.isDone = false := by simp [isDone_eq hr, hahead]
  rw [readBody, hdone, if_neg Bool.false_ne_true]
  split
  · rename_i hfault
    simp [hcurrent] at hfault
  · rename_i d hd
    obtain rfl : d = c := by simpa [hd] using hcurrent
    rfl

/-- A body is read up to the first delimiter ahead, which is not passed. -/
theorem readBody_of_closed {closing : Char} {chars rest : List Char}
    (hchars : ∀ c ∈ chars, rule.delimits (String.singleton c) = false)
    (hclosing : rule.delimits (String.singleton closing) = true) {r : Reader}
    (hr : 0 ≤ r.index) (hahead : r.ahead = chars ++ closing :: rest) (body : String) :
    rule.readBody r body = .ok (some (body ++ String.ofList chars, r.passAll chars)) := by
  induction chars generalizing r body with
  | nil =>
      rw [readBody_of_ahead hr hahead, if_pos hclosing]
      simp
  | cons c chars ih =>
      obtain ⟨hc, hchars⟩ := List.forall_mem_cons.mp hchars
      rw [readBody_of_ahead hr hahead, hc, if_neg Bool.false_ne_true,
        ih hchars (by rw [index_pass]; omega) (ahead_pass hr hahead), passAll_cons,
        String.push_eq_append, String.ofList_cons, String.append_assoc]

/-- Without a delimiter ahead, no body is read. -/
theorem readBody_of_unclosed {chars : List Char}
    (hchars : ∀ c ∈ chars, rule.delimits (String.singleton c) = false) {r : Reader}
    (hr : 0 ≤ r.index) (hahead : r.ahead = chars) (body : String) :
    rule.readBody r body = .ok none := by
  induction chars generalizing r body with
  | nil =>
      rw [readBody, isDone_eq hr, hahead]
      rfl
  | cons c chars ih =>
      obtain ⟨hc, hchars⟩ := List.forall_mem_cons.mp hchars
      rw [readBody_of_ahead hr hahead, hc, if_neg Bool.false_ne_true]
      exact ih hchars (by rw [index_pass]; omega) (ahead_pass hr hahead) (body.push c)

/-- A span goes from the reader, whatever stands there, to the first delimiter
after it. -/
theorem read_of_closed {start : Reader} (hstart : 0 ≤ start.index) {c closing : Char}
    {chars rest : List Char} (hahead : start.ahead = c :: chars ++ closing :: rest)
    (hchars : ∀ c ∈ chars, rule.delimits (String.singleton c) = false)
    (hclosing : rule.delimits (String.singleton closing) = true) (file : String) :
    rule.read start file = .ok
      { token := ⟨rule.delimiter ++ String.ofList chars ++ rule.delimiter, rule.kind,
          some (start.location file)⟩
        start := start
        length := chars.length
        after := start.passAll (c :: chars ++ [closing]) } := by
  have hpass : 0 ≤ (start.pass c).index := by rw [index_pass]; omega
  have hbody : (start.pass c).ahead = chars ++ closing :: rest := ahead_pass hstart hahead
  have hend : 0 ≤ ((start.pass c).passAll chars).index := by
    rw [index_passAll]
    omega
  have hopened := advance_of_ahead hstart hahead
  have hread := readBody_of_closed hchars hclosing hpass hbody ""
  have hclosed := advance_of_ahead hend (ahead_passAll hpass hbody)
  simp [SpanRule.read, hopened, hread, hclosed, bind, Except.bind, pure, Except.pure,
    passAll_append]

/-- A span that no delimiter closes is a fault at the reader. -/
theorem read_of_unclosed {start : Reader} (hstart : 0 ≤ start.index) {c : Char}
    {chars : List Char} (hahead : start.ahead = c :: chars)
    (hchars : ∀ c ∈ chars, rule.delimits (String.singleton c) = false) (file : String) :
    rule.read start file = .error (rule.unterminated start file) := by
  have hpass : 0 ≤ (start.pass c).index := by rw [index_pass]; omega
  have hopened := advance_of_ahead hstart hahead
  have hread := readBody_of_unclosed hchars hpass (ahead_pass hstart hahead) ""
  simp [SpanRule.read, hopened, hread, bind, Except.bind]

end Tilde.SpanRule
