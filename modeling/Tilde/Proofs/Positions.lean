import Tilde.Proofs.Readings

/-!
Where a reader is. A reader that began at the start of its text can pass every character
of it and no more, and after each of them it is in step with the text: its line and
column are those of the offset that it has come to. So its line and column tell how far
it has come, and it finds its line again by going back as many characters as the column
says, also from a line end and from the end of the text.
-/

namespace Tilde.Reader

open Text

/-- A reader is in step with a text at an offset. -/
structure InStep (text : List Char) (n : Nat) (r : Reader) : Prop where
  text_eq : r.text.toList = text
  index_eq : r.index = n
  line_eq : r.line = 1 + (text.take n).count '\n'
  column_eq : ∃ start, BeginsLine text n start ∧ r.column = n + 1 - start
  /-- It sees what is in the text and nothing else. -/
  peek_iff : ∀ k : Int, (∃ c, r.peek k = .ok c) ↔ 0 ≤ n + k ∧ n + k < text.length
  peek_eq : ∀ (k : Int) (c : Char), r.peek k = .ok c → text[(n + k).toNat]? = some c
  /-- The line it shows is the part of the text between the line ends around it. -/
  wholeLine_eq : ∃ start stop, BeginsLine text n start ∧ EndsLine text n stop ∧
    r.wholeLine = String.ofList ((text.take stop).drop start)

theorem inStep_between (passed rest : List Char) :
    (between passed rest).InStep (passed ++ rest) passed.length := by
  have hoffset : passed.length ≤ (passed ++ rest).length := by
    rw [List.length_append]
    omega
  obtain ⟨start, hbegins, hcolumn⟩ := exists_beginsLine hoffset
  obtain ⟨stop, hends⟩ := exists_endsLine hoffset
  have hle := hbegins.le
  constructor
  · rfl
  · rfl
  · rw [List.take_left]
    simp only [between, lineNumber, List.take_length]
    omega
  · refine ⟨start, hbegins, ?_⟩
    rw [columnNumber_append_left (Nat.le_refl _)] at hcolumn
    simp only [between, hcolumn]
    omega
  · intro k
    rw [exists_peek_eq_ok_iff]
    simp [between, size]
  · intro k c hk
    have hchar := (charAt?_eq_some_iff.mp (peek_eq_ok_iff.mp hk)).2
    simpa [between] using hchar
  · exact ⟨start, stop, hbegins, hends, by rw [wholeLine_between, lineAround_eq hbegins hends]⟩

/-- A reader that is in step can pass as many characters as it has ahead of it. -/
theorem advanceBy_between_eq_ok_iff {passed rest : List Char} {n : Nat} {r : Reader} :
    (between passed rest).advanceBy n = .ok r ↔
      n ≤ rest.length ∧ r = between (passed ++ rest.take n) (rest.drop n) := by
  induction n generalizing passed rest with
  | zero => simp [advanceBy, eq_comm]
  | succ n ih =>
      cases rest with
      | nil =>
          have hstop : (between passed []).advance = .error (.underrun passed.length _) :=
            advance_of_outside (.inr (by simp [between, size]))
          simp [advanceBy, hstop]
      | cons c rest =>
          rw [advanceBy, advance_between]
          dsimp only
          rw [ih]
          simp

theorem exists_advanceBy_ofString_iff {text : String} {n : Nat} :
    (∃ r, (ofString text).advanceBy n = .ok r) ↔ n ≤ text.length := by
  simp [ofString_eq_between, advanceBy_between_eq_ok_iff, String.length_toList]

/-- The reader after a number of characters has these behind it. -/
theorem exists_between_of_advanceBy {text : String} {n : Nat} {r : Reader}
    (h : (ofString text).advanceBy n = .ok r) :
    ∃ passed rest, text.toList = passed ++ rest ∧ n = passed.length ∧
      r = between passed rest := by
  rw [ofString_eq_between, advanceBy_between_eq_ok_iff] at h
  obtain ⟨hn, rfl⟩ := h
  refine ⟨text.toList.take n, text.toList.drop n, ?_, ?_, rfl⟩
  · rw [List.take_append_drop]
  · rw [List.length_take, Nat.min_eq_left hn]

theorem inStep_of_advanceBy {text : String} {n : Nat} {r : Reader}
    (h : (ofString text).advanceBy n = .ok r) : r.InStep text.toList n := by
  obtain ⟨passed, rest, htext, rfl, rfl⟩ := exists_between_of_advanceBy h
  rw [htext]
  exact inStep_between passed rest

theorem location_of_advanceBy {text : String} {n : Nat} {r : Reader}
    (h : (ofString text).advanceBy n = .ok r) (file : String) :
    n ≤ text.toList.length ∧ r.location file = Location.ofOffset file text.toList n := by
  obtain ⟨passed, rest, htext, rfl, rfl⟩ := exists_between_of_advanceBy h
  rw [htext, location_between, List.length_append]
  exact ⟨Nat.le_add_right .., rfl⟩

/-- A text can be passed to its end, and its reader is in step with it all the way. Of two
readers of the text the one with the greater index has the later place, and none but
readers with the same index have the same place. -/
theorem advanceBy_ofString (text : String) :
    (∀ n, (∃ r, (ofString text).advanceBy n = .ok r) ↔ n ≤ text.length) ∧
    (∀ n r, (ofString text).advanceBy n = .ok r → r.InStep text.toList n) ∧
    ∀ m n q r, (ofString text).advanceBy m = .ok q → (ofString text).advanceBy n = .ok r →
      ∀ file, (q.index < r.index → (q.location file).Precedes (r.location file)) ∧
        (q.location file = r.location file → q.index = r.index) := by
  refine ⟨fun n => exists_advanceBy_ofString_iff, fun n r => inStep_of_advanceBy, ?_⟩
  · intro m n q r hq hr file
    obtain ⟨hm, hqplace⟩ := location_of_advanceBy hq file
    obtain ⟨hn, hrplace⟩ := location_of_advanceBy hr file
    rw [(inStep_of_advanceBy hq).index_eq, (inStep_of_advanceBy hr).index_eq, hqplace, hrplace,
      Location.ofOffset_inj file hm hn, Int.ofNat_lt, Int.ofNat_inj]
    exact ⟨fun hlt => Location.ofOffset_precedes file hlt hn, id⟩

/-- A text that ends in an empty line: the reader on the last line end, which is alone on
its line, and the one past it. -/
theorem advanceBy_ofString_empty_line :
    (ofString "do\n\n").advanceBy 3 = .ok ⟨#['d', 'o', '\n', '\n'], 3, 2, 1⟩ ∧
      (ofString "do\n\n").advanceBy 4 = .ok ⟨#['d', 'o', '\n', '\n'], 4, 3, 1⟩ ∧
      (∀ n, (∃ r, (ofString "do\n\n").advanceBy n = .ok r) ↔ n ≤ 4) ∧
      InStep ['d', 'o', '\n', '\n'] 3 ⟨#['d', 'o', '\n', '\n'], 3, 2, 1⟩ ∧
      InStep ['d', 'o', '\n', '\n'] 4 ⟨#['d', 'o', '\n', '\n'], 4, 3, 1⟩ ∧
      (Location.mk "m.tl" 2 1).Precedes ⟨"m.tl", 3, 1⟩ := by
  have hon : (ofString "do\n\n").advanceBy 3 = .ok ⟨#['d', 'o', '\n', '\n'], 3, 2, 1⟩ := by
    decide +kernel
  have hpast : (ofString "do\n\n").advanceBy 4 = .ok ⟨#['d', 'o', '\n', '\n'], 4, 3, 1⟩ := by
    decide +kernel
  obtain ⟨hlength, hstep, hplace⟩ := advanceBy_ofString "do\n\n"
  exact ⟨hon, hpast, hlength, hstep 3 _ hon, hstep 4 _ hpast,
    (hplace 3 4 _ _ hon hpast "m.tl").1 (by decide)⟩

end Tilde.Reader
