import Mathlib.Data.List.TakeWhile
import Tilde.Proofs.Classes

/-!
The division of a text as a judgement, with one rule for each way in which a text
can begin. It names no search and no longest prefix: a span ends at a delimiter
that is not in its body, and a word stops short of a character that is not part
of words. Its classes and kinds are those of the scan, which is compared with it
step by step. The judgement holds of exactly one division, the one that is computed.
-/

namespace Tilde.Munch

open Alphabet SpanRule

/-- A division with more pieces in front. -/
def Division.prepend (pieces : List Piece) (division : Division) : Division :=
  { division with pieces := pieces ++ division.pieces }

@[simp] theorem Division.prepend_nil (division : Division) : division.prepend [] = division := rfl

theorem Division.prepend_append (front back : List Piece) (division : Division) :
    division.prepend (front ++ back) = (division.prepend back).prepend front := by
  simp [Division.prepend]

/-- A text at an offset of a longer one falls into the pieces of a division. -/
inductive Divides : Nat → List Char → Division → Prop
  | done {offset : Nat} : Divides offset [] ⟨[], none⟩
  | blank {offset : Nat} {c : Char} {rest : List Char} {division : Division}
      (hc : isBlank c = true) (hrest : Divides (offset + 1) rest division) :
      Divides offset (c :: rest) division
  | unclosed {offset : Nat} {c : Char} {rest : List Char} {rule : SpanRule}
      (hc : openedBy c = some rule) (hrest : c ∉ rest) :
      Divides offset (c :: rest) ⟨[], some ⟨offset, c⟩⟩
  | span {offset : Nat} {c : Char} {body rest : List Char} {rule : SpanRule}
      {division : Division} (hc : openedBy c = some rule) (hbody : c ∉ body)
      (hrest : Divides (offset + (body.length + 2)) rest division) :
      Divides offset (c :: body ++ c :: rest)
        (division.cons ⟨offset, c :: body ++ [c], rule.kind⟩)
  | single {offset : Nat} {c : Char} {rest : List Char} {division : Division}
      (hopened : openedBy c = none) (hc : splits c = true)
      (hrest : Divides (offset + 1) rest division) :
      Divides offset (c :: rest)
        (division.cons ⟨offset, [c], Lexeme.kindOf (String.singleton c)⟩)
  | word {offset : Nat} {chars rest : List Char} {division : Division}
      (hne : chars ≠ []) (hchars : ∀ c ∈ chars, isWordChar c = true)
      (hstop : startsInWord rest = false)
      (hrest : Divides (offset + chars.length) rest division) :
      Divides offset (chars ++ rest)
        (division.cons ⟨offset, chars, Lexeme.kindOf (String.ofList chars)⟩)

theorem Divides.prepend_span {offset : Nat} {c : Char} {body rest : List Char}
    {rule : SpanRule} {division : Division} (hc : openedBy c = some rule) (hbody : c ∉ body)
    (h : Divides (offset + (c :: body ++ [c]).length) rest division) :
    Divides offset ((c :: body ++ [c]) ++ rest)
      (division.cons ⟨offset, c :: body ++ [c], rule.kind⟩) := by
  have hlength : (c :: body ++ [c]).length = body.length + 2 := by simp
  rw [hlength] at h
  rw [List.append_assoc, List.singleton_append]
  exact .span hc hbody h

theorem of_dropWhile_eq_cons {α : Type} {test : α → Bool} {items rest : List α} {a : α}
    (hcut : items.dropWhile test = a :: rest) : test a = false := by
  have hhead := List.head?_dropWhile_not test items
  rwa [hcut] at hhead

theorem startsInWord_dropWhile (text : List Char) :
    startsInWord (text.dropWhile isWordChar) = false := by
  cases hcut : text.dropWhile isWordChar with
  | nil => rfl
  | cons c rest => exact (startsInWord_cons c rest).trans (of_dropWhile_eq_cons hcut)

/-- The computed division is a division. -/
theorem divides_divideFrom (offset : Nat) (text : List Char) :
    Divides offset text (divideFrom offset text) := by
  fun_induction divideFrom offset text with
  | case1 offset => exact .done
  | case2 offset c rest hblank ih => exact .blank ((isSpacing_eq c).symm.trans hblank) ih
  | case3 offset c rest hblank kind hkind hcut =>
      obtain ⟨rule, hopened, -⟩ := spanKind_eq_some_iff.mp hkind
      apply Divides.unclosed hopened
      intro hmem
      have hpassed := List.dropWhile_eq_nil_iff.mp hcut c hmem
      simp at hpassed
  | case4 offset c rest hblank kind hkind closing after hcut chars ih =>
      obtain ⟨rule, hopened, rfl⟩ := spanKind_eq_some_iff.mp hkind
      have hclosing : closing = c := by
        simpa using of_dropWhile_eq_cons hcut
      subst hclosing
      have hsplit := List.takeWhile_append_dropWhile (p := (· ≠ closing)) (l := rest)
      rw [hcut] at hsplit
      have hlength : chars.length = (rest.takeWhile (· ≠ closing)).length + 2 := by
        simp [chars]
      rw [hlength] at ih ⊢
      have hspan := Divides.span hopened (Text.notMem_takeWhile_ne closing rest) ih
      rw [List.cons_append, hsplit] at hspan
      exact hspan
  | case5 offset c rest hblank hspan kind hkind ih =>
      obtain ⟨hsplits, rfl⟩ := signKind_eq_some_iff.mp hkind
      exact .single (spanKind_eq_none_iff.mp hspan) hsplits ih
  | case6 offset c rest hblank hspan hsign chars ih =>
      have hc : isWordChar c = true := by
        rw [← isLetter_eq, isLetter, hspan, hsign]
        simpa using hblank
      have hchars : ∀ d ∈ chars, isWordChar d = true := by
        intro d hd
        rcases List.mem_cons.mp hd with rfl | hd
        · exact hc
        · rw [← isLetter_eq]
          exact List.all_eq_true.mp List.all_takeWhile d hd
      have hstop : startsInWord (rest.dropWhile isLetter) = false := by
        rw [isLetter_eq]
        exact startsInWord_dropWhile rest
      have hword := Divides.word (List.cons_ne_nil c _) hchars hstop ih
      rwa [← wordKind_eq, List.cons_append, List.takeWhile_append_dropWhile] at hword

/-! ### A text has one division only -/

theorem takeWhile_append_of_head? {test : Char → Bool} {chars rest : List Char}
    (hchars : ∀ c ∈ chars, test c = true) (hstop : rest.head?.any test = false) :
    (chars ++ rest).takeWhile test = chars := by
  rw [List.takeWhile_append_of_pos hchars]
  cases rest with
  | nil => simp
  | cons c rest =>
      have hc : test c = false := hstop
      simp [hc]

theorem dropWhile_append_of_head? {test : Char → Bool} {chars rest : List Char}
    (hchars : ∀ c ∈ chars, test c = true) (hstop : rest.head?.any test = false) :
    (chars ++ rest).dropWhile test = rest := by
  rw [List.dropWhile_append_of_pos hchars]
  cases rest with
  | nil => rfl
  | cons c rest =>
      have hc : test c = false := hstop
      simp [hc]

/-- A text is cut at the first occurrence of a character. -/
theorem takeWhile_ne_append_cons {c : Char} {chars : List Char} (hchars : c ∉ chars)
    (rest : List Char) : (chars ++ c :: rest).takeWhile (· ≠ c) = chars :=
  takeWhile_append_of_head? (Text.forall_ne_of_notMem hchars) (by simp)

theorem dropWhile_ne_append_cons {c : Char} {chars : List Char} (hchars : c ∉ chars)
    (rest : List Char) : (chars ++ c :: rest).dropWhile (· ≠ c) = c :: rest :=
  dropWhile_append_of_head? (Text.forall_ne_of_notMem hchars) (by simp)

/-- The judgement leaves no choice: a division of a text is the computed one. -/
theorem Divides.eq_divideFrom {offset : Nat} {text : List Char} {division : Division}
    (h : Divides offset text division) : division = divideFrom offset text := by
  induction h with
  | done => rw [divideFrom]
  | blank hc _ ih => rw [divideFrom, isSpacing_eq, if_pos hc, ih]
  | @unclosed offset c rest rule hc hrest =>
      have hcut : rest.dropWhile (· ≠ c) = [] :=
        List.dropWhile_eq_nil_iff.mpr (Text.forall_ne_of_notMem hrest)
      rw [divideFrom, isSpacing_eq, isBlank_of_openedBy hc, if_neg Bool.false_ne_true]
      simp only [spanKind_eq_some_iff.mpr ⟨rule, hc, rfl⟩]
      split
      · rfl
      · rename_i hfound
        rw [hcut] at hfound
        cases hfound
  | @span offset c body rest rule division hc hbody _ ih =>
      have hcut := dropWhile_ne_append_cons hbody rest
      have htake := takeWhile_ne_append_cons hbody rest
      change _ = divideFrom offset (c :: (body ++ c :: rest))
      rw [divideFrom, isSpacing_eq, isBlank_of_openedBy hc, if_neg Bool.false_ne_true]
      simp only [spanKind_eq_some_iff.mpr ⟨rule, hc, rfl⟩]
      split
      · rename_i hfound
        rw [hcut] at hfound
        cases hfound
      · rename_i closing after hfound
        rw [hcut] at hfound
        cases hfound
        simp only [htake, ih]
        simp
  | @single offset c rest division hopened hc _ ih =>
      have hblank : isBlank c = false := by
        cases hblank : isBlank c with
        | false => rfl
        | true => simp [splits_of_isBlank hblank] at hc
      rw [divideFrom, isSpacing_eq, hblank, if_neg Bool.false_ne_true, ih]
      simp only [spanKind_eq_none_iff.mpr hopened, signKind_eq_some_iff.mpr ⟨hc, rfl⟩]
  | @word offset chars rest division hne hchars hstop _ ih =>
      obtain ⟨c, letters, rfl⟩ := List.exists_cons_of_ne_nil hne
      obtain ⟨hc, hletters⟩ := List.forall_mem_cons.mp hchars
      obtain ⟨hblank, hsplits, -⟩ := (isWordChar_iff c).mp hc
      change _ = divideFrom offset (c :: (letters ++ rest))
      rw [divideFrom, isSpacing_eq, hblank, if_neg Bool.false_ne_true, ih]
      simp only [spanKind_eq_none_iff.mpr (openedBy_of_isWordChar hc),
        signKind_eq_none_iff.mpr hsplits, isLetter_eq, wordKind_eq,
        takeWhile_append_of_head? hletters hstop, dropWhile_append_of_head? hletters hstop]

theorem Divides.unique {offset : Nat} {text : List Char} {first second : Division}
    (hfirst : Divides offset text first) (hsecond : Divides offset text second) :
    first = second :=
  hfirst.eq_divideFrom.trans hsecond.eq_divideFrom.symm

/-! ### Blanks and words before the rest -/

/-- Blanks in front of a text are dropped. -/
theorem Divides.prepend_blanks {offset : Nat} {blanks rest : List Char}
    {division : Division} (hblanks : ∀ c ∈ blanks, isBlank c = true)
    (h : Divides (offset + blanks.length) rest division) :
    Divides offset (blanks ++ rest) division := by
  induction blanks generalizing offset with
  | nil => exact h
  | cons c blanks ih =>
      obtain ⟨hc, hblanks⟩ := List.forall_mem_cons.mp hblanks
      apply Divides.blank hc
      apply ih hblanks
      rwa [Nat.add_assoc, Nat.add_comm 1]

/-- The piece that characters make whose kind is that of their lexeme. -/
def lexemePiece (offset : Nat) (chars : List Char) : Piece :=
  ⟨offset, chars, Lexeme.kindOf (String.ofList chars)⟩

/-- The piece of a word, if it has any characters. -/
def wordPieces (offset : Nat) (chars : List Char) : List Piece :=
  if chars = [] then [] else [lexemePiece offset chars]

theorem mem_wordPieces {offset : Nat} {chars : List Char} {piece : Piece} :
    piece ∈ wordPieces offset chars ↔ chars ≠ [] ∧ piece = lexemePiece offset chars := by
  rw [wordPieces]
  split <;> simp_all

/-- A word that may still be empty goes before what follows it. -/
theorem Divides.prepend_wordPieces {offset : Nat} {chars rest : List Char}
    {division : Division} (hchars : ∀ c ∈ chars, isWordChar c = true)
    (hstop : startsInWord rest = false) (h : Divides (offset + chars.length) rest division) :
    Divides offset (chars ++ rest) (division.prepend (wordPieces offset chars)) := by
  by_cases hne : chars = []
  · subst hne
    exact h
  · rw [wordPieces, if_neg hne]
    exact .word hne hchars hstop h

end Tilde.Munch
