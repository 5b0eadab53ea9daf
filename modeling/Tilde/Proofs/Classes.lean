import Mathlib.Data.List.Nodup
import Tilde.Munch
import Tilde.Source

/-!
The classes of characters as a scan meets them. A character is a blank, or it
opens a span, or it splits words and is a lexeme by itself, or it is part of
words, and it is exactly one of these. All that is used of the table of fixed
lexemes later on is stated here.

The classes and kinds that the division of a text spells out are compared with
those of the scan at the end, once for all.
-/

namespace Tilde

/-- Whether the tokens of a kind are spans. -/
def Kind.isSpan (kind : Kind) : Bool :=
  kind == .comment || kind == .stringLiteral

/-- No spelling is listed twice, so looking one up finds its only entry. -/
theorem Lexeme.lookup_fixed_iff {lexeme : String} {kind : Kind} :
    fixed.lookup lexeme = some kind ↔ (lexeme, kind) ∈ fixed := by
  have hsound : ∀ found, fixed.lookup lexeme = some found → (lexeme, found) ∈ fixed := by
    intro found hfound
    obtain ⟨before, after, hentry, -⟩ := List.lookup_eq_some_iff.mp hfound
    exact hentry ▸ by simp
  refine ⟨hsound kind, fun hmem => ?_⟩
  cases hfound : fixed.lookup lexeme with
  | none => simpa using List.lookup_eq_none_iff.mp hfound _ hmem
  | some found =>
      have hentry := List.inj_on_of_nodup_map nodup_fixed (hsound found hfound) hmem rfl
      rw [(Prod.mk.inj hentry).2]

theorem Lexeme.kindOf_of_mem_fixed {lexeme : String} {kind : Kind}
    (h : (lexeme, kind) ∈ fixed) : kindOf lexeme = kind := by
  rw [kindOf, lookup_fixed_iff.mpr h]

theorem Lexeme.mem_ofCategory_iff {lexeme : String} {category : Category} :
    lexeme ∈ ofCategory category ↔
      ∃ kind, (lexeme, kind) ∈ fixed ∧ kind.category = category := by
  simp [ofCategory]

/-- The kind of a lexeme is that of its entry in the table, or else there is no entry. -/
theorem Lexeme.mem_fixed_or_kindOf_eq (lexeme : String) :
    (lexeme, kindOf lexeme) ∈ fixed ∨
      kindOf lexeme = .numericLiteral ∨ kindOf lexeme = .identifier := by
  rw [kindOf]
  split
  · rename_i kind hkind
    exact .inl (lookup_fixed_iff.mp hkind)
  · split
    · exact .inr (.inl rfl)
    · exact .inr (.inr rfl)

/-- No lexeme but the tilde alone has the kind of a span. -/
theorem Lexeme.isSpan_kindOf {lexeme : String} (h : '~' ∉ lexeme.toList) :
    (kindOf lexeme).isSpan = false := by
  have htable : fixed.all (fun entry => !entry.2.isSpan || entry.1 == "~") = true := by
    decide +kernel
  rcases mem_fixed_or_kindOf_eq lexeme with hmem | hkind | hkind
  · have hentry := List.all_eq_true.mp htable _ hmem
    have hne : lexeme ≠ "~" := by
      rintro rfl
      exact h (by decide)
    simpa [hne] using hentry
  · rw [hkind]
    rfl
  · rw [hkind]
    rfl

end Tilde

namespace Tilde.Alphabet

theorem isBlank_iff (c : Char) : isBlank c = true ↔ c = ' ' ∨ c = '\t' ∨ c = '\n' := by
  simp [isBlank, blankChars_eq]

theorem mem_singles {lexemes : List String} {c : Char} :
    c ∈ singles lexemes ↔ String.singleton c ∈ lexemes := by
  rw [singles, List.mem_filterMap]
  constructor
  · rintro ⟨lexeme, hmem, hc⟩
    split at hc
    · rename_i d hd
      obtain rfl := Option.some.inj hc
      have hsingle : lexeme = String.singleton d := by
        rw [← String.toList_inj, hd, String.toList_singleton]
      rwa [← hsingle]
    · cases hc
  · intro hmem
    exact ⟨_, hmem, by simp⟩

/-- The characters that split words are the entries of the table that are symbols or
operators of one character. -/
theorem splits_iff_mem_fixed (c : Char) :
    splits c = true ↔ ∃ kind, (String.singleton c, kind) ∈ Lexeme.fixed ∧
      (kind.category = .symbol ∨ kind.category = .operator) := by
  simp only [splits, isSymbol, isOperator, Bool.or_eq_true, List.contains_iff_mem,
    symbolChars, operatorChars, mem_singles, Lexeme.mem_ofCategory_iff, ← exists_or, and_or_left]

theorem splits_iff (c : Char) :
    splits c = true ↔
      c ∈ ['=', '(', ')', '{', '}', '[', ']', '.', ',', ':', ';', '\'', '"'] ∨
      c ∈ ['+', '-', '*', '/', '^', '>', '<'] := by
  rw [splits, isSymbol, isOperator, symbolChars_eq, operatorChars_eq, Bool.or_eq_true,
    List.contains_iff_mem, List.contains_iff_mem]

theorem isWordChar_iff (c : Char) :
    isWordChar c = true ↔ isBlank c = false ∧ splits c = false ∧ c ≠ '~' := by
  simp [isWordChar, opensComment, Lexeme.commentDelimiter, and_assoc]

theorem splits_of_isBlank {c : Char} (hc : isBlank c = true) : splits c = false := by
  rw [← Bool.not_eq_true, splits_iff]
  rcases (isBlank_iff c).mp hc with rfl | rfl | rfl <;> decide

theorem isWordChar_of_isBlank {c : Char} (hc : isBlank c = true) : isWordChar c = false := by
  simp [isWordChar, hc]

theorem splits_ne_tilde {c : Char} (hc : splits c = true) : c ≠ '~' := by
  rintro rfl
  exact absurd ((splits_iff '~').mp hc) (by decide)

/-- Neither a sign nor a word has the kind of a span. -/
theorem isSpan_kindOf_singleton {c : Char} (hc : splits c = true) :
    (Lexeme.kindOf (String.singleton c)).isSpan = false :=
  Lexeme.isSpan_kindOf (by simpa using (splits_ne_tilde hc).symm)

theorem isSpan_kindOf_letters {letters : List Char}
    (hletters : ∀ c ∈ letters, isWordChar c = true) :
    (Lexeme.kindOf (String.ofList letters)).isSpan = false := by
  apply Lexeme.isSpan_kindOf
  rw [String.toList_ofList]
  exact fun htilde => ((isWordChar_iff '~').mp (hletters _ htilde)).2.2 rfl

theorem isWordChar_of_splits {c : Char} (hc : splits c = true) : isWordChar c = false := by
  simp [isWordChar, hc]

/-- Punctuation is all in the table of fixed lexemes. -/
theorem lookup_of_splits {c : Char} (hc : splits c = true) :
    Lexeme.fixed.lookup (String.singleton c) =
      some (Lexeme.kindOf (String.singleton c)) := by
  obtain ⟨kind, hmem, -⟩ := (splits_iff_mem_fixed c).mp hc
  rw [Lexeme.kindOf_of_mem_fixed hmem, Lexeme.lookup_fixed_iff.mpr hmem]

/-- A word goes on after one of its characters exactly if the next character is
part of words too, or opens a comment and so leaves the end of the word open. -/
theorem endsWord_of_isWordChar {c next : Char} (hc : isWordChar c = true) :
    endsWord c next = false ↔ isWordChar next = true ∨ next = '~' := by
  have hsplits := ((isWordChar_iff c).mp hc).2.1
  rw [isWordChar_iff]
  constructor
  · intro hends
    by_cases htilde : next = '~'
    · exact .inr htilde
    · simp_all [endsWord]
  · rintro (⟨hblank, hnext, -⟩ | rfl)
    · simp [endsWord, hsplits, hblank, hnext]
    · rw [endsWord, hsplits]
      decide +kernel

theorem endsWord_of_splits {c next : Char} (hc : splits c = true) :
    endsWord c next = true := by
  simp [endsWord, hc]

/-! ### The words at the two ends of a text -/

/-- Whether the first character of a text is part of a word. -/
def startsInWord (text : List Char) : Bool :=
  text.head?.any isWordChar

/-- Whether the last character of a text is part of a word. -/
def stopsInWord (text : List Char) : Bool :=
  text.getLast?.any isWordChar

@[simp] theorem startsInWord_cons (c : Char) (rest : List Char) :
    startsInWord (c :: rest) = isWordChar c := rfl

theorem startsInWord_append {front : List Char} (hfront : front ≠ []) (back : List Char) :
    startsInWord (front ++ back) = startsInWord front := by
  obtain ⟨c, rest, rfl⟩ := List.exists_cons_of_ne_nil hfront
  rfl

theorem startsInWord_blanks {blanks : List Char}
    (hblanks : ∀ c ∈ blanks, isBlank c = true) : startsInWord blanks = false := by
  cases blanks with
  | nil => rfl
  | cons c rest => exact isWordChar_of_isBlank (hblanks c (List.mem_cons_self ..))

theorem stopsInWord_append (front : List Char) {back : List Char} (hback : back ≠ []) :
    stopsInWord (front ++ back) = stopsInWord back := by
  rw [stopsInWord, List.getLast?_append, List.getLast?_eq_some_getLast hback, stopsInWord,
    List.getLast?_eq_some_getLast hback]
  rfl

theorem stopsInWord_append_eq_false {front back : List Char}
    (hfront : stopsInWord front = false) (hback : stopsInWord back = false) :
    stopsInWord (front ++ back) = false := by
  by_cases hne : back = []
  · rwa [hne, List.append_nil]
  · rwa [stopsInWord_append front hne]

theorem stopsInWord_concat (front : List Char) (c : Char) :
    stopsInWord (front ++ [c]) = isWordChar c :=
  stopsInWord_append front (List.cons_ne_nil c [])

end Tilde.Alphabet

namespace Tilde.SpanRule

open Alphabet

theorem delimits_singleton {rule : SpanRule} {c : Char}
    (hrule : rule.delimiter = String.singleton c) (d : Char) :
    rule.delimits (String.singleton d) = decide (d = c) := by
  rw [Bool.eq_iff_iff]
  simp [delimits, hrule]

theorem openedBy_eq (c : Char) :
    openedBy c =
      if c = '~' then some comment else if c = '"' then some stringLiteral else none := by
  have hcomment : comment.delimits (String.singleton c) = decide (c = '~') :=
    delimits_singleton rfl c
  have hstring : stringLiteral.delimits (String.singleton c) = decide (c = '"') :=
    delimits_singleton rfl c
  rw [openedBy, List.find?_cons, hcomment, List.find?_cons, hstring, List.find?_nil]
  by_cases hc : c = '~' <;> by_cases hd : c = '"' <;> simp [hc, hd]

theorem openedBy_eq_none_iff (c : Char) : openedBy c = none ↔ c ≠ '~' ∧ c ≠ '"' := by
  rw [openedBy_eq]
  split
  · simp_all
  · split <;> simp_all

theorem openedBy_eq_some_iff {c : Char} {rule : SpanRule} :
    openedBy c = some rule ↔ c = '~' ∧ rule = comment ∨ c = '"' ∧ rule = stringLiteral := by
  rw [openedBy_eq]
  split
  · simp_all [eq_comm]
  · split <;> simp_all [eq_comm]

/-- The only delimiter of a rule is the character that opens its spans. -/
theorem delimiter_of_openedBy {c : Char} {rule : SpanRule} (hc : openedBy c = some rule) :
    rule.delimiter = String.singleton c := by
  rcases openedBy_eq_some_iff.mp hc with ⟨rfl, rfl⟩ | ⟨rfl, rfl⟩ <;> rfl

theorem delimits_of_openedBy {c : Char} {rule : SpanRule} (hc : openedBy c = some rule)
    (d : Char) : rule.delimits (String.singleton d) = decide (d = c) :=
  delimits_singleton (delimiter_of_openedBy hc) d

theorem delimits_of_notMem {c : Char} {rule : SpanRule} {chars : List Char}
    (hc : openedBy c = some rule) (hchars : c ∉ chars) :
    ∀ d ∈ chars, rule.delimits (String.singleton d) = false := by
  intro d hd
  have hne : d ≠ c := fun h => hchars (h ▸ hd)
  rw [delimits_of_openedBy hc, decide_eq_false hne]

theorem isSpan_kind {c : Char} {rule : SpanRule} (hc : openedBy c = some rule) :
    rule.kind.isSpan = true := by
  rcases openedBy_eq_some_iff.mp hc with ⟨-, rfl⟩ | ⟨-, rfl⟩ <;> rfl

theorem isBlank_of_openedBy {c : Char} {rule : SpanRule} (hc : openedBy c = some rule) :
    isBlank c = false := by
  rcases openedBy_eq_some_iff.mp hc with ⟨rfl, -⟩ | ⟨rfl, -⟩ <;> decide +kernel

theorem isWordChar_of_openedBy {c : Char} {rule : SpanRule} (hc : openedBy c = some rule) :
    isWordChar c = false := by
  rcases openedBy_eq_some_iff.mp hc with ⟨rfl, -⟩ | ⟨rfl, -⟩ <;> decide +kernel

theorem openedBy_of_isBlank {c : Char} (hc : isBlank c = true) : openedBy c = none := by
  rcases (isBlank_iff c).mp hc with rfl | rfl | rfl <;> decide +kernel

theorem openedBy_of_isWordChar {c : Char} (hc : isWordChar c = true) : openedBy c = none := by
  cases hopened : openedBy c with
  | none => rfl
  | some rule => simp [isWordChar_of_openedBy hopened] at hc

theorem openedBy_of_splits {c : Char} (hc : splits c = true) (hne : c ≠ '"') :
    openedBy c = none :=
  (openedBy_eq_none_iff c).mpr ⟨splits_ne_tilde hc, hne⟩

theorem isWordChar_of_openedBy_eq_none {c : Char} (hblank : isBlank c = false)
    (hopened : openedBy c = none) (hsplits : splits c = false) : isWordChar c = true :=
  (isWordChar_iff c).mpr ⟨hblank, hsplits, ((openedBy_eq_none_iff c).mp hopened).1⟩

end Tilde.SpanRule

namespace Tilde.Munch

open Alphabet SpanRule

/-! ### The classes and kinds of the division -/

theorem isSpacing_eq (c : Char) : isSpacing c = isBlank c := by
  rw [Bool.eq_iff_iff, isBlank_iff]
  simp [isSpacing, or_assoc]

theorem spanKind_eq (c : Char) : spanKind c = (openedBy c).map SpanRule.kind := by
  rw [openedBy_eq, spanKind]
  split
  · rfl
  · split <;> rfl

theorem spanKind_eq_some_iff {c : Char} {kind : Kind} :
    spanKind c = some kind ↔ ∃ rule, openedBy c = some rule ∧ rule.kind = kind := by
  rw [spanKind_eq, Option.map_eq_some_iff]

theorem spanKind_eq_none_iff {c : Char} : spanKind c = none ↔ openedBy c = none := by
  rw [spanKind_eq, Option.map_eq_none_iff]

theorem spanForm_eq {c : Char} {rule : SpanRule} (hc : openedBy c = some rule) :
    spanForm c = rule.form := by
  rcases openedBy_eq_some_iff.mp hc with ⟨rfl, rfl⟩ | ⟨rfl, rfl⟩ <;> rfl

/-- The signs are the characters that split words, with the kind of their lexeme. -/
theorem signKind_eq_some_iff {c : Char} {kind : Kind} :
    signKind c = some kind ↔
      splits c = true ∧ Lexeme.kindOf (String.singleton c) = kind := by
  have hentry : signKind c = some kind ↔ (String.singleton c, kind) ∈ Lexeme.fixed ∧
      (kind.category = .symbol ∨ kind.category = .operator) := by
    simp [signKind, Option.filter_eq_some_iff, Lexeme.lookup_fixed_iff]
  rw [hentry]
  constructor
  · intro h
    exact ⟨(splits_iff_mem_fixed c).mpr ⟨kind, h⟩, Lexeme.kindOf_of_mem_fixed h.1⟩
  · rintro ⟨hc, rfl⟩
    obtain ⟨found, h⟩ := (splits_iff_mem_fixed c).mp hc
    rwa [Lexeme.kindOf_of_mem_fixed h.1]

theorem signKind_eq_none_iff {c : Char} : signKind c = none ↔ splits c = false := by
  rw [Option.eq_none_iff_forall_ne_some]
  simp [signKind_eq_some_iff]

/-- The letters are the characters that are part of words. -/
theorem isLetter_eq : isLetter = isWordChar := by
  funext c
  have hquote : splits '"' = true := (splits_iff '"').mpr (by decide)
  rw [Bool.eq_iff_iff, isWordChar_iff, isLetter]
  simp only [isSpacing_eq, Bool.and_eq_true, Bool.not_eq_true', Option.isNone_iff_eq_none,
    spanKind_eq_none_iff, openedBy_eq_none_iff, signKind_eq_none_iff]
  constructor
  · rintro ⟨⟨hblank, htilde, -⟩, hsplits⟩
    exact ⟨hblank, hsplits, htilde⟩
  · rintro ⟨hblank, hsplits, htilde⟩
    refine ⟨⟨hblank, htilde, ?_⟩, hsplits⟩
    -- the double quote opens a span, but is a symbol too
    rintro rfl
    exact absurd hquote (by simp [hsplits])

/-- The kind of a word is that of its lexeme. -/
theorem wordKind_eq (chars : List Char) :
    wordKind chars = Lexeme.kindOf (String.ofList chars) := by
  rw [wordKind, Lexeme.kindOf, String.toList_ofList]
  rfl

end Tilde.Munch
