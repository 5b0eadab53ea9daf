import Mathlib.Data.List.Chain
import Mathlib.Data.List.TFAE
import Mathlib.Tactic.TFAE
import Tilde.Proofs.Outcomes

/-!
Which tokens lexing can give. They are spans that hold no delimiter of their own,
punctuation other than the string delimiter, and words, each of the kind that such
a lexeme has. Every sequence of such tokens comes of some text, and one such text
is made of the lexemes themselves: they may be spaced in any way in which no two
words touch.
-/

namespace Tilde

open Munch Alphabet SpanRule

/-- A lexeme that is a word. -/
structure IsWord (lexeme : String) : Prop where
  nonempty : lexeme ≠ ""
  letters : ∀ c ∈ lexeme.toList, isWordChar c = true

/-- The lexemes and kinds that the tokens of a text can have. -/
inductive Canonical : String → Kind → Prop
  | comment {body : List Char} (hbody : '~' ∉ body) :
      Canonical (String.ofList ('~' :: body ++ ['~'])) .comment
  | stringLiteral {body : List Char} (hbody : '"' ∉ body) :
      Canonical (String.ofList ('"' :: body ++ ['"'])) .stringLiteral
  | single {c : Char} {kind : Kind} (hc : splits c = true) (hne : c ≠ '"')
      (hkind : Lexeme.fixed.lookup (String.singleton c) = some kind) :
      Canonical (String.singleton c) kind
  | word {lexeme : String} (hword : IsWord lexeme) :
      Canonical lexeme (Lexeme.kindOf lexeme)

def Token.Canonical (token : Token) : Prop :=
  Tilde.Canonical token.lexeme token.kind

theorem Token.Canonical.of_core_eq {a b : Token} (h : a.Canonical) (hcore : b.core = a.core) :
    b.Canonical := by
  obtain ⟨hlexeme, hkind⟩ := Prod.mk.inj hcore
  rwa [Token.Canonical, hlexeme, hkind]

/-! ### All tokens of a text are canonical -/

/-- The lexeme and the kind of a piece. -/
def Munch.Piece.core (piece : Piece) : String × Kind :=
  (String.ofList piece.chars, piece.kind)

theorem canonical_of_span {c : Char} {body : List Char} {rule : SpanRule}
    (hc : openedBy c = some rule) (hbody : c ∉ body) :
    Canonical (String.ofList (c :: body ++ [c])) rule.kind := by
  rcases openedBy_eq_some_iff.mp hc with ⟨rfl, rfl⟩ | ⟨rfl, rfl⟩
  · exact .comment hbody
  · exact .stringLiteral hbody

theorem Munch.Divides.canonical {offset : Nat} {text : List Char} {division : Division}
    (h : Divides offset text division) :
    ∀ piece ∈ division.pieces, Canonical piece.core.1 piece.core.2 := by
  induction h with
  | done => simp
  | blank _ _ ih => exact ih
  | unclosed => simp
  | span hc hbody _ ih => exact List.forall_mem_cons.mpr ⟨canonical_of_span hc hbody, ih⟩
  | @single _ c _ _ hopened hc _ ih =>
      refine List.forall_mem_cons.mpr ⟨?_, ih⟩
      have hne := ((openedBy_eq_none_iff c).mp hopened).2
      exact .single hc hne (lookup_of_splits hc)
  | word hne hchars _ _ ih =>
      refine List.forall_mem_cons.mpr ⟨.word ⟨?_, ?_⟩, ih⟩
      · simpa [Piece.core] using hne
      · simpa [Piece.core] using hchars

/-! ### Canonical tokens laid out as a text -/

/-- A token with the blanks after it. -/
structure Placed where
  token : Token
  gap : String

/-- The text of tokens that are placed one after the other. -/
def layout : List Placed → String
  | [] => ""
  | first :: rest => first.token.lexeme ++ first.gap ++ layout rest

/-- Tokens with blanks between them wherever two words would touch. -/
structure Spaced (placed : List Placed) : Prop where
  blank : ∀ p ∈ placed, ∀ c ∈ p.gap.toList, isBlank c = true
  apart : placed.IsChain fun p q =>
    IsWord p.token.lexeme → IsWord q.token.lexeme → p.gap ≠ ""

/-- A canonical lexeme is read whole, a word if no other word follows. -/
theorem Canonical.divides {lexeme : String} {kind : Kind} (h : Canonical lexeme kind)
    {offset : Nat} {rest : List Char} {division : Division}
    (hstop : IsWord lexeme → startsInWord rest = false)
    (hrest : Divides (offset + lexeme.toList.length) rest division) :
    Divides offset (lexeme.toList ++ rest)
      (division.cons ⟨offset, lexeme.toList, kind⟩) := by
  cases h with
  | comment hbody =>
      have hopened : openedBy '~' = some SpanRule.comment :=
        openedBy_eq_some_iff.mpr (by simp)
      rw [String.toList_ofList] at hrest ⊢
      exact .prepend_span hopened hbody hrest
  | stringLiteral hbody =>
      have hopened : openedBy '"' = some SpanRule.stringLiteral :=
        openedBy_eq_some_iff.mpr (by simp)
      rw [String.toList_ofList] at hrest ⊢
      exact .prepend_span hopened hbody hrest
  | @single c _ hc hne hkind =>
      rw [lookup_of_splits hc, Option.some_inj] at hkind
      subst hkind
      rw [String.toList_singleton] at hrest ⊢
      exact .single (openedBy_of_splits hc hne) hc hrest
  | word hword =>
      have hne : lexeme.toList ≠ [] := by simpa using hword.nonempty
      have hdivides := Divides.word hne hword.letters (hstop hword) hrest
      rwa [String.ofList_toList] at hdivides

theorem Canonical.isWord_of_startsInWord {lexeme : String} {kind : Kind}
    (h : Canonical lexeme kind) {rest : List Char}
    (hstarts : startsInWord (lexeme.toList ++ rest) = true) : IsWord lexeme := by
  cases h with
  | comment hbody =>
      have htilde : isWordChar '~' = false := by decide +kernel
      rw [String.toList_ofList] at hstarts
      exact absurd (htilde.symm.trans hstarts) Bool.false_ne_true
  | stringLiteral hbody =>
      have hquote : isWordChar '"' = false := by decide +kernel
      rw [String.toList_ofList] at hstarts
      exact absurd (hquote.symm.trans hstarts) Bool.false_ne_true
  | single hc hne hkind =>
      rw [String.toList_singleton, List.singleton_append, startsInWord_cons,
        isWordChar_of_splits hc] at hstarts
      cases hstarts
  | word hword => exact hword

theorem Spaced.of_cons {first : Placed} {rest : List Placed} (h : Spaced (first :: rest)) :
    Spaced rest where
  blank := fun p hp => h.blank p (List.mem_cons_of_mem _ hp)
  apart := h.apart.of_cons

theorem Spaced.startsInWord_rest {first : Placed} {rest : List Placed}
    (h : Spaced (first :: rest)) (hrest : ∀ p ∈ rest, p.token.Canonical)
    (hword : IsWord first.token.lexeme) :
    startsInWord (first.gap.toList ++ (layout rest).toList) = false := by
  have hblanks := h.blank first (List.mem_cons_self ..)
  by_cases hgap : first.gap = ""
  · rw [hgap]
    cases rest with
    | nil => rfl
    | cons next rest =>
        -- the next token follows at once, so it is no word
        rw [Bool.eq_false_iff]
        intro hstarts
        rw [layout, String.toList_append, String.toList_append, List.append_assoc] at hstarts
        have hnext := (hrest next (List.mem_cons_self ..)).isWord_of_startsInWord hstarts
        exact h.apart.rel hword hnext hgap
  · have hne : first.gap.toList ≠ [] := by simpa using hgap
    rw [startsInWord_append hne]
    exact startsInWord_blanks hblanks

/-- Spaced canonical tokens are the pieces of their text. -/
theorem Spaced.divides {placed : List Placed} (h : Spaced placed)
    (hcanonical : ∀ p ∈ placed, p.token.Canonical) (offset : Nat) :
    ∃ pieces, Divides offset (layout placed).toList ⟨pieces, none⟩ ∧
      pieces.map Piece.core = placed.map fun p => p.token.core := by
  induction placed generalizing offset with
  | nil => exact ⟨[], .done, rfl⟩
  | cons first rest ih =>
      obtain ⟨hfirst, hrest⟩ := List.forall_mem_cons.mp hcanonical
      obtain ⟨pieces, hpieces, hcores⟩ := ih h.of_cons hrest
        (offset + first.token.lexeme.toList.length + first.gap.toList.length)
      have hgap := hpieces.prepend_blanks (h.blank first (List.mem_cons_self ..))
      refine ⟨⟨offset, first.token.lexeme.toList, first.token.kind⟩ :: pieces, ?_, ?_⟩
      · rw [layout, String.toList_append, String.toList_append, List.append_assoc]
        exact hfirst.divides (h.startsInWord_rest hrest) hgap
      · rw [List.map_cons, List.map_cons, hcores, Piece.core, String.ofList_toList, Token.core]

/-- A gap keeps a token apart from whatever comes after it. -/
theorem Spaced.cons {first : Placed} {rest : List Placed}
    (hblank : ∀ c ∈ first.gap.toList, isBlank c = true) (hgap : first.gap ≠ "")
    (h : Spaced rest) : Spaced (first :: rest) where
  blank := List.forall_mem_cons.mpr ⟨hblank, h.blank⟩
  apart := by
    cases rest with
    | nil => exact .singleton first
    | cons next rest => exact .cons_cons (fun _ _ => hgap) h.apart

/-! ### Lexemes that are joined -/

/-- Tokens with a space between any two. -/
def evenly : List Token → List Placed
  | [] => []
  | [last] => [⟨last, ""⟩]
  | first :: next :: rest => ⟨first, " "⟩ :: evenly (next :: rest)

theorem map_token_evenly (tokens : List Token) : (evenly tokens).map Placed.token = tokens := by
  fun_induction evenly tokens with
  | case1 => rfl
  | case2 last => rfl
  | case3 first next rest ih => rw [List.map_cons, ih]

theorem spaced_evenly (tokens : List Token) : Spaced (evenly tokens) := by
  fun_induction evenly tokens with
  | case1 => exact ⟨by simp, .nil⟩
  | case2 last => exact ⟨by simp, .singleton _⟩
  | case3 first next rest ih =>
      apply ih.cons
      · exact fun c hc => (isBlank_iff c).mpr (.inl (by simpa using hc))
      · exact (by decide : " " ≠ "")

theorem layout_evenly (tokens : List Token) :
    layout (evenly tokens) = " ".intercalate (tokens.map Token.lexeme) := by
  fun_induction evenly tokens with
  | case1 => exact String.intercalate_nil.symm
  | case2 last =>
      rw [List.map_singleton, String.intercalate_singleton, layout, layout, String.append_empty,
        String.append_empty]
  | case3 first next rest ih =>
      rw [layout, ih]
      simp only [List.map_cons, String.intercalate_cons_cons]

/-! ### The image of lexing -/

/-- A text has no other tokens than canonical ones. -/
theorem canonical_of_lex {options : Options}
    (hpadding : Options.paddingSuffices options.padding = true) {source : String}
    {found tokens : TokenSeq} (hlex : lex source options = .ok found)
    (hagrees : found.agrees tokens = true) : ∀ token ∈ tokens.toList, token.Canonical := by
  obtain ⟨pieces, hdivides, rfl⟩ := (lex_eq_ok_iff hpadding).mp hlex
  have hcores : (pieces.map (Piece.token options.file source.toList)).map Token.core =
      tokens.toList.map Token.core := by
    simpa [TokenSeq.agrees] using hagrees
  intro token htoken
  have hcore : token.core ∈ tokens.toList.map Token.core := List.mem_map_of_mem htoken
  rw [← hcores, List.map_map, List.mem_map] at hcore
  obtain ⟨piece, hpiece, hcore⟩ := hcore
  have hcanonical : (piece.token options.file source.toList).Canonical :=
    hdivides.canonical piece hpiece
  exact hcanonical.of_core_eq hcore.symm

/-- Spaced canonical tokens are the tokens of their text. -/
theorem lex_layout {options : Options}
    (hpadding : Options.paddingSuffices options.padding = true) {tokens : TokenSeq}
    (hcanonical : ∀ token ∈ tokens.toList, token.Canonical) {lead : String}
    (hlead : ∀ c ∈ lead.toList, isBlank c = true) {placed : List Placed}
    (htokens : placed.map Placed.token = tokens.toList) (hspaced : Spaced placed) :
    ∃ found, lex (lead ++ layout placed) options = .ok found ∧
      found.agrees tokens = true := by
  rw [← htokens, List.forall_mem_map] at hcanonical
  obtain ⟨pieces, hpieces, hcores⟩ := hspaced.divides hcanonical (0 + lead.toList.length)
  have hdivides := hpieces.prepend_blanks hlead
  rw [← String.toList_append] at hdivides
  refine ⟨_, lex_of_closed hpadding hdivides, ?_⟩
  rw [TokenSeq.agrees, TokenSeq.toList_ofList, ← htokens, List.map_map, List.map_map, beq_iff_eq]
  exact hcores

/-- The tokens that some text has are the canonical ones, and they are the tokens of
the text that their lexemes make when they are joined, or spaced in some other way. -/
theorem lex_image {options : Options} (haccepted : options.checked = .ok options)
    (tokens : TokenSeq) :
    List.TFAE
        [∃ source found, lex source options = .ok found ∧ found.agrees tokens = true,
          ∀ token ∈ tokens.toList, token.Canonical,
          ∃ found, lex tokens.join options = .ok found ∧ found.agrees tokens = true] ∧
      ((∀ token ∈ tokens.toList, token.Canonical) →
        ∀ (lead : String) (placed : List Placed),
          (∀ c ∈ lead.toList, isBlank c = true) → placed.map Placed.token = tokens.toList →
            Spaced placed →
              ∃ found, lex (lead ++ layout placed) options = .ok found ∧
                found.agrees tokens = true) := by
  have hpadding := (Options.checked_eq_ok_iff.mp haccepted).1
  refine ⟨?_, ?_⟩
  · tfae_have 1 → 2 := by
      rintro ⟨source, found, hlex, hagrees⟩
      exact canonical_of_lex hpadding hlex hagrees
    tfae_have 2 → 3 := by
      intro hcanonical
      have hlead : ∀ c ∈ "".toList, isBlank c = true := by simp
      have hlayout := lex_layout hpadding hcanonical hlead (map_token_evenly tokens.toList)
        (spaced_evenly tokens.toList)
      rwa [String.empty_append, layout_evenly] at hlayout
    tfae_have 3 → 1 := by
      rintro ⟨found, hlex, hagrees⟩
      exact ⟨tokens.join, found, hlex, hagrees⟩
    tfae_finish
  · intro hcanonical lead placed hlead htokens hspaced
    exact lex_layout hpadding hcanonical hlead htokens hspaced

/-- A comment that touches a keyword, and a number after it on the next line. -/
theorem lex_image_touching :
    ({ file := "m.tl" } : Options).checked = .ok { file := "m.tl" } ∧
      (∀ token ∈ [⟨"~\"\n~", .comment, none⟩, ⟨"do", .doWord, none⟩,
        ⟨"x1", .numericLiteral, none⟩], Token.Canonical token) ∧
      ∃ found, lex ("\t" ++ layout
          [⟨⟨"~\"\n~", .comment, none⟩, ""⟩, ⟨⟨"do", .doWord, none⟩, "\n"⟩,
            ⟨⟨"x1", .numericLiteral, none⟩, ""⟩]) { file := "m.tl" } = .ok found ∧
        found.agrees (.ofList [⟨"~\"\n~", .comment, none⟩, ⟨"do", .doWord, none⟩,
          ⟨"x1", .numericLiteral, none⟩]) = true := by
  have haccepted : ({ file := "m.tl" } : Options).checked = .ok { file := "m.tl" } := by
    decide +kernel
  obtain ⟨himage, hlayout⟩ := lex_image haccepted
    (.ofList [⟨"~\"\n~", .comment, none⟩, ⟨"do", .doWord, none⟩,
      ⟨"x1", .numericLiteral, none⟩])
  have hsome := himage.out 0 1
  have hcanonical := hsome.mp
    ⟨"~\"\n~do x1",
      .ofList [⟨"~\"\n~", .comment, some ⟨"m.tl", 1, 1⟩⟩, ⟨"do", .doWord, some ⟨"m.tl", 2, 2⟩⟩,
        ⟨"x1", .numericLiteral, some ⟨"m.tl", 2, 5⟩⟩],
      by decide +kernel, by decide +kernel⟩
  refine ⟨haccepted, hcanonical, hlayout hcanonical _ _ ?_ (by rfl) ⟨?_, ?_⟩⟩
  · simp [isBlank_iff]
  · simp [isBlank_iff]
  · refine .cons_cons ?_ (.cons_cons ?_ (.singleton _))
    · intro hcomment
      exact absurd (hcomment.letters '~' (by decide)) (by decide +kernel)
    · intro _ _
      decide +kernel

end Tilde
