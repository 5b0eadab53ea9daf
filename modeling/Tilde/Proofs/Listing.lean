import Mathlib.Data.List.Nodup
import Tilde.Proofs.Canonical

/-!
Listings of tokens can be read back. A row of a listing has no escapes and does not say
how long its lexeme is, and a lexeme that is a span may hold line ends and so look like
several rows. But the label in front of it tells the kind, and by the kind it is known
where the lexeme ends: a span ends at the second of its delimiters, and any other lexeme
with its line.
-/

namespace Tilde

open Alphabet SpanRule

/-- The rows of the tokens, each with its line end. -/
def TokenSeq.listing (width : Int) (tokens : TokenSeq) : String :=
  String.join (tokens.toList.map fun token => token.row width ++ "\n")

/-! ### Labels and kinds -/

theorem Kind.label_injective : Function.Injective Kind.label := by
  have hnodup : (Kind.all.map Kind.label).Nodup := by decide +kernel
  intro a b h
  exact List.inj_on_of_nodup_map hnodup (Kind.mem_all a) (Kind.mem_all b) h

theorem Kind.colon_notMem_label (kind : Kind) : ':' ∉ kind.label.toList := by
  cases kind <;> decide

/-- A rule of the language is known by the kind of its spans, and its delimiter with it. -/
theorem SpanRule.eq_of_kind_eq {c d : Char} {rule other : SpanRule}
    (hc : openedBy c = some rule) (hd : openedBy d = some other)
    (hkind : rule.kind = other.kind) : c = d := by
  rcases openedBy_eq_some_iff.mp hc with ⟨rfl, rfl⟩ | ⟨rfl, rfl⟩ <;>
    rcases openedBy_eq_some_iff.mp hd with ⟨rfl, rfl⟩ | ⟨rfl, rfl⟩ <;>
    first | rfl | cases hkind

/-! ### Where a lexeme ends -/

/-- A character that is in neither of two texts shows where each of them ends. -/
theorem append_cons_inj {c : Char} {a b r s : List Char} (ha : c ∉ a) (hb : c ∉ b)
    (h : a ++ c :: r = b ++ c :: s) : a = b ∧ r = s := by
  have htake := congrArg (List.takeWhile (· ≠ c)) h
  rw [Munch.takeWhile_ne_append_cons ha, Munch.takeWhile_ne_append_cons hb] at htake
  subst htake
  exact ⟨rfl, (List.cons.inj (List.append_cancel_left h)).2⟩

/-- A canonical lexeme is a span, as its kind tells, or it is on one line. -/
theorem Canonical.span_or_line {lexeme : String} {kind : Kind} (h : Canonical lexeme kind) :
    (∃ c rule body, openedBy c = some rule ∧ rule.kind = kind ∧ c ∉ body ∧
      lexeme.toList = c :: body ++ [c]) ∨
    kind.isSpan = false ∧ '\n' ∉ lexeme.toList := by
  have hnewline : isBlank '\n' = true := by decide +kernel
  cases h with
  | @comment body hbody =>
      exact .inl ⟨'~', SpanRule.comment, body, rfl, rfl, hbody, String.toList_ofList⟩
  | @stringLiteral body hbody =>
      exact .inl ⟨'"', SpanRule.stringLiteral, body, rfl, rfl, hbody, String.toList_ofList⟩
  | @single c _ hc hne hkind =>
      right
      rw [lookup_of_splits hc, Option.some_inj] at hkind
      subst hkind
      refine ⟨isSpan_kindOf_singleton hc, ?_⟩
      rw [String.toList_singleton, List.mem_singleton]
      rintro rfl
      simp [splits_of_isBlank hnewline] at hc
  | word hword =>
      have hkind := isSpan_kindOf_letters hword.letters
      rw [String.ofList_toList] at hkind
      refine .inr ⟨hkind, fun hmem => ?_⟩
      have hletter := hword.letters _ hmem
      simp [isWordChar_of_isBlank hnewline] at hletter

/-- By the kind of a canonical lexeme it is known where it ends. -/
theorem Canonical.append_newline_inj {a b : String} {kind : Kind} (ha : Canonical a kind)
    (hb : Canonical b kind) {r s : List Char}
    (h : a.toList ++ '\n' :: r = b.toList ++ '\n' :: s) : a = b ∧ r = s := by
  rcases ha.span_or_line with ⟨c, rule, body, hc, rfl, hbody, hspan⟩ | ⟨hkind, hline⟩
  · rcases hb.span_or_line with ⟨d, other, body', hd, hkind, hbody', hspan'⟩ | ⟨hkind, -⟩
    · obtain rfl := SpanRule.eq_of_kind_eq hd hc hkind
      rw [hspan, hspan', List.append_assoc, List.append_assoc] at h
      obtain ⟨rfl, hrest⟩ := append_cons_inj hbody hbody' (List.cons.inj h).2
      refine ⟨String.toList_inj.mp (hspan.trans hspan'.symm), (List.cons.inj hrest).2⟩
    · simp [isSpan_kind hc] at hkind
  · rcases hb.span_or_line with ⟨d, other, body', hd, rfl, -, -⟩ | ⟨-, hline'⟩
    · simp [isSpan_kind hd] at hkind
    · obtain ⟨htext, hrest⟩ := append_cons_inj hline hline' h
      exact ⟨String.toList_inj.mp htext, hrest⟩

/-! ### Rows and listings -/

/-- The number of blanks between the label of a kind and the lexemes in its rows. -/
def Kind.gap (kind : Kind) (width : Int) : Nat :=
  max (width - (kind.label ++ ":").length).toNat 1

theorem Token.toList_row (token : Token) (width : Int) :
    (token.row width).toList = token.kind.label.toList ++
      ':' :: (List.replicate (token.kind.gap width) ' ' ++ token.lexeme.toList) := by
  simp [row, heading, Kind.gap]

/-- A row tells its token, but for the place, and where the row itself ends. -/
theorem Token.row_append_inj {a b : Token} (ha : a.Canonical) (hb : b.Canonical)
    (width : Int) {r s : List Char}
    (h : (a.row width).toList ++ '\n' :: r = (b.row width).toList ++ '\n' :: s) :
    a.core = b.core ∧ r = s := by
  obtain ⟨lexeme, kind, _⟩ := a
  obtain ⟨lexeme', kind', _⟩ := b
  simp only [Token.toList_row, List.append_assoc, List.cons_append] at h
  obtain ⟨hlabel, hrest⟩ :=
    append_cons_inj (Kind.colon_notMem_label kind) (Kind.colon_notMem_label kind') h
  obtain rfl : kind = kind' := Kind.label_injective (String.toList_inj.mp hlabel)
  obtain ⟨rfl, rfl⟩ := ha.append_newline_inj hb (List.append_cancel_left hrest)
  exact ⟨rfl, rfl⟩

/-- The rows of canonical tokens tell the tokens one after the other. -/
theorem map_core_eq_of_rows {width : Int} {first second : List Token}
    (hfirst : ∀ token ∈ first, token.Canonical) (hsecond : ∀ token ∈ second, token.Canonical)
    (h : first.flatMap (fun token => (token.row width).toList ++ ['\n']) =
      second.flatMap fun token => (token.row width).toList ++ ['\n']) :
    first.map Token.core = second.map Token.core := by
  -- on the rows of one text; a row is never empty, so no text has more rows than the other
  induction first generalizing second with
  | nil =>
      cases second with
      | nil => rfl
      | cons b second => simp at h
  | cons a first ih =>
      cases second with
      | nil => simp at h
      | cons b second =>
          obtain ⟨ha, hfirst⟩ := List.forall_mem_cons.mp hfirst
          obtain ⟨hb, hsecond⟩ := List.forall_mem_cons.mp hsecond
          simp only [List.flatMap_cons, List.append_assoc, List.singleton_append] at h
          obtain ⟨hcore, hrest⟩ := Token.row_append_inj ha hb width h
          rw [List.map_cons, List.map_cons, hcore, ih hfirst hsecond hrest]

theorem TokenSeq.toList_listing (width : Int) (tokens : TokenSeq) :
    (tokens.listing width).toList =
      tokens.toList.flatMap fun token => (token.row width).toList ++ ['\n'] := by
  simp [listing, String.toList_join, List.flatMap_map]

/-- Two texts with the same listing have the same tokens, at whatever places. -/
theorem listing_injective {options other : Options} (haccepted : options.checked = .ok options)
    (haccepted' : other.checked = .ok other) {source source' : String}
    {tokens tokens' : TokenSeq} (hlex : lex source options = .ok tokens)
    (hlex' : lex source' other = .ok tokens') {width : Int}
    (hlisting : tokens.listing width = tokens'.listing width) :
    tokens.agrees tokens' = true := by
  have hpadding := (Options.checked_eq_ok_iff.mp haccepted).1
  have hpadding' := (Options.checked_eq_ok_iff.mp haccepted').1
  have hrefl (tokens : TokenSeq) : tokens.agrees tokens = true := beq_self_eq_true _
  have hrows := congrArg String.toList hlisting
  rw [TokenSeq.toList_listing, TokenSeq.toList_listing] at hrows
  rw [TokenSeq.agrees, beq_iff_eq]
  exact map_core_eq_of_rows (canonical_of_lex hpadding hlex (hrefl tokens))
    (canonical_of_lex hpadding' hlex' (hrefl tokens')) hrows

/-- A comment whose second line looks like a row, before a word on its own line or not. -/
theorem listing_injective_imitated :
    let options : Options := { file := "m.tl" }
    let other : Options := { file := "n.tl", padding := "\n\n\t" }
    let tokens : TokenSeq := .ofList [⟨"~a\nDo:  do~", .comment, some ⟨"m.tl", 1, 1⟩⟩,
      ⟨"do", .doWord, some ⟨"m.tl", 2, 9⟩⟩]
    let tokens' : TokenSeq := .ofList [⟨"~a\nDo:  do~", .comment, some ⟨"n.tl", 2, 1⟩⟩,
      ⟨"do", .doWord, some ⟨"n.tl", 4, 3⟩⟩]
    (options.checked = .ok options ∧ other.checked = .ok other ∧
      lex "~a\nDo:  do~do" options = .ok tokens ∧
      lex "\n~a\nDo:  do~\n  do" other = .ok tokens' ∧ tokens.listing 4 = tokens'.listing 4) ∧
      tokens.agrees tokens' = true := by
  intro options other tokens tokens'
  have haccepted : options.checked = .ok options := by decide +kernel
  have haccepted' : other.checked = .ok other := by decide +kernel
  have hlex : lex "~a\nDo:  do~do" options = .ok tokens := by decide +kernel
  have hlex' : lex "\n~a\nDo:  do~\n  do" other = .ok tokens' := by decide +kernel
  have hlisting : tokens.listing 4 = tokens'.listing 4 := by decide +kernel
  exact ⟨⟨haccepted, haccepted', hlex, hlex', hlisting⟩,
    listing_injective haccepted haccepted' hlex hlex' hlisting⟩

end Tilde
