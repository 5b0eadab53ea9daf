import Tilde.Proofs.Outcomes

/-!
What mends a text that leaves a span open. The hint of its fault says to add the
delimiter of the span, and with this delimiter behind it the text can be lexed: the span
is closed where the text ends, and everything from its opening on is its lexeme. Nothing
else that the hint could have said would do. The other delimiter is taken into the open
span, and a text that can be lexed as it is has no use for either.
-/

namespace Tilde

open Munch Alphabet SpanRule

/-- A text can be lexed with an ending behind it. -/
def Completes (options : Options) (source ending : String) : Prop :=
  ∃ tokens, lex (source ++ ending) options = .ok tokens

/-- A fault of a text is mended by a delimiter: it says so, it stands at an offset of the
text and at no other, and with the delimiter behind it the text has the tokens that it has
up to this offset and then the span that begins there. -/
structure RepairedBy (options : Options) (source : String) (fault : Fault)
    (delimiter : String) (kind : Kind) (offset : Nat) : Prop where
  advised :
    delimiter = "~" ∧ kind = .comment ∧
        fault.hint = "add a closing '~' to end the comment" ∨
      delimiter = "\"" ∧ kind = .stringLiteral ∧
        fault.hint = "add a closing '\"' to end the string literal"
  /-- The delimiter that is missing is that of the fault. -/
  names : ∃ form line, fault =
    .unterminated form delimiter (some (Location.ofOffset options.file source.toList offset)) line
  inside : offset < source.length
  only : ∀ n ≤ source.length,
    fault.location = some (Location.ofOffset options.file source.toList n) → n = offset
  tokens : ∃ before, lex (String.ofList (source.toList.take offset)) options = .ok before ∧
    lex (source ++ delimiter) options =
      .ok (before.push
        ⟨String.ofList (source.toList.drop offset) ++ delimiter, kind, fault.location⟩)

/-! ### Endings by the division of the text -/

/-- The delimiter of an open span at the end of the text closes it. -/
theorem Munch.Divides.append_closing {front rest : List Char} {c : Char} {rule : SpanRule}
    {pieces : List Piece} (h : Divides 0 front ⟨pieces, none⟩) (hc : openedBy c = some rule)
    (hrest : c ∉ rest) :
    Divides 0 (front ++ c :: rest ++ [c])
      ⟨pieces ++ [⟨front.length, c :: rest ++ [c], rule.kind⟩], none⟩ := by
  have hwords : stopsInWord front = true → startsInWord (c :: rest ++ [c]) = false :=
    fun _ => isWordChar_of_openedBy hc
  rw [List.append_assoc]
  simpa [Division.prepend, Division.cons] using h.append rfl hwords (.span hc hrest .done)

section

variable {options : Options} {source : String} {division : Division}

theorem exists_lex_eq_ok_iff (hpadding : Options.paddingSuffices options.padding = true)
    (h : Divides 0 source.toList division) :
    (∃ tokens, lex source options = .ok tokens) ↔ division.unclosed = none := by
  obtain ⟨pieces, _ | unclosed⟩ := division
  · simp [lex_of_closed hpadding h]
  · simp [lex_of_unclosed hpadding h]

/-- The ending that the text of a division needs. -/
def Munch.Division.ending (division : Division) : String :=
  match division.unclosed with
  | none => ""
  | some unclosed => String.singleton unclosed.delimiter

theorem completes_empty_iff (hpadding : Options.paddingSuffices options.padding = true)
    (h : Divides 0 source.toList division) :
    Completes options source "" ↔ "" = division.ending := by
  rw [Completes, String.append_empty, exists_lex_eq_ok_iff hpadding h, Division.ending]
  cases division.unclosed <;> simp

/-- A delimiter completes exactly the texts that leave one of its own spans open. -/
theorem completes_delimiter_iff (hpadding : Options.paddingSuffices options.padding = true)
    (h : Divides 0 source.toList division) {c : Char} {rule : SpanRule}
    (hc : openedBy c = some rule) :
    Completes options source (String.singleton c) ↔
      String.singleton c = division.ending := by
  have htext : (source ++ String.singleton c).toList = source.toList ++ [c] := by simp
  obtain ⟨pieces, _ | unclosed⟩ := division
  · have hopen := Scan.divides_concat h hc
    rw [← htext] at hopen
    rw [Completes, exists_lex_eq_ok_iff hpadding hopen]
    simp [Division.ending, ← String.toList_inj]
  · by_cases hdelimiter : unclosed.delimiter = c
    · obtain ⟨front, d, rest, _, hsource, hd, hrest, rfl, hfront⟩ := h.exists_opening rfl
      obtain rfl : d = c := hdelimiter
      have hclosed := hfront.append_closing hd hrest
      rw [← hsource, ← htext] at hclosed
      rw [Completes, exists_lex_eq_ok_iff hpadding hclosed]
      simp [Division.ending]
    · have hopen := h.append_open rfl (b := [c]) (by simpa using hdelimiter)
      rw [← htext] at hopen
      rw [Completes, exists_lex_eq_ok_iff hpadding hopen]
      simp [Division.ending, ← String.toList_inj, Ne.symm hdelimiter]

theorem completes_iff (hpadding : Options.paddingSuffices options.padding = true)
    (h : Divides 0 source.toList division) {ending : String}
    (hending : ending ∈ ["", "~", "\""]) :
    Completes options source ending ↔ ending = division.ending := by
  simp only [List.mem_cons, List.not_mem_nil, or_false] at hending
  rcases hending with rfl | rfl | rfl
  · exact completes_empty_iff hpadding h
  · exact completes_delimiter_iff hpadding h (c := '~') rfl
  · exact completes_delimiter_iff hpadding h (c := '"') rfl

theorem Munch.Divides.ending_mem {text : List Char} (h : Divides 0 text division) :
    division.ending ∈ ["", "~", "\""] := by
  obtain ⟨pieces, _ | unclosed⟩ := division
  · simp [Division.ending]
  · obtain ⟨_, c, _, _, -, hc, -, rfl, -⟩ := h.exists_opening rfl
    rcases openedBy_eq_some_iff.mp hc with ⟨rfl, -⟩ | ⟨rfl, -⟩ <;> simp [Division.ending]

end

/-- The fault of a text is mended by the delimiter that its hint names. -/
theorem exists_repairedBy {options : Options}
    (hpadding : Options.paddingSuffices options.padding = true) {source : String}
    {fault : Fault} (hlex : lex source options = .error fault) :
    ∃ delimiter kind offset, RepairedBy options source fault delimiter kind offset := by
  obtain ⟨pieces, unclosed, hdivides, rfl⟩ := (lex_eq_error_iff hpadding).mp hlex
  obtain ⟨front, c, rest, rule, hsource, hc, hrest, rfl, hfront⟩ := hdivides.exists_opening rfl
  rw [Nat.zero_add] at hdivides ⊢
  have hinside : front.length < source.toList.length := hdivides.offset_lt rfl
  have htext : (source ++ String.singleton c).toList = source.toList ++ [c] := by simp
  have hclosed := hfront.append_closing hc hrest
  rw [← hsource, ← htext] at hclosed
  refine ⟨String.singleton c, rule.kind, front.length, ?_, ?_, ?_, ?_, ?_⟩
  · rcases openedBy_eq_some_iff.mp hc with ⟨rfl, rfl⟩ | ⟨rfl, rfl⟩
    · exact .inl ⟨rfl, rfl, by rfl⟩
    · exact .inr ⟨rfl, rfl, by rfl⟩
  · exact ⟨_, _, rfl⟩
  · exact hinside
  · intro n hn hplace
    rw [← String.length_toList] at hn
    exact ((Location.ofOffset_inj options.file hinside.le hn).mp (Option.some.inj hplace)).symm
  · have hspan : source.toList.drop front.length = c :: rest := by rw [hsource, List.drop_left]
    have htokens : pieces.map (Piece.token options.file (source.toList ++ [c])) =
        pieces.map (Piece.token options.file source.toList) := by
      have happend := (hfront.tiles rfl).token_append options.file
      rw [hsource, List.append_assoc, happend, happend]
    have hplace : Location.ofOffset options.file (source.toList ++ [c]) front.length =
        Location.ofOffset options.file source.toList front.length :=
      Location.ofOffset_append_left hinside.le options.file [c]
    have hbefore := lex_take_of_unclosed hpadding hdivides
    refine ⟨_, hbefore, ?_⟩
    rw [lex_of_closed hpadding hclosed]
    refine congrArg Except.ok (TokenSeq.toList_inj.mp ?_)
    rw [TokenSeq.toList_push, TokenSeq.toList_ofList, TokenSeq.toList_ofList, List.map_append,
      htext, htokens, List.map_singleton, Piece.token, hplace, hspan,
      String.singleton_eq_ofList, ← String.ofList_append]
    rfl

/-- One ending of three completes a text: none at all or else, if the text has a fault,
the delimiter that mends it. -/
theorem lex_repair {options : Options} (haccepted : options.checked = .ok options)
    (source : String) :
    (∃! ending, ending ∈ ["", "~", "\""] ∧ Completes options source ending) ∧
      ∀ fault, lex source options = .error fault →
        ∃ delimiter kind offset, RepairedBy options source fault delimiter kind offset := by
  have hpadding := (Options.checked_eq_ok_iff.mp haccepted).1
  have hdivides := divides_divideFrom 0 source.toList
  refine ⟨⟨_, ⟨hdivides.ending_mem, ?_⟩, ?_⟩, fun fault => exists_repairedBy hpadding⟩
  · exact (completes_iff hpadding hdivides hdivides.ending_mem).mpr rfl
  · rintro ending ⟨hending, hcompletes⟩
    exact (completes_iff hpadding hdivides hending).mp hcompletes

/-- A comment that holds a quote, and then a string that is never closed and holds a
tilde. -/
theorem lex_repair_after_comment :
    ({ file := "m.tl" } : Options).checked = .ok { file := "m.tl" } ∧
      lex "do~\"~ \"~\ny" { file := "m.tl" } = .error
        (.unterminated .stringLiteral "\"" (some ⟨"m.tl", 1, 7⟩) (some "do~\"~ \"~")) ∧
      (∃! ending, ending ∈ ["", "~", "\""] ∧
        Completes { file := "m.tl" } "do~\"~ \"~\ny" ending) ∧
      ∃ delimiter kind offset, RepairedBy { file := "m.tl" } "do~\"~ \"~\ny"
        (.unterminated .stringLiteral "\"" (some ⟨"m.tl", 1, 7⟩) (some "do~\"~ \"~"))
        delimiter kind offset := by
  have haccepted : ({ file := "m.tl" } : Options).checked = .ok { file := "m.tl" } := by
    decide +kernel
  have hlex : lex "do~\"~ \"~\ny" { file := "m.tl" } = .error
      (.unterminated .stringLiteral "\"" (some ⟨"m.tl", 1, 7⟩) (some "do~\"~ \"~")) := by
    decide +kernel
  obtain ⟨hunique, hrepaired⟩ := lex_repair haccepted "do~\"~ \"~\ny"
  exact ⟨haccepted, hlex, hunique, hrepaired _ hlex⟩

end Tilde
