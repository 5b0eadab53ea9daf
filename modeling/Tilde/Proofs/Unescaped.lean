import Tilde.Command.Run
import Tilde.Proofs.Outcomes

/-!
Texts without the escape character are written as they are. What the command writes
of a file is put together from the file, from its name, from numbers and from wording
of its own, so there is an escape character in it only if there is one in the file or
in its name.
-/

namespace Tilde.Text

/-- A text in which a character does not occur. -/
def Lacks (c : Char) (text : String) : Prop :=
  c ∉ text.toList

instance (c : Char) (text : String) : Decidable (Lacks c text) :=
  inferInstanceAs (Decidable (c ∉ text.toList))

variable {c : Char}

@[simp] theorem lacks_append {a b : String} : Lacks c (a ++ b) ↔ Lacks c a ∧ Lacks c b := by
  simp [Lacks]

@[simp] theorem lacks_toString {text : String} : Lacks c (toString text) ↔ Lacks c text :=
  Iff.rfl

theorem lacks_ofList {chars : List Char} : Lacks c (String.ofList chars) ↔ c ∉ chars := by
  simp [Lacks]

theorem lacks_repr (hc : c.isDigit = false) (n : Nat) : Lacks c n.repr := by
  rw [Nat.repr_eq_ofList_toDigits, lacks_ofList]
  intro hmem
  have hdigit := Nat.isDigit_of_mem_toDigits (by decide) (by decide) hmem
  simp [hc] at hdigit

theorem lacks_repr_natCast (hc : c.isDigit = false) (n : Nat) : Lacks c (n : Int).repr :=
  lacks_repr hc n

theorem lacks_replicate {d : Char} (hne : c ≠ d) (n : Nat) :
    Lacks c (String.ofList (List.replicate n d)) := by
  rw [lacks_ofList, List.mem_replicate]
  exact fun h => hne h.2

theorem lacks_intercalate {separator : String} (hseparator : Lacks c separator)
    {texts : List String} (htexts : ∀ text ∈ texts, Lacks c text) :
    Lacks c (separator.intercalate texts) := by
  induction texts with
  | nil => simp [Lacks]
  | cons text texts ih =>
      obtain ⟨htext, htexts⟩ := List.forall_mem_cons.mp htexts
      cases texts with
      | nil => rwa [String.intercalate_singleton]
      | cons next texts =>
          rw [String.intercalate_cons_cons]
          simp [htext, hseparator, ih htexts]

/-! ### Control sequences -/

theorem stripControlsOnto_of_notMem (kept : List Char) {text : List Char}
    (h : '\x1b' ∉ text) : stripControlsOnto kept text = kept.reverse ++ text := by
  induction text generalizing kept with
  | nil => rw [stripControlsOnto, List.append_nil]
  | cons c rest ih =>
      have hc : c ≠ '\x1b' := fun hc => h (hc ▸ List.mem_cons_self ..)
      rw [stripControlsOnto, if_neg hc, ih _ fun hrest => h (List.mem_cons_of_mem _ hrest)]
      simp

theorem stripControls_of_lacks {text : String} (h : Lacks '\x1b' text) :
    stripControls text = text := by
  rw [stripControls, stripControlsOnto_of_notMem [] h]
  simp

end Tilde.Text

namespace Tilde

open Text

theorem Command.echo_of_lacks {line : String} (h : Lacks '\x1b' line) :
    echo line = line ++ "\n" :=
  stripControls_of_lacks (lacks_append.mpr ⟨h, by decide⟩)

/-! ### What is written of a file -/

theorem Token.lacks_row {token : Token} (h : Lacks '\x1b' token.lexeme) (width : Int) :
    Lacks '\x1b' (token.row width) := by
  have hlabel : Lacks '\x1b' token.kind.label := by
    cases token.kind <;> decide
  have hcolon : Lacks '\x1b' ":" := by decide
  have hgap := lacks_replicate (c := '\x1b') (d := ' ') (by decide)
  simp [Token.row, Token.heading, hlabel, hcolon, hgap, h]

theorem Location.lacks_render {file : String} (h : Lacks '\x1b' file) (text : List Char)
    (offset : Nat) : Lacks '\x1b' (ofOffset file text offset).render := by
  have hcolon : Lacks '\x1b' ":" := by decide
  have hnumeral := lacks_repr_natCast (c := '\x1b') (by decide)
  simp [Location.render, ofOffset, h, hcolon, hnumeral]

theorem Diagnostic.lacks_render {d : Diagnostic} (hmessage : Lacks '\x1b' d.message)
    (hplace : ∀ place ∈ d.location, Lacks '\x1b' place.render)
    (hline : ∀ line ∈ d.sourceLine, Lacks '\x1b' line)
    (hhint : ∀ hint ∈ d.hint, Lacks '\x1b' hint) : Lacks '\x1b' d.render := by
  have hheadline : Lacks '\x1b' d.headline := by
    have hwording : Lacks '\x1b' ": error: " ∧ Lacks '\x1b' "error: " := by decide
    rw [headline]
    cases hlocation : d.location with
    | none => simp [hwording, hmessage]
    | some place => simp [hwording, hmessage, hplace place hlocation]
  have hexcerpt : ∀ part ∈ d.excerpt, Lacks '\x1b' part := by
    have hspaces (n : Nat) : Lacks '\x1b' (spaces n) := lacks_replicate (by decide) n
    have hcaret (column : Int) : Lacks '\x1b' (caret column) :=
      lacks_append.mpr ⟨hspaces _, by decide⟩
    rw [excerpt]
    split
    · rename_i place line hlocation hsource
      have hquoted : Lacks '\x1b' (quotedLine line) :=
        lacks_append.mpr ⟨hspaces _, hline line hsource⟩
      split <;> simp [hquoted, hcaret]
    · simp
  have hadvice : ∀ part ∈ d.advice, Lacks '\x1b' part := by
    have hwording : Lacks '\x1b' "hint: " := by decide
    rw [advice]
    split
    · rename_i hint hsome
      split <;> simp [hwording, hhint hint hsome]
    · simp
  apply lacks_intercalate (by decide)
  simp only [parts, List.cons_append, List.mem_cons, List.mem_append]
  rintro part (rfl | hpart | hpart)
  · exact hheadline
  · exact hexcerpt part hpart
  · exact hadvice part hpart

theorem Fault.lacks_render_unterminated {form : SpanForm} {delimiter : String}
    (hdelimiter : Lacks '\x1b' delimiter) {place : Location}
    (hplace : Lacks '\x1b' place.render) {line : String} (hline : Lacks '\x1b' line) :
    Lacks '\x1b' (Fault.unterminated form delimiter (some place) (some line)).render := by
  have hform : Lacks '\x1b' form.description := by
    cases form <;> decide
  have hwording : Lacks '\x1b' "unterminated " ∧ Lacks '\x1b' "add a closing '" ∧
      Lacks '\x1b' "' to end the " := by decide
  rw [render, diagnostic, location, sourceLine]
  apply Diagnostic.lacks_render
  · exact lacks_append.mpr ⟨hwording.1, hform⟩
  · intro _ hsome
    rwa [← Option.some.inj hsome]
  · intro _ hsome
    rwa [← Option.some.inj hsome]
  · intro _ hsome
    rw [← Option.some.inj hsome]
    unfold hint
    simp [hwording, hdelimiter, hform]

theorem Text.notMem_hexNumeral {c : Char} (hc : ∀ d < 16, hexDigit d ≠ c) (width n : Nat) :
    c ∉ hexNumeral width n := by
  induction width generalizing n with
  | zero => simp [hexNumeral]
  | succ width ih =>
      have hdigit := hc (n % 16) (Nat.mod_lt n (by decide))
      simp [hexNumeral, ih, hdigit.symm]

/-- What the decoder says of bytes that are no text is on one line. -/
theorem Text.Utf8.Fault.lacks_message {c : Char} (hc : c = '\x1b' ∨ c = '\n')
    (fault : Utf8.Fault) : Lacks c fault.message := by
  have hnumeral : ∀ n : Nat, Lacks c n.repr := by
    apply lacks_repr
    rcases hc with rfl | rfl <;> rfl
  have hbyte : Lacks c (hexByte fault.byte) := by
    have hhex : ∀ d < 16, hexDigit d ≠ c := by
      rcases hc with rfl | rfl <;> decide
    refine lacks_append.mpr ⟨?_, lacks_ofList.mpr (notMem_hexNumeral hhex 2 _)⟩
    rcases hc with rfl | rfl <;> decide
  have hreason : Lacks c fault.reason.text := by
    rcases hc with rfl | rfl <;> cases fault.reason <;> decide
  have hwording : Lacks c "'utf-8' codec can't decode " ∧ Lacks c ": " ∧ Lacks c "byte " ∧
      Lacks c " in position " ∧ Lacks c "bytes in position " ∧ Lacks c "-" := by
    rcases hc with rfl | rfl <;> decide
  unfold message
  dsimp only
  split <;> simp [hwording, hnumeral, hbyte, hreason]

/-! ### File names and line ends -/

theorem Command.Path.lacks_steps {c : Char} {name : String} (h : Lacks c name) :
    ∀ step ∈ steps name, Lacks c step := by
  rw [Lacks] at h
  simp only [steps, List.forall_mem_map, lacks_ofList]
  generalize name.toList = chars at h ⊢
  induction chars with
  | nil => simp
  | cons d rest ih =>
      obtain ⟨hne, hrest⟩ := List.ne_and_not_mem_of_not_mem_cons h
      have hparts := ih hrest
      rw [List.foldr_cons]
      split
      · exact List.forall_mem_cons.mpr ⟨List.not_mem_nil, hparts⟩
      · split
        · rename_i hcut
          rw [hcut] at hparts
          obtain ⟨hpart, hparts⟩ := List.forall_mem_cons.mp hparts
          exact List.forall_mem_cons.mpr ⟨List.not_mem_cons_of_ne_of_not_mem hne hpart, hparts⟩
        · simpa using hne

theorem Command.Path.lacks_shown {name : String} (h : Lacks '\x1b' name) :
    Lacks '\x1b' (shown name) := by
  have hroot : Lacks '\x1b' (root name) := by
    rw [root]
    split <;> decide
  have hway : ∀ step ∈ way name, Lacks '\x1b' step :=
    fun step hstep => lacks_steps h step (List.mem_filter.mp hstep).1
  rw [shown]
  split
  · decide
  · exact lacks_append.mpr ⟨hroot, lacks_intercalate (by decide) hway⟩

theorem Text.mem_of_mem_unifyNewlines {text : List Char} {c : Char}
    (h : c ∈ unifyNewlines text) : c = '\n' ∨ c ∈ text := by
  obtain ⟨⟨previous, d⟩, hpair, hd⟩ := List.mem_filterMap.mp h
  rw [unifyNewline] at hd
  split at hd
  · exact .inl (Option.some.inj hd).symm
  · split at hd
    · cases hd
    · right
      rw [← Option.some.inj hd]
      exact (List.of_mem_zip hpair).2

/-! ### What is written of a text -/

/-- The characters of a token are characters of the text. -/
theorem mem_of_lex_eq_ok {options : Options}
    (hpadding : Options.paddingSuffices options.padding = true) {text : String}
    {tokens : TokenSeq} (hlex : lex text options = .ok tokens) :
    ∀ token ∈ tokens.toList, ∀ c ∈ token.lexeme.toList, c ∈ text.toList := by
  obtain ⟨pieces, hdivides, rfl⟩ := (lex_eq_ok_iff hpadding).mp hlex
  rw [TokenSeq.toList_ofList]
  rintro token htoken c hc
  obtain ⟨piece, hpiece, rfl⟩ := List.mem_map.mp htoken
  have hslice := (hdivides.tiles rfl).slice [] piece hpiece
  rw [Munch.Piece.token, String.toList_ofList, ← hslice] at hc
  exact List.mem_of_mem_take (List.mem_of_mem_drop hc)

theorem lacks_render_of_lex_eq_error {options : Options}
    (hpadding : Options.paddingSuffices options.padding = true)
    (hfile : Lacks '\x1b' options.file) {text : String} (htext : Lacks '\x1b' text)
    {fault : Fault} (hlex : lex text options = .error fault) : Lacks '\x1b' fault.render := by
  obtain ⟨pieces, unclosed, hdivides, rfl⟩ := (lex_eq_error_iff hpadding).mp hlex
  obtain ⟨_, c, _, _, -, hc, -, rfl, -⟩ := hdivides.exists_opening rfl
  have hblank : '\x1b' ∉ options.padding.toList := by
    intro hmem
    have := (paddingSuffices_iff.mp hpadding).2 _ hmem
    revert this
    decide +kernel
  apply Fault.lacks_render_unterminated
  · change Lacks '\x1b' (String.singleton c)
    rcases SpanRule.openedBy_eq_some_iff.mp hc with ⟨rfl, -⟩ | ⟨rfl, -⟩ <;> decide
  · exact Location.lacks_render hfile text.toList _
  · rw [lacks_ofList]
    intro hmem
    exact (List.mem_append.mp (mem_of_mem_lineAround hmem)).elim htext hblank

end Tilde
