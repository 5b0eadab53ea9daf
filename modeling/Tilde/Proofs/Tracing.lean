import Tilde.Proofs.Padding
import Tilde.Proofs.Recording

/-!
What a trace changes: nothing but that the log has windows. The logs of a source with a
trace and without are chronicles of one and the same scan, and both can be told from the
tokens of the source alone, record by record.
-/

namespace Tilde

open Munch Scan

/-- A source that is scanned with windows or without. -/
def Source.traced (source : Source) (trace : Bool) : Source :=
  { source with options := { source.options with trace := trace } }

/-- What the scan of a source reports with windows or without. -/
def Source.log (source : Source) (trace : Bool) : List Entry :=
  (source.traced trace).scan.log.toList

/-- The offsets before a limit at which the scan of a source stops that has these tokens. -/
def Source.stops (source : Source) (tokens : List Token) (limit : Nat) : List Nat :=
  Munch.stops (tokens.map (Token.piece source.text.toList)) limit

/-- The tokens of a source that its scan reports where it stops at an offset. -/
def Source.reported (source : Source) (tokens : List Token) (offset : Nat) : List Token :=
  tokens.filter fun token =>
    (token.piece source.text.toList).reportedAt source.text.toList = offset

/-- The logs of a source are those of a scan that found these tokens of its text, up to an
offset, and what is reported at the end of the scan comes after everything else. -/
structure Source.Tells (source : Source) (tokens : List Token) (limit : Nat)
    (closing : List Record) : Prop where
  /-- A log without windows has one record for each token. -/
  plain : (source.log false).map Entry.record = tokens.map Token.record ++ closing
  /-- A log with windows is the other one without them, -/
  others : (source.log true).filter (!·.isWindow) = source.log false
  /-- it has one window for each stop, -/
  windows : ((source.log true).filter (·.isWindow)).map Entry.record =
    (source.stops tokens limit).map (Record.window source.text.toList)
  /-- and each window comes right before what is reported at its stop. -/
  order : (source.log true).map Entry.record =
    ((source.stops tokens limit).flatMap fun offset =>
      Record.window source.text.toList offset ::
        (source.reported tokens offset).map Token.record) ++ closing

section

variable {source : Source} {pieces : List Piece} {limit : Nat}

theorem map_record_entry (file : String) (text : List Char) (pieces : List Piece) :
    (pieces.map (Piece.entry file text)).map Entry.record =
      (pieces.map (Piece.token file text)).map Token.record := by
  rw [List.map_map, List.map_map]
  exact List.map_congr_left fun piece _ => piece.record_entry file text

namespace Chronicle

variable {options : Options} {text : List Char} {log : List Entry}

theorem piece_token (h : Chronicle options text pieces limit log) (hlimit : limit < text.length)
    (file : String) : ∀ piece ∈ pieces, (piece.token file text).piece text = piece := by
  intro piece hpiece
  have hwithin := h.within piece hpiece
  exact Piece.piece_token file (by omega)

theorem map_piece_token (h : Chronicle options text pieces limit log)
    (hlimit : limit < text.length) (file : String) :
    (pieces.map (Piece.token file text)).map (Token.piece text) = pieces := by
  rw [List.map_map]
  exact (List.map_congr_left (h.piece_token hlimit file)).trans (List.map_id pieces)

theorem map_record_shown (htrace : options.trace = true) (hlimit : limit < text.length)
    (pieces : List Piece) : ∀ offset ∈ stops pieces limit,
      (Entry.shown options text offset).map Entry.record = [Record.window text offset] := by
  intro offset hoffset
  have hlt := lt_of_mem_stops hoffset
  exact Entry.map_record_shown htrace (by omega)

theorem map_record_windows (h : Chronicle options text pieces limit log)
    (htrace : options.trace = true) (hlimit : limit < text.length) :
    (log.filter (·.isWindow)).map Entry.record =
      (stops pieces limit).map (Record.window text) := by
  rw [h.filter_isWindow, List.map_flatMap,
    List.flatMap_congr (map_record_shown htrace hlimit pieces), List.map_eq_flatMap]

theorem map_record (h : Chronicle options text pieces limit log)
    (htrace : options.trace = true) (hlimit : limit < text.length) :
    log.map Entry.record = (stops pieces limit).flatMap fun offset =>
      Record.window text offset ::
        ((pieces.map (Piece.token options.file text)).filter fun token =>
          (token.piece text).reportedAt text = offset).map Token.record := by
  conv_lhs => rw [h.order, List.map_flatMap]
  apply List.flatMap_congr
  intro offset hoffset
  have hfilter : (pieces.map (Piece.token options.file text)).filter
      (fun token => (token.piece text).reportedAt text = offset) =
        (pieces.filter (·.reportedAt text = offset)).map (Piece.token options.file text) := by
    rw [List.filter_map]
    congr 1
    apply List.filter_congr
    intro piece hpiece
    rw [Function.comp_apply, h.piece_token hlimit options.file piece hpiece]
  rw [List.map_append, map_record_shown htrace hlimit pieces offset hoffset, map_record_entry,
    hfilter]
  rfl

end Chronicle

/-- The logs with a trace and without are told by the pieces of the text. -/
theorem Source.tells_of_recorded {closing : List Entry}
    (h : ∀ trace, (source.traced trace).scan.Recorded (source.traced trace).options
      source.text.toList pieces limit closing)
    (hlimit : limit < source.text.toList.length)
    (hclosing : ∀ entry ∈ closing, entry.isWindow = false) :
    source.Tells (pieces.map (Piece.token source.options.file source.text.toList)) limit
      (closing.map Entry.record) := by
  obtain ⟨plain, hlog, hplain⟩ := h false
  obtain ⟨traced, hlog', htraced⟩ := h true
  rw [← Source.log] at hlog hlog'
  have hkept : closing.filter (!·.isWindow) = closing := by
    rw [List.filter_eq_self]
    simpa using hclosing
  have hnone : closing.filter (·.isWindow) = [] := by
    rw [List.filter_eq_nil_iff]
    simpa using hclosing
  constructor
  · rw [hlog, hplain.log_eq rfl, List.map_append, map_record_entry]
    rfl
  · rw [hlog, hlog', List.filter_append, htraced.entries, hkept, hplain.log_eq rfl]
    rfl
  · rw [hlog', List.filter_append, hnone, List.append_nil, htraced.map_record_windows rfl hlimit,
      Source.stops, htraced.map_piece_token hlimit]
  · rw [hlog', List.map_append, htraced.map_record rfl hlimit, Source.stops,
      htraced.map_piece_token hlimit]
    rfl

end

theorem Source.scan_traced (source : Source) (trace : Bool) :
    (source.traced trace).scan =
      run (source.traced trace).options (String.ofList source.text.toList) := by
  rw [String.ofList_toList]
  rfl

variable {pieces : List Piece} {c : Char}

theorem Source.tells_of_closed (source : Source)
    (h : Divides 0 source.text.toList ⟨pieces, none⟩)
    (hlast : source.text.toList.getLast? = some c) (hc : Alphabet.isBlank c = true) :
    (∀ trace, (source.traced trace).tokens =
        .ok (.ofList (pieces.map (Piece.token source.options.file source.text.toList)))) ∧
      source.Tells (pieces.map (Piece.token source.options.file source.text.toList))
        (source.text.toList.length - 1) [Record.total source.options.file pieces.length] := by
  have hread : ∀ d ∈ source.text.toList.getLast?,
      Alphabet.isBlank d = true ∨ (SpanRule.openedBy d).isSome = true := by
    rw [hlast]
    rintro _ ⟨⟩
    exact .inl hc
  have hpos : 0 < source.text.toList.length := by
    rw [List.length_pos_iff]
    rintro hempty
    simp [hempty] at hlast
  have hrecorded (trace : Bool) : (source.traced trace).scan.Recorded
      (source.traced trace).options source.text.toList pieces (source.text.toList.length - 1)
        [.total source.options.file pieces.length] := by
    rw [Source.scan_traced]
    exact run_recorded_of_closed h hlast hc (source.traced trace).options
  refine ⟨fun trace => ?_, Source.tells_of_recorded hrecorded (by omega) (by simp [Entry.isWindow])⟩
  rw [Source.tokens, Source.scan_traced]
  exact run_of_closed h hread (source.traced trace).options

theorem Source.tells_of_unclosed (source : Source) {unclosed : Unclosed}
    (h : Divides 0 source.text.toList ⟨pieces, some unclosed⟩)
    (hlast : source.text.toList.getLast? = some c) (hc : Alphabet.isBlank c = true) :
    (∀ trace, (source.traced trace).tokens =
        .error (unclosed.fault source.options.file source.text.toList [])) ∧
      source.Tells (pieces.map (Piece.token source.options.file source.text.toList))
        (unclosed.offset + 1) [] := by
  have hinside : unclosed.offset + 1 < source.text.toList.length := by
    apply h.offset_add_one_lt ?_ rfl
    rw [hlast]
    rintro _ ⟨⟩
    exact hc
  have hrecorded (trace : Bool) : (source.traced trace).scan.Recorded
      (source.traced trace).options source.text.toList pieces (unclosed.offset + 1) [] := by
    rw [Source.scan_traced]
    exact run_recorded_of_unclosed h hlast hc (source.traced trace).options
  refine ⟨fun trace => ?_, Source.tells_of_recorded hrecorded hinside (by simp)⟩
  rw [Source.tokens, Source.scan_traced]
  exact run_of_unclosed h hinside (source.traced trace).options

theorem Source.ofText_eq_ok_iff {text : String} {options : Options} {source : Source} :
    Source.ofText text options = .ok source ↔ EndsInBlanks text ∧ source = ⟨text, options⟩ := by
  rw [Source.ofText, ← endsInPadding_iff]
  split
  · rename_i hends
    simp [hends, eq_comm]
  · rename_i hends
    simp [hends]

/-- The log of a scan mirrors the scan, and a trace changes nothing else. A scan that
breaks off tells what lexing the text before the place of its fault does, and no more. -/
theorem log_mirrors_scan {text : String} {options : Options} {source : Source}
    (hsource : Source.ofText text options = .ok source) :
    (source.traced true).tokens = (source.traced false).tokens ∧
    (∀ tokens, source.tokens = .ok tokens →
      source.Tells tokens.toList (text.length - 1) [Record.total options.file tokens.size]) ∧
    ∀ fault, source.tokens = .error fault → ∃ offset before,
      fault.location = some (Location.ofOffset options.file text.toList offset) ∧
      offset < text.length ∧
      lex (String.ofList (text.toList.take offset)) { file := options.file } = .ok before ∧
      source.Tells before.toList (offset + 1) [] := by
  obtain ⟨⟨front, b, c, htext, -, hc⟩, rfl⟩ := Source.ofText_eq_ok_iff.mp hsource
  have hlast : text.toList.getLast? = some c := by simp [htext]
  have hdivides := divides_divideFrom 0 text.toList
  rcases hdivision : divideFrom 0 text.toList with ⟨pieces, _ | unclosed⟩
  · rw [hdivision] at hdivides
    obtain ⟨htokens, htells⟩ := Source.tells_of_closed ⟨text, options⟩ hdivides hlast hc
    have hown : (Source.mk text options).tokens = _ := htokens options.trace
    refine ⟨(htokens true).trans (htokens false).symm, ?_, ?_⟩
    · rintro tokens hlex
      obtain rfl := Except.ok.inj (hown.symm.trans hlex)
      rw [TokenSeq.size_eq_length, TokenSeq.toList_ofList, List.length_map, ← String.length_toList]
      exact htells
    · rintro fault hlex
      cases hown.symm.trans hlex
  · rw [hdivision] at hdivides
    obtain ⟨htokens, htells⟩ := Source.tells_of_unclosed ⟨text, options⟩ hdivides hlast hc
    have hown : (Source.mk text options).tokens = _ := htokens options.trace
    refine ⟨(htokens true).trans (htokens false).symm, ?_, ?_⟩
    · rintro tokens hlex
      cases hown.symm.trans hlex
    · rintro fault hlex
      obtain rfl := Except.error.inj (hown.symm.trans hlex)
      have hbefore := lex_take_of_unclosed options.paddingSuffices_plain hdivides
      refine ⟨unclosed.offset, _, rfl, hdivides.offset_lt rfl, hbefore, ?_⟩
      rw [TokenSeq.toList_ofList]
      exact htells

/-- A word with a comment right after it, and a text that breaks off at such a comment. -/
theorem log_mirrors_scan_two :
    let options : Options := { file := "m.tl", trace := true }
    let whole : Source := ⟨"do~\n~;\t\n", options⟩
    let broken : Source := ⟨"\"\" y~  ", options⟩
    (Source.ofText whole.text options = .ok whole ∧
      (whole.traced true).tokens = (whole.traced false).tokens ∧
      whole.Tells [⟨"do", .doWord, some ⟨"m.tl", 1, 1⟩⟩, ⟨"~\n~", .comment, some ⟨"m.tl", 1, 3⟩⟩,
        ⟨";", .semicolon, some ⟨"m.tl", 2, 2⟩⟩] 7 [Record.total "m.tl" 3]) ∧
    Source.ofText broken.text options = .ok broken ∧
      ∃ offset before,
        some (Location.mk "m.tl" 1 5) =
          some (Location.ofOffset "m.tl" broken.text.toList offset) ∧
        offset < broken.text.length ∧
        lex (String.ofList (broken.text.toList.take offset)) { file := "m.tl" } = .ok before ∧
        broken.Tells before.toList (offset + 1) [] := by
  intro options whole broken
  have hpadded : endsInPadding whole.text = true := by decide +kernel
  have hpadded' : endsInPadding broken.text = true := by decide +kernel
  have hwhole : Source.ofText whole.text options = .ok whole := by
    rw [Source.ofText, if_pos hpadded]
  have hbroken : Source.ofText broken.text options = .ok broken := by
    rw [Source.ofText, if_pos hpadded']
  have htokens : whole.tokens = .ok (.ofList
      [⟨"do", .doWord, some ⟨"m.tl", 1, 1⟩⟩, ⟨"~\n~", .comment, some ⟨"m.tl", 1, 3⟩⟩,
        ⟨";", .semicolon, some ⟨"m.tl", 2, 2⟩⟩]) := by decide +kernel
  have hfault : broken.tokens = .error
      (.unterminated .comment "~" (some ⟨"m.tl", 1, 5⟩) (some "\"\" y~  ")) := by decide +kernel
  have hlength : whole.text.length - 1 = 7 := by decide +kernel
  obtain ⟨hsame, htells, -⟩ := log_mirrors_scan hwhole
  have htells := htells _ htokens
  rw [TokenSeq.size_eq_length, TokenSeq.toList_ofList, hlength] at htells
  exact ⟨⟨hwhole, hsame, htells⟩, hbroken, (log_mirrors_scan hbroken).2.2 _ hfault⟩

example :
    ((Source.mk "a~~ \n" { file := "m.tl" }).log true).map Entry.message =
      ["window '' 'a' '~'", "window 'a' '~' '~'", "Identifier: 'a'",
        "Scanned Comment at 1:2 (0 chars)", "window '~' ' ' '\\n'",
        "Tokenized m.tl: 2 tokens"] := by
  decide +kernel

end Tilde
