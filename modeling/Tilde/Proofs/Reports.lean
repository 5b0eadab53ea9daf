import Mathlib.Data.List.Basic
import Tilde.Proofs.Blanking

/-!
What a log says of a scan, and in which order. A scan stops at every character of its
text that has another one after it, but for those of a span after the delimiter that
opens it. At every stop it shows the characters around the place, if it is asked to, and
then it reports what it has finished there: a span at its opening delimiter, and anything
else at its last character, except that a word with a comment right after it is finished
only when the scan has seen the tilde.

A chronicle is a log of which this holds up to an offset. One more stop adds to it what
is shown and reported there, and nothing that was said before changes.
-/

namespace Tilde

open Munch Alphabet

/-- An entry as it is handed on: where it comes from, its level and its text. -/
structure Record where
  origin : Origin
  level : Level
  message : String
  deriving DecidableEq, Repr

def Entry.record (entry : Entry) : Record :=
  ⟨entry.origin, entry.level, entry.message⟩

/-- What is reported of a token: the place of a span and the length of its body, and the
lexeme of anything else. -/
def Token.record (token : Token) : Record :=
  match token.kind.isSpan, token.location with
  | true, some place =>
      let size := token.lexeme.length - 2
      ⟨.span, .debug,
        s!"Scanned {token.kind.label} at {place.line}:{place.column} ({size} chars)"⟩
  | _, _ => ⟨.scan, .debug, s!"{token.kind.label}: {Text.quoted token.lexeme}"⟩

/-- What is reported at the end of a scan. -/
def Record.total (file : String) (count : Nat) : Record :=
  ⟨.scan, .debug, s!"Tokenized {file}: {count} tokens"⟩

/-- The characters before, at and after an offset of a text, as they are shown. -/
def Record.window (text : List Char) (offset : Nat) : Record :=
  let previous := Entry.pane (text.take offset).getLast?
  let current := Entry.pane text[offset]?
  let next := Entry.pane text[offset + 1]?
  ⟨.scan, .debug, s!"window {previous} {current} {next}"⟩

namespace Munch

/-- Whether an offset is in the span that a piece is, after its opening delimiter. -/
def Piece.hides (piece : Piece) (offset : Nat) : Bool :=
  piece.kind.isSpan && decide (piece.offset < offset) &&
    decide (offset < piece.offset + piece.chars.length)

theorem Piece.hides_iff {piece : Piece} {offset : Nat} :
    piece.hides offset = true ↔ piece.kind.isSpan = true ∧ piece.offset < offset ∧
      offset < piece.offset + piece.chars.length := by
  simp [hides, and_assoc]

/-- The offsets before a limit at which the scan of a text with these pieces stops. -/
def stops (pieces : List Piece) (limit : Nat) : List Nat :=
  (List.range limit).filter fun offset => !pieces.any (·.hides offset)

/-- The offset at which a scan reports a piece. -/
def Piece.reportedAt (text : List Char) (piece : Piece) : Nat :=
  let stop := piece.offset + piece.chars.length
  if piece.kind.isSpan then piece.offset
  else if stopsInWord piece.chars && text[stop]? == some '~' then stop
  else stop - 1

theorem Piece.reportedAt_of_isSpan {piece : Piece} (hspan : piece.kind.isSpan = true)
    (text : List Char) : piece.reportedAt text = piece.offset := by
  rw [reportedAt, if_pos hspan]

theorem Piece.reportedAt_eq_last {text : List Char} {piece : Piece}
    (hspan : piece.kind.isSpan = false)
    (hstop : stopsInWord piece.chars = true →
      text[piece.offset + piece.chars.length]? ≠ some '~') :
    piece.reportedAt text = piece.offset + piece.chars.length - 1 := by
  cases hword : stopsInWord piece.chars with
  | true => simp [reportedAt, hspan, hstop hword]
  | false => simp [reportedAt, hspan, hword]

theorem Piece.reportedAt_eq_next {text : List Char} {piece : Piece}
    (hspan : piece.kind.isSpan = false) (hword : stopsInWord piece.chars = true)
    (hstop : text[piece.offset + piece.chars.length]? = some '~') :
    piece.reportedAt text = piece.offset + piece.chars.length := by
  simp [reportedAt, hspan, hword, hstop]

end Munch

/-- The offset of a text at which a token begins, going by its place. -/
def Token.offset (text : List Char) (token : Token) : Nat :=
  (List.range (text.length + 1)).findIdx (token.beginsAt text)

/-- The piece of a text that a token is. -/
def Token.piece (text : List Char) (token : Token) : Piece where
  offset := token.offset text
  chars := token.lexeme.toList
  kind := token.kind

theorem Munch.Piece.piece_token {text : List Char} {piece : Piece} (file : String)
    (hinside : piece.offset ≤ text.length) : (piece.token file text).piece text = piece := by
  have hoffset : (piece.token file text).offset text = piece.offset := by
    have hindex : piece.offset < (List.range (text.length + 1)).length := by
      rw [List.length_range]
      omega
    rw [Token.offset, List.findIdx_eq hindex, List.getElem_range,
      Piece.token_beginsAt file hinside hinside, decide_eq_true_iff]
    refine ⟨rfl, fun start hstart => ?_⟩
    rw [List.getElem_range, Piece.token_beginsAt file hinside (by omega), decide_eq_false_iff_not]
    omega
  rw [Token.piece, hoffset]
  simp [Piece.token]

/-! ### The entries of a scan by the pieces of its text -/

namespace Munch

/-- The entry of a piece that has been found. -/
def Piece.entry (file : String) (text : List Char) (piece : Piece) : Entry :=
  if piece.kind.isSpan then
    let place := Location.ofOffset file text piece.offset
    .span piece.kind place.line place.column (piece.chars.length - 2)
  else .word (piece.token file text)

theorem Piece.entry_of_isSpan_eq_false {piece : Piece} (hspan : piece.kind.isSpan = false)
    (file : String) (text : List Char) : piece.entry file text = .word (piece.token file text) := by
  rw [entry, hspan, if_neg Bool.false_ne_true]

theorem Piece.record_entry (file : String) (text : List Char) (piece : Piece) :
    (piece.entry file text).record = (piece.token file text).record := by
  cases hspan : piece.kind.isSpan with
  | true =>
      rw [entry, if_pos hspan]
      simp only [Token.record, token, hspan, String.length_ofList]
      rfl
  | false =>
      rw [entry_of_isSpan_eq_false hspan]
      simp only [Token.record, token, hspan]
      rfl

theorem Piece.isWindow_entry (file : String) (text : List Char) (piece : Piece) :
    (piece.entry file text).isWindow = false := by
  rw [entry]
  split <;> rfl

end Munch

/-- What a scan shows of the characters around an offset: nothing unless it is asked to. -/
def Entry.shown (options : Options) (text : List Char) (offset : Nat) : List Entry :=
  match options.trace, text.drop offset with
  | true, c :: next :: _ => [.window (text.take offset).getLast? c next]
  | _, _ => []

namespace Entry

variable {options : Options} {text : List Char} {offset : Nat}

theorem shown_of_trace_eq_false (htrace : options.trace = false) (text : List Char)
    (offset : Nat) : shown options text offset = [] := by
  rw [shown, htrace]

theorem isWindow_of_mem_shown : ∀ entry ∈ shown options text offset, entry.isWindow = true := by
  rw [shown]
  split
  · simp [isWindow]
  · simp

theorem map_record_shown (htrace : options.trace = true) (hoffset : offset + 1 < text.length) :
    (shown options text offset).map record = [Record.window text offset] := by
  have hoffset' : offset < text.length := Nat.lt_of_succ_lt hoffset
  have hdrop : text.drop offset = text[offset] :: text[offset + 1] :: text.drop (offset + 2) := by
    rw [List.drop_eq_getElem_cons hoffset', List.drop_eq_getElem_cons hoffset]
  rw [shown, htrace, hdrop, Record.window, List.getElem?_eq_getElem hoffset',
    List.getElem?_eq_getElem hoffset]
  rfl

end Entry

/-! ### Chronicles -/

/-- A log is that of a scan of a text up to an offset, before which these pieces of the
text have been found. -/
structure Chronicle (options : Options) (text : List Char) (found : List Piece) (limit : Nat)
    (log : List Entry) : Prop where
  within : ∀ piece ∈ found, piece.offset + piece.chars.length ≤ limit
  reported : ∀ piece ∈ found, piece.reportedAt text < limit
  /-- Every piece is reported once, and nothing else is. -/
  entries : log.filter (!·.isWindow) = found.map (Piece.entry options.file text)
  /-- One stop after the other, the scan looks around and then reports. -/
  order : log = (stops found limit).flatMap fun offset =>
    Entry.shown options text offset ++
      (found.filter (·.reportedAt text = offset)).map (Piece.entry options.file text)

namespace Chronicle

variable {options : Options} {text : List Char} {found new : List Piece}
  {limit limit' : Nat} {log : List Entry}

theorem empty (options : Options) (text : List Char) : Chronicle options text [] 0 [] where
  within := by simp
  reported := by simp
  entries := rfl
  order := rfl

theorem lt_of_mem_stops {offset : Nat} (h : offset ∈ stops found limit) : offset < limit :=
  List.mem_range.mp (List.mem_filter.mp h).1

theorem any_hides_of_ge {offset : Nat} (hoffset : limit ≤ offset)
    (hfound : ∀ piece ∈ found, piece.offset + piece.chars.length ≤ limit) :
    found.any (·.hides offset) = false := by
  rw [List.any_eq_false]
  intro piece hpiece hhides
  have hstop := hfound piece hpiece
  have hinside := Piece.hides_iff.mp hhides
  omega

theorem any_hides_of_le {offset : Nat} (hoffset : offset ≤ limit)
    (hspans : ∀ piece ∈ new, piece.kind.isSpan = true → limit ≤ piece.offset) :
    new.any (·.hides offset) = false := by
  rw [List.any_eq_false]
  intro piece hpiece hhides
  obtain ⟨hspan, hinside, -⟩ := Piece.hides_iff.mp hhides
  have hstart := hspans piece hpiece hspan
  omega

/-- Where a scan goes on at a limit, the limit is the only new stop if what comes after it
is in a span that begins there. -/
theorem stops_append (hlt : limit < limit')
    (hfound : ∀ piece ∈ found, piece.offset + piece.chars.length ≤ limit)
    (hspans : ∀ piece ∈ new, piece.kind.isSpan = true → limit ≤ piece.offset)
    (hhidden : ∀ offset, limit < offset → offset < limit' →
      ∃ piece ∈ new, piece.hides offset = true) :
    stops (found ++ new) limit' = stops found limit ++ [limit] := by
  obtain ⟨k, rfl⟩ := Nat.exists_eq_add_of_lt hlt
  -- only the old spans hide what is before the limit, and only a new one what is after it
  have hrange : List.range (limit + k + 1) =
      List.range limit ++ [limit] ++ (List.range k).map (limit + 1 + ·) := by
    rw [Nat.add_right_comm, List.range_add, List.range_succ]
  have hbefore : (List.range limit).filter (fun offset => !(found ++ new).any (·.hides offset)) =
      stops found limit := by
    apply List.filter_congr
    intro offset hoffset
    rw [List.any_append, any_hides_of_le (List.mem_range.mp hoffset).le hspans, Bool.or_false]
  have hhere : [limit].filter (fun offset => !(found ++ new).any (·.hides offset)) = [limit] := by
    rw [List.filter_eq_self]
    intro offset hoffset
    obtain rfl := List.mem_singleton.mp hoffset
    rw [List.any_append, any_hides_of_ge (Nat.le_refl _) hfound,
      any_hides_of_le (Nat.le_refl _) hspans]
    rfl
  have hafter : ((List.range k).map (limit + 1 + ·)).filter
      (fun offset => !(found ++ new).any (·.hides offset)) = [] := by
    rw [List.filter_eq_nil_iff]
    intro offset hoffset
    obtain ⟨i, hi, rfl⟩ := List.mem_map.mp hoffset
    have hi := List.mem_range.mp hi
    obtain ⟨piece, hpiece, hhides⟩ := hhidden (limit + 1 + i) (by omega) (by omega)
    have hany : new.any (·.hides (limit + 1 + i)) = true :=
      List.any_eq_true.mpr ⟨piece, hpiece, hhides⟩
    rw [List.any_append, hany, Bool.or_true]
    exact Bool.false_ne_true
  rw [stops, hrange, List.filter_append, List.filter_append, hbefore, hhere, hafter,
    List.append_nil]

/-- One more stop. -/
theorem stop (h : Chronicle options text found limit log) (hlt : limit < limit')
    (hwithin : ∀ piece ∈ new, piece.offset + piece.chars.length ≤ limit')
    (hreported : ∀ piece ∈ new, piece.reportedAt text = limit)
    (hspans : ∀ piece ∈ new, piece.kind.isSpan = true → limit ≤ piece.offset)
    (hhidden : ∀ offset, limit < offset → offset < limit' →
      ∃ piece ∈ new, piece.hides offset = true) :
    Chronicle options text (found ++ new) limit'
      (log ++ (Entry.shown options text limit ++ new.map (Piece.entry options.file text))) where
  within := by
    refine List.forall_mem_append.mpr ⟨fun piece hpiece => ?_, hwithin⟩
    exact Nat.le_trans (h.within piece hpiece) hlt.le
  reported := by
    refine List.forall_mem_append.mpr ⟨fun piece hpiece => ?_, fun piece hpiece => ?_⟩
    · exact Nat.lt_trans (h.reported piece hpiece) hlt
    · rwa [hreported piece hpiece]
  entries := by
    have hshown : (Entry.shown options text limit).filter (!·.isWindow) = [] := by
      rw [List.filter_eq_nil_iff]
      intro entry hentry
      simp [Entry.isWindow_of_mem_shown entry hentry]
    have hnew : (new.map (Piece.entry options.file text)).filter (!·.isWindow) =
        new.map (Piece.entry options.file text) := by
      rw [List.filter_eq_self]
      simp [Piece.isWindow_entry]
    rw [List.filter_append, List.filter_append, h.entries, hshown, hnew, List.nil_append,
      List.map_append]
  order := by
    -- nothing new is reported before the limit, and nothing old at it
    have hbefore : ∀ offset ∈ stops found limit,
        (found ++ new).filter (·.reportedAt text = offset) =
          found.filter (·.reportedAt text = offset) := by
      intro offset hoffset
      have hnone : new.filter (·.reportedAt text = offset) = [] := by
        rw [List.filter_eq_nil_iff]
        intro piece hpiece
        simpa [hreported piece hpiece] using (lt_of_mem_stops hoffset).ne'
      rw [List.filter_append, hnone, List.append_nil]
    have hhere : (found ++ new).filter (·.reportedAt text = limit) = new := by
      have hnone : found.filter (·.reportedAt text = limit) = [] := by
        rw [List.filter_eq_nil_iff]
        intro piece hpiece
        simpa using (h.reported piece hpiece).ne
      have hall : new.filter (·.reportedAt text = limit) = new := by
        rw [List.filter_eq_self]
        simpa using hreported
      rw [List.filter_append, hnone, hall, List.nil_append]
    rw [stops_append hlt h.within hspans hhidden, List.flatMap_append, List.flatMap_singleton,
      hhere]
    congr 1
    refine h.order.trans (List.flatMap_congr fun offset hoffset => ?_)
    rw [hbefore offset hoffset]

/-- One more stop at which no span begins. -/
theorem stop_word (h : Chronicle options text found limit log) (new : List Piece)
    (hwithin : ∀ piece ∈ new, piece.offset + piece.chars.length ≤ limit + 1)
    (hreported : ∀ piece ∈ new, piece.reportedAt text = limit)
    (hspans : ∀ piece ∈ new, piece.kind.isSpan = false) :
    Chronicle options text (found ++ new) (limit + 1)
      (log ++ (Entry.shown options text limit ++ new.map (Piece.entry options.file text))) := by
  refine h.stop (Nat.lt_succ_self limit) hwithin hreported ?_ fun offset hlt hlt' => ?_
  · intro piece hpiece hspan
    rw [hspans piece hpiece] at hspan
    cases hspan
  · omega

/-- One more stop at which a span begins, with a word right before it or none. -/
theorem stop_span (h : Chronicle options text found limit log) (word : List Piece) (span : Piece)
    (hspan : span.kind.isSpan = true) (hoffset : span.offset = limit) (hne : span.chars ≠ [])
    (hwithin : ∀ piece ∈ word, piece.offset + piece.chars.length ≤ limit)
    (hreported : ∀ piece ∈ word, piece.reportedAt text = limit)
    (hword : ∀ piece ∈ word, piece.kind.isSpan = false) :
    Chronicle options text (found ++ (word ++ [span])) (limit + span.chars.length)
      (log ++ (Entry.shown options text limit ++
        (word ++ [span]).map (Piece.entry options.file text))) := by
  have hpos : 0 < span.chars.length := List.length_pos_iff.mpr hne
  subst hoffset
  apply h.stop
  · omega
  · refine List.forall_mem_append.mpr ⟨fun piece hpiece => ?_, by simp⟩
    exact Nat.le_trans (hwithin piece hpiece) (Nat.le_add_right ..)
  · refine List.forall_mem_append.mpr ⟨hreported, ?_⟩
    simpa using Piece.reportedAt_of_isSpan hspan text
  · refine List.forall_mem_append.mpr ⟨fun piece hpiece hspan' => ?_, by simp⟩
    rw [hword piece hpiece] at hspan'
    cases hspan'
  · intro offset hlt hlt'
    exact ⟨span, by simp, Piece.hides_iff.mpr ⟨hspan, hlt, hlt'⟩⟩

/-! ### What a chronicle says -/

theorem isWindow_of_mem (h : Chronicle options text found limit log) {entry : Entry}
    (hentry : entry ∈ log) (hshown : ∀ offset, entry ∉ Entry.shown options text offset) :
    entry.isWindow = false := by
  rw [h.order, List.mem_flatMap] at hentry
  obtain ⟨offset, -, hentry⟩ := hentry
  rcases List.mem_append.mp hentry with hentry | hentry
  · exact absurd hentry (hshown offset)
  · obtain ⟨piece, -, rfl⟩ := List.mem_map.mp hentry
    exact piece.isWindow_entry options.file text

/-- A scan that shows nothing reports the pieces that it finds. -/
theorem log_eq (h : Chronicle options text found limit log) (htrace : options.trace = false) :
    log = found.map (Piece.entry options.file text) := by
  rw [← h.entries, eq_comm, List.filter_eq_self]
  intro entry hentry
  rw [h.isWindow_of_mem hentry]
  · rfl
  · simp [Entry.shown_of_trace_eq_false htrace]

/-- What a scan shows, it shows stop by stop. -/
theorem filter_isWindow (h : Chronicle options text found limit log) :
    log.filter (·.isWindow) = (stops found limit).flatMap (Entry.shown options text) := by
  rw [h.order, List.filter_flatMap]
  congr 1
  funext offset
  have hentries : ((found.filter (·.reportedAt text = offset)).map
      (Piece.entry options.file text)).filter (·.isWindow) = [] := by
    rw [List.filter_eq_nil_iff]
    rintro _ hentry
    obtain ⟨piece, -, rfl⟩ := List.mem_map.mp hentry
    simp [Piece.isWindow_entry]
  rw [List.filter_append, hentries, List.append_nil, List.filter_eq_self]
  exact Entry.isWindow_of_mem_shown

end Chronicle

end Tilde
