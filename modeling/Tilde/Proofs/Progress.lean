import Tilde.Proofs.Joining
import Tilde.Proofs.Stages

/-!
Every scan ends, whatever its text ends in. A step is taken only where a character follows
the current one, and all that a step looks at and passes is in the text then, also what a
trace shows and what a span is read through. A step that does not fail takes the reader on
by at least one character, so there are fewer steps than characters; and a step fails only
where a span is never closed.
-/

namespace Tilde

/-- A fault that is about a comment or a string literal that is never closed. -/
def Fault.IsUnclosed (fault : Fault) : Prop :=
  ∃ form delimiter location line,
    (form = SpanForm.comment ∨ form = .stringLiteral) ∧
      fault = .unterminated form delimiter location line

/-- The body of a span is read from a reader on without a look or a move outside the text,
up to the end of the text or to the delimiter that is passed as well. -/
inductive SpanRule.ReadsInside (rule : SpanRule) : Reader → Prop
  | done {r : Reader} (hdone : r.isDone = true) : ReadsInside rule r
  | closing {r after : Reader} {c : Char} (hc : r.current = .ok c)
      (hcloses : rule.delimits (String.singleton c) = true) (hafter : r.advance = .ok after) :
      ReadsInside rule r
  | body {r after : Reader} {c : Char} (hc : r.current = .ok c)
      (hopen : rule.delimits (String.singleton c) = false) (hafter : r.advance = .ok after)
      (hrest : ReadsInside rule after) : ReadsInside rule r

namespace Scan

/-- All that is looked at and passed in a step is in the text. -/
structure State.Inside (s : State) : Prop where
  current : ∃ c, s.reader.current = .ok c
  next : ∃ c, s.reader.next = .ok c
  previous : ∃ c, s.reader.previous = .ok c
  /-- If a span is opened here, so is all that it is read through. -/
  advance : ∃ after, s.reader.advance = .ok after ∧ ∀ rule, SpanRule.ReadsInside rule after

/-- One state of a scan is further on in the text than another. -/
structure State.Passes (s after : State) : Prop where
  text_eq : after.reader.text = s.reader.text
  index_lt : s.reader.index < after.reader.index
  index_le : after.reader.index ≤ after.reader.size

/-- The states of a scan by the number of steps that lead to them. -/
inductive Reaches (options : Options) (first : State) : Nat → State → Prop
  | first : Reaches options first 0 first
  | step {n : Nat} {s after : State} (hs : Reaches options first n s)
      (hnext : s.reader.hasNext = true) (hstep : Scan.step options s = .ok after) :
      Reaches options first (n + 1) after

end Scan

/-! ### Inside the text -/

/-- A reader that is not before its text reads nothing outside of it. -/
theorem SpanRule.readsInside {r : Reader} (hr : 0 ≤ r.index) (rule : SpanRule) :
    rule.ReadsInside r := by
  -- on the recursion of the reading of a body; what has been read of it plays no part
  generalize "" = body
  fun_induction rule.readBody r body with
  | case1 _ _ hdone => exact .done hdone
  | case2 r _ hmore fault hfault =>
      have hlt : r.index < r.size := by simpa [Reader.isDone] using hmore
      obtain ⟨c, hc⟩ : ∃ c, r.current = .ok c :=
        Reader.exists_peek_eq_ok_iff.mpr ⟨by omega, by omega⟩
      cases hfault.symm.trans hc
  | case3 r _ _ c hc hcloses =>
      exact .closing hc hcloses (Reader.advance_eq_ok_iff.mpr ⟨c, hc, rfl⟩)
  | case4 r _ _ c hc hopen ih =>
      have hpass : 0 ≤ (r.pass c).index := by
        rw [Reader.index_pass]
        omega
      exact .body hc (Bool.eq_false_iff.mpr hopen) (Reader.advance_eq_ok_iff.mpr ⟨c, hc, rfl⟩)
        (ih hpass)

namespace Scan

variable {options : Options} {text : List Char} {stage : Stage} {s after : State}

theorem State.At.text_reader (h : s.At options text stage) :
    s.reader.text = text.toArray := by
  rw [h.reader_eq, ← h.text_eq, ← List.append_assoc]
  rfl

theorem State.At.size_reader (h : s.At options text stage) : s.reader.size = text.length := by
  rw [Reader.size, h.text_reader, List.size_toArray]

theorem State.At.index_le (h : s.At options text stage) :
    0 ≤ s.reader.index ∧ s.reader.index ≤ s.reader.size := by
  rw [h.reader_eq]
  simp [Reader.between, Reader.size]
  omega

theorem State.At.index_add_one_lt (h : s.At options text stage)
    (hnext : s.reader.hasNext = true) : s.reader.index + 1 < text.length := by
  rw [← h.size_reader]
  simpa [Reader.hasNext] using hnext

/-- Where a step is taken, all it looks at and passes is in the text. -/
theorem State.At.inside (h : s.At options text stage) (hnext : s.reader.hasNext = true) :
    s.Inside := by
  rw [h.hasNext_eq, decide_eq_true_iff] at hnext
  obtain ⟨passed, held, ahead, found⟩ := stage
  obtain ⟨c, next, rest, rfl⟩ : ∃ c next rest, ahead = c :: next :: rest := by
    match ahead, hnext with
    | c :: next :: rest, _ => exact ⟨c, next, rest, rfl⟩
  have hreader : s.reader = .between (passed ++ held) (c :: next :: rest) := h.reader_eq
  constructor
  · exact ⟨c, by rw [hreader, Reader.current_between]⟩
  · exact ⟨next, by rw [hreader, Reader.next_between]⟩
  · exact ⟨_, by rw [hreader, Reader.previous_between]⟩
  · refine ⟨_, by rw [hreader, Reader.advance_between], fun rule => ?_⟩
    exact rule.readsInside (Reader.index_between_nonneg ..)

/-- A step that is taken leads to a later stage of the same text. -/
theorem State.At.passes (h : s.At options text stage) (hnext : s.reader.hasNext = true)
    (hstep : Scan.step options s = .ok after) :
    s.Passes after ∧ ∃ stage', after.At options text stage' := by
  rw [h.hasNext_eq, decide_eq_true_iff] at hnext
  rcases h.step hnext with ⟨s', stage', hs', h'⟩ | ⟨failure, hs', -⟩
  · obtain rfl := Except.ok.inj (hs'.symm.trans hstep)
    have htext : s'.reader.text = s.reader.text := h'.text_reader.trans h.text_reader.symm
    have hsize : s'.reader.size = s.reader.size := h'.size_reader.trans h.size_reader.symm
    have hless := remaining_step hstep
    have hbefore := h.index_le
    have hafter := h'.index_le
    simp only [Reader.remaining] at hless
    exact ⟨⟨htext, by omega, hafter.2⟩, stage', h'⟩
  · cases hs'.symm.trans hstep

theorem Failure.Justified.isUnclosed {failure : Failure} (h : failure.Justified options text) :
    failure.fault.IsUnclosed := by
  obtain ⟨_, _, -, -, hfault⟩ := h
  refine ⟨_, _, _, _, ?_, hfault⟩
  rw [Munch.spanForm]
  split
  · exact .inl rfl
  · exact .inr rfl

theorem State.At.isUnclosed (h : s.At options text stage) (hnext : s.reader.hasNext = true)
    {failure : Failure} (hstep : Scan.step options s = .error failure) :
    failure.fault.IsUnclosed := by
  rw [h.hasNext_eq, decide_eq_true_iff] at hnext
  rcases h.step hnext with ⟨s', _, hs', -⟩ | ⟨_, hs', hjustified⟩
  · cases hs'.symm.trans hstep
  · obtain rfl := Except.error.inj (hs'.symm.trans hstep)
    exact hjustified.isUnclosed

/-! ### The run -/

/-- After each step the reader has passed as many characters as there were steps. -/
theorem Reaches.at {n : Nat} (h : Reaches options (.start (String.ofList text)) n s) :
    (∃ stage, s.At options text stage) ∧ n ≤ s.reader.index ∧ n ≤ text.length - 1 := by
  induction h with
  | first => exact ⟨⟨_, State.at_start options text⟩, Int.le_refl _, Nat.zero_le _⟩
  | @step n s after hs hnext hstep ih =>
      obtain ⟨⟨stage, hat⟩, hindex, -⟩ := ih
      obtain ⟨hpasses, hat'⟩ := hat.passes hnext hstep
      have hlt := hpasses.index_lt
      have hmore := hat.index_add_one_lt hnext
      exact ⟨hat', by omega, by omega⟩

/-- How a scan ends: at a state that is reached, where no character follows, or with the
failure of a step from there. -/
inductive EndsAt (options : Options) (first : State) (n : Nat) (s : State) : Prop
  | done (hs : Reaches options first n s) (hnext : s.reader.hasNext = false)
      (hsteps : steps options first = .ok s)
  | failed {failure : Failure} (hs : Reaches options first n s)
      (hnext : s.reader.hasNext = true) (hstep : Scan.step options s = .error failure)
      (hsteps : steps options first = .error failure)

/-- A scan comes to its end from every state that it reaches. -/
theorem Reaches.exists_endsAt {first : State} {n : Nat} (hs : Reaches options first n s)
    (hsteps : steps options first = steps options s) : ∃ n s, EndsAt options first n s := by
  -- on the number of characters left to pass, which every step makes smaller
  induction hn : s.reader.remaining using Nat.strong_induction_on generalizing n s with
  | _ m ih =>
      cases hnext : s.reader.hasNext with
      | false => exact ⟨n, s, .done hs hnext (hsteps.trans (steps_of_not_hasNext hnext))⟩
      | true =>
          rw [steps_of_hasNext hnext] at hsteps
          cases hstep : Scan.step options s with
          | ok after =>
              rw [hstep] at hsteps
              exact ih _ (hn ▸ remaining_step hstep) (.step hs hnext hstep) hsteps rfl
          | error failure =>
              rw [hstep] at hsteps
              exact ⟨n, s, .failed hs hnext hstep hsteps⟩

theorem exists_endsAt (options : Options) (first : State) :
    ∃ n s, EndsAt options first n s :=
  Reaches.first.exists_endsAt rfl

end Scan

open Scan

/-- Every scan makes progress and ends, whatever text its source holds. Each of its steps
stays inside the text and goes on in it, or breaks off the scan where a span is never
closed; and there are fewer steps than characters. -/
theorem Source.scan_progress (source : Source) :
    (∀ n s, Reaches source.options (.start source.text) n s →
      s.reader.text.toList = source.text.toList ∧ n ≤ source.text.length - 1 ∧
      (s.reader.hasNext = true →
        s.Inside ∧ n + 1 ≤ source.text.length - 1 ∧
        (∀ after, step source.options s = .ok after → s.Passes after) ∧
        ∀ failure, step source.options s = .error failure → failure.fault.IsUnclosed)) ∧
    (∃ n s, EndsAt source.options (.start source.text) n s) ∧
    ∀ fault, source.tokens = .error fault → fault.IsUnclosed := by
  obtain ⟨text, options⟩ := source
  obtain ⟨chars, rfl⟩ : ∃ chars, text = String.ofList chars := ⟨text.toList, by simp⟩
  have hlength : (String.ofList chars).length = chars.length := by simp
  simp only [hlength]
  refine ⟨?_, exists_endsAt options _, ?_⟩
  · intro n s hs
    obtain ⟨⟨stage, hat⟩, hindex, hn⟩ := hs.at
    refine ⟨by rw [hat.text_reader, String.toList_ofList], hn, fun hnext => ?_⟩
    have hmore := hat.index_add_one_lt hnext
    exact ⟨hat.inside hnext, by omega, fun after hstep => (hat.passes hnext hstep).1,
      fun failure hstep => hat.isUnclosed hnext hstep⟩
  · intro fault hfault
    rw [Source.tokens, Source.scan, run] at hfault
    obtain ⟨n, s, ⟨-, -, hsteps⟩ | ⟨hs, hnext, hstep, hsteps⟩⟩ :=
      exists_endsAt options (.start (String.ofList chars))
    · rw [hsteps] at hfault
      cases hfault
    · rw [hsteps] at hfault
      obtain rfl := Except.error.inj hfault
      obtain ⟨⟨stage, hat⟩, -, -⟩ := hs.at
      exact hat.isUnclosed hnext hstep

/-- A comment that goes up to the end of a text, and a quote on the last character but one. -/
theorem Source.scan_progress_two :
    let whole : Source := ⟨"~\n~", { trace := true }⟩
    let broken : Source := ⟨"y\"x", {}⟩
    (∃ after, Reaches whole.options (.start whole.text) 0 (.start whole.text) ∧
      (State.start whole.text).reader.hasNext = true ∧
      step whole.options (.start whole.text) = .ok after ∧
      (State.start whole.text).Inside ∧ 0 + 1 ≤ whole.text.length - 1 ∧
      (State.start whole.text).Passes after) ∧
    broken.tokens = .error (.unterminated .stringLiteral "\"" (some ⟨"<input>", 1, 2⟩)
        (some "y\"x")) ∧
      Fault.IsUnclosed (.unterminated .stringLiteral "\"" (some ⟨"<input>", 1, 2⟩)
        (some "y\"x")) := by
  intro whole broken
  have hnext : (State.start whole.text).reader.hasNext = true := by decide +kernel
  have htaken : (step whole.options (.start whole.text)).isOk = true := by decide +kernel
  have hbroken : broken.tokens = .error (.unterminated .stringLiteral "\""
      (some ⟨"<input>", 1, 2⟩) (some "y\"x")) := by decide +kernel
  obtain ⟨-, -, hreached⟩ := (Source.scan_progress whole).1 0 _ .first
  obtain ⟨hinside, hfew, hpasses, -⟩ := hreached hnext
  refine ⟨?_, hbroken, (Source.scan_progress broken).2.2 _ hbroken⟩
  cases hstep : step whole.options (.start whole.text) with
  | ok after => exact ⟨after, .first, hnext, rfl, hinside, hfew, hpasses after hstep⟩
  | error failure =>
      rw [hstep] at htaken
      cases htaken

end Tilde
