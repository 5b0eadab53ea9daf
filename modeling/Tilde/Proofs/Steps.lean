import Tilde.Proofs.Classes
import Tilde.Proofs.Readings
import Tilde.Scan

/-!
One step of a scan by the character it is on, for a scan whose reader is in step
with its text and has at least one more character ahead. A step changes nothing
but what is said here: the reader, the word in progress, the tokens and what has
been reported.
-/

namespace Tilde.Scan

open Alphabet SpanRule

/-- A scan that has reported the characters around its place, if that is asked for. -/
def State.watch (options : Options) (s : State) (previous : Option Char)
    (current next : Char) : State :=
  if options.trace then s.report (.window previous current next) else s

@[simp] theorem State.reader_watch (options : Options) (s : State) (previous : Option Char)
    (current next : Char) : (s.watch options previous current next).reader = s.reader := by
  unfold State.watch
  split <;> rfl

@[simp] theorem State.word_watch (options : Options) (s : State) (previous : Option Char)
    (current next : Char) : (s.watch options previous current next).word = s.word := by
  unfold State.watch
  split <;> rfl

@[simp] theorem State.tokens_watch (options : Options) (s : State) (previous : Option Char)
    (current next : Char) : (s.watch options previous current next).tokens = s.tokens := by
  unfold State.watch
  split <;> rfl

@[simp] theorem State.require_ok {α : Type} (s : State) (a : α) :
    s.require (.ok a) = .ok a := rfl

@[simp] theorem State.require_error {α : Type} (s : State) (fault : Fault) :
    s.require (.error fault : Except Fault α) = .error ⟨fault, s.log⟩ := rfl

variable {options : Options} {s : State} {passed rest : List Char} {c next : Char}

/-- Looking around never fails where a character follows the current one. -/
theorem observe_between (hs : s.reader = .between passed (c :: next :: rest)) :
    observe options s c = .ok (s.watch options passed.getLast? c next) := by
  unfold observe State.watch
  split
  · simp [hs, Reader.previous_between, Reader.next_between, bind, Except.bind, pure,
      Except.pure]
  · rfl

/-- A step looks around and then does what the current character asks for. -/
theorem step_between (hs : s.reader = .between passed (c :: next :: rest)) :
    step options s =
      match openedBy c with
      | some rule => readSpan options rule (s.watch options passed.getLast? c next)
      | none => readPlain options c (s.watch options passed.getLast? c next) := by
  have hcurrent : s.reader.current = .ok c := by rw [hs, Reader.current_between]
  rw [step, hcurrent, State.require_ok]
  change Except.bind (observe options s c) _ = _
  rw [observe_between hs]
  rfl

theorem step_blank (hs : s.reader = .between passed (c :: next :: rest))
    (hc : isBlank c = true) :
    step options s =
      .ok { s.watch options passed.getLast? c next with
        reader := .between (passed ++ [c]) (next :: rest) } := by
  rw [step_between hs, openedBy_of_isBlank hc]
  simp [readPlain, collect, hc, hs, Reader.advance_between, bind, Except.bind, pure,
    Except.pure]

/-- Any other character that opens no span is added to the word in progress, which
is finished if the rule of the alphabet says so. -/
theorem step_letter (hs : s.reader = .between passed (c :: next :: rest))
    (hc : isBlank c = false) (hopened : openedBy c = none) :
    step options s =
      .ok { if endsWord c next
          then ((s.watch options passed.getLast? c next).extendWord options.file c).finishWord
          else (s.watch options passed.getLast? c next).extendWord options.file c with
        reader := .between (passed ++ [c]) (next :: rest) } := by
  rw [step_between hs, hopened]
  cases hends : endsWord c next <;>
    simp [readPlain, collect, readLetter, hc, hs, hends, Reader.next_between,
      Reader.advance_between, bind, Except.bind, pure, Except.pure]

/-- A span that is closed is taken up whole, after the word in progress. -/
theorem step_span {rule : SpanRule} {body after : List Char}
    (hs : s.reader = .between passed (c :: next :: rest)) (hc : openedBy c = some rule)
    (hspan : next :: rest = body ++ c :: after) (hbody : c ∉ body) :
    step options s =
      .ok ((s.watch options passed.getLast? c next).finishWord.takeSpan
        { token := ⟨String.ofList (c :: body ++ [c]), rule.kind,
            some (s.reader.location options.file)⟩
          start := s.reader
          length := body.length
          after := .between (passed ++ (c :: body ++ [c])) after }) := by
  have hnonneg : 0 ≤ s.reader.index := by
    rw [hs]
    exact Reader.index_between_nonneg ..
  have hahead : s.reader.ahead = c :: body ++ c :: after := by
    rw [hs, Reader.ahead_between, hspan, List.cons_append]
  have hclosing : rule.delimits (String.singleton c) = true := by
    rw [delimits_of_openedBy hc, decide_eq_true rfl]
  have hread := read_of_closed hnonneg hahead (delimits_of_notMem hc hbody) hclosing
    options.file
  have hafter : s.reader.passAll (c :: body ++ [c]) =
      .between (passed ++ (c :: body ++ [c])) after := by
    have htext : c :: next :: rest = (c :: body ++ [c]) ++ after := by simp [hspan]
    rw [hs, htext, Reader.passAll_between]
  have hlexeme : rule.delimiter ++ String.ofList body ++ rule.delimiter =
      String.ofList (c :: body ++ [c]) := by
    rw [delimiter_of_openedBy hc, String.ofList_append, String.ofList_cons,
      String.singleton_eq_ofList]
  rw [hafter, hlexeme] at hread
  rw [step_between hs, hc]
  simp [readSpan, hread, bind, Except.bind, pure, Except.pure]

/-- A span that is not closed is a fault at the place where it opens. -/
theorem step_unclosed {rule : SpanRule} (hs : s.reader = .between passed (c :: next :: rest))
    (hc : openedBy c = some rule) (hrest : c ∉ next :: rest) :
    step options s =
      .error ⟨rule.unterminated s.reader options.file,
        (s.watch options passed.getLast? c next).finishWord.log⟩ := by
  have hnonneg : 0 ≤ s.reader.index := by
    rw [hs]
    exact Reader.index_between_nonneg ..
  have hahead : s.reader.ahead = c :: next :: rest := by rw [hs, Reader.ahead_between]
  have hread := read_of_unclosed hnonneg hahead (delimits_of_notMem hc hrest) options.file
  rw [step_between hs, hc]
  simp [readSpan, hread, bind, Except.bind]

end Tilde.Scan
