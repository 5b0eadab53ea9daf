import Tilde.Log
import Tilde.Options
import Tilde.Token.Sequence

/-!
The scan: one pass over a text from left to right. At every character that has
another one after it the scan takes a step. If the character opens a span, the
word in progress is finished and the span is read whole. Any other character that
is not blank is added to the word in progress, which is finished if the rule of
the alphabet says so; a blank is passed. What the scan stops short of is the last
character of the text, which is why a word at the very end is never finished: it
needs a character after it.

A step that fails keeps what was reported up to then.
-/

namespace Tilde.Scan

/-- A word in progress and the place of its first character. -/
structure Word where
  start : Location
  text : String
  deriving DecidableEq, Repr

def Word.token (word : Word) : Token :=
  .ofLexeme word.text (some word.start)

/-- A scan in progress: where it is, the word it has begun, the tokens it has
found and what it has reported. -/
structure State where
  reader : Reader
  word : Option Word := none
  tokens : TokenSeq := .empty
  log : Array Entry := #[]

/-- Why a scan broke off and what it had reported. -/
structure Failure where
  fault : Fault
  log : Array Entry

/-- The end of a scan: everything it reported, and its tokens or its fault. -/
structure Outcome where
  log : Array Entry
  result : Except Fault TokenSeq

namespace State

def start (text : String) : State where
  reader := .ofString text

def report (s : State) (entry : Entry) : State :=
  { s with log := s.log.push entry }

/-- The value of a reading, or the failure of the scan that asked for it. -/
def require {α : Type} (s : State) (reading : Except Fault α) : Except Failure α :=
  match reading with
  | .ok value => .ok value
  | .error fault => .error ⟨fault, s.log⟩

/-- Finishes the word in progress, if there is one. -/
def finishWord (s : State) : State :=
  match s.word with
  | none => s
  | some word =>
      { s with
        word := none
        tokens := s.tokens.push word.token
        log := s.log.push (.word word.token) }

/-- Adds a character to the word in progress or begins one with it. -/
def extendWord (s : State) (file : String) (c : Char) : State :=
  let word := match s.word with
    | some word => { word with text := word.text.push c }
    | none => ⟨s.reader.location file, String.singleton c⟩
  { s with word := some word }

/-- Takes up a span that has been read. -/
def takeSpan (s : State) (span : Span) : State :=
  { s with
    reader := span.after
    tokens := s.tokens.push span.token
    log := s.log.push span.entry }

@[simp] theorem reader_finishWord (s : State) : s.finishWord.reader = s.reader := by
  unfold finishWord; split <;> rfl

@[simp] theorem reader_extendWord (s : State) (file : String) (c : Char) :
    (s.extendWord file c).reader = s.reader := rfl

end State

/-- Reports the characters around the place of the scan, if that is asked for. -/
def observe (options : Options) (s : State) (c : Char) : Except Failure State := do
  if options.trace then
    let previous ← s.require s.reader.previous
    let next ← s.require s.reader.next
    return s.report (.window previous c next)
  else
    return s

/-- Reads the span that begins at the place of the scan. -/
def readSpan (options : Options) (rule : SpanRule) (s : State) : Except Failure State := do
  let s := s.finishWord
  let span ← s.require (rule.read s.reader options.file)
  return s.takeSpan span

/-- Adds a character to the word in progress and finishes the word where it ends. -/
def readLetter (options : Options) (c : Char) (s : State) : Except Failure State := do
  let s := s.extendWord options.file c
  let next ← s.require s.reader.next
  return if Alphabet.endsWord c next then s.finishWord else s

/-- Adds a character to the word in progress unless it is a blank. -/
def collect (options : Options) (c : Char) (s : State) : Except Failure State :=
  if Alphabet.isBlank c then .ok s else readLetter options c s

/-- Reads one character that opens no span. -/
def readPlain (options : Options) (c : Char) (s : State) : Except Failure State := do
  let s ← collect options c s
  let reader ← s.require s.reader.advance
  return { s with reader }

/-- One step of the scan. -/
def step (options : Options) (s : State) : Except Failure State := do
  let c ← s.require s.reader.current
  let s ← observe options s c
  match SpanRule.openedBy c with
  | some rule => readSpan options rule s
  | none => readPlain options c s

/-! ### Every step makes progress -/

theorem State.require_eq_ok_iff {α : Type} {s : State} {reading : Except Fault α} {a : α} :
    s.require reading = .ok a ↔ reading = .ok a := by
  cases reading <;> simp [State.require]

theorem reader_observe {options : Options} {s after : State} {c : Char}
    (done : observe options s c = .ok after) : after.reader = s.reader := by
  unfold observe at done
  split at done
  · simp only [bind_eq_ok_iff, State.require_eq_ok_iff] at done
    obtain ⟨previous, -, next, -, done⟩ := done
    cases done
    rfl
  · cases done
    rfl

theorem reader_readLetter {options : Options} {s after : State} {c : Char}
    (done : readLetter options c s = .ok after) : after.reader = s.reader := by
  simp only [readLetter, bind_eq_ok_iff, State.require_eq_ok_iff] at done
  obtain ⟨next, -, done⟩ := done
  cases done
  split <;> simp

theorem reader_collect {options : Options} {s after : State} {c : Char}
    (done : collect options c s = .ok after) : after.reader = s.reader := by
  unfold collect at done
  split at done
  · cases done
    rfl
  · exact reader_readLetter done

theorem remaining_readSpan {options : Options} {rule : SpanRule} {s after : State}
    (done : readSpan options rule s = .ok after) :
    after.reader.remaining < s.reader.remaining := by
  simp only [readSpan, bind_eq_ok_iff, State.require_eq_ok_iff] at done
  obtain ⟨span, read, done⟩ := done
  cases done
  simpa [State.takeSpan] using SpanRule.remaining_read read

theorem remaining_readPlain {options : Options} {s after : State} {c : Char}
    (done : readPlain options c s = .ok after) :
    after.reader.remaining < s.reader.remaining := by
  simp only [readPlain, bind_eq_ok_iff, State.require_eq_ok_iff] at done
  obtain ⟨middle, collected, reader, moved, done⟩ := done
  cases done
  have := Reader.remaining_advance moved
  rw [reader_collect collected] at this
  dsimp only
  omega

/-- After a step there are fewer characters left to pass. -/
theorem remaining_step {options : Options} {s after : State}
    (done : step options s = .ok after) :
    after.reader.remaining < s.reader.remaining := by
  simp only [step, bind_eq_ok_iff, State.require_eq_ok_iff] at done
  obtain ⟨c, -, middle, observed, done⟩ := done
  rw [← reader_observe observed]
  split at done
  · exact remaining_readSpan done
  · exact remaining_readPlain done

/-! ### The whole scan -/

/-- Takes steps for as long as a character follows the current one. -/
def steps (options : Options) (s : State) : Except Failure State :=
  if s.reader.hasNext then
    match _taken : step options s with
    | .ok next => steps options next
    | .error failure => .error failure
  else .ok s
termination_by s.reader.remaining
decreasing_by exact remaining_step _taken

theorem steps_of_hasNext {options : Options} {s : State} (more : s.reader.hasNext = true) :
    steps options s = step options s >>= steps options := by
  rw [steps, if_pos more]
  cases step options s <;> rfl

theorem steps_of_not_hasNext {options : Options} {s : State}
    (last : s.reader.hasNext = false) : steps options s = .ok s := by
  rw [steps, if_neg (by simp [last])]

/-- Scans a text to its end. -/
def run (options : Options) (text : String) : Outcome :=
  match steps options (.start text) with
  | .ok s => ⟨s.log.push (.total options.file s.tokens.size), .ok s.tokens⟩
  | .error failure => ⟨failure.log, .error failure.fault⟩

end Tilde.Scan
