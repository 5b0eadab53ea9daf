import Tilde.Proofs.Encoding
import Tilde.Proofs.Unescaped

/-!
The command as a front end. What it says of a file is what lexing says of the text of
the file: it lists the tokens, if it is asked to, or it writes the fault. Bytes that
are the bytes of no text are refused before. Asking for a trace makes no difference to
the tokens or to the fault; it only has more written before the fault.
-/

namespace Tilde

open Munch Text

/-- What a scan reports makes no difference to what it finds. -/
theorem lex_trace {options : Options}
    (hpadding : Options.paddingSuffices options.padding = true) (text : String)
    (trace : Bool) : lex text { options with trace := trace } = lex text options := by
  have hpadding' : Options.paddingSuffices { options with trace := trace }.padding = true :=
    hpadding
  have hdivides := divides_divideFrom 0 text.toList
  rcases hdivision : divideFrom 0 text.toList with ⟨pieces, _ | unclosed⟩
  · rw [hdivision] at hdivides
    rw [lex_of_closed hpadding hdivides, lex_of_closed hpadding' hdivides]
  · rw [hdivision] at hdivides
    rw [lex_of_unclosed hpadding hdivides, lex_of_unclosed hpadding' hdivides]

namespace Command

/-! ### What the options say -/

/-- The arguments that ask for a listing, for a trace and for a width, as the case may
be. -/
def flags (verbose trace : Bool) (width : Option String) : List String :=
  (if verbose then ["-v"] else []) ++ (if trace then ["--trace"] else []) ++
    match width with
    | some text => ["-w", text]
    | none => []

theorem plan_flags (verbose trace : Bool) {width : Option String} {columns : Int}
    (hwidth : Arguments.labelWidth { width := width } = .ok columns) (file : String) :
    plan (flags verbose trace width ++ ["--", file]) =
      .scan ⟨file, verbose, trace, columns, []⟩ := by
  have hread : Arguments.read (flags verbose trace width ++ ["--", file]) =
      .ok { verbose := verbose, trace := trace, width := width, operands := [file] } := by
    cases verbose <;> cases trace <;> cases width <;> rfl
  rw [plan, hread]
  simp only [Arguments.labelWidth] at hwidth ⊢
  rw [hwidth]

/-! ### What the command answers -/

/-- The answer to a text with the given tokens. -/
structure Listed (job : Job) (tokens : TokenSeq) (response : Response) : Prop where
  code : response.status.code = 0
  /-- There is a row for every token if a listing is asked for. -/
  stdout : response.stdout =
    if job.verbose then
      String.join (tokens.toList.map fun token => token.row job.width ++ "\n")
    else ""
  /-- Nothing is written besides but a trace. -/
  stderr : job.trace = false → response.stderr = ""

/-- The answer to a text with the given fault. -/
structure Rejected (job : Job) (fault : Fault) (response : Response) : Prop where
  code : response.status.code = 1
  stdout : response.stdout = ""
  /-- The fault is written, and nothing before it but a trace. -/
  stderr : ∃ logged, response.stderr = logged ++ fault.render ++ "\n" ∧
    (job.trace = false → logged = "")

/-- The answer to what is no text. -/
structure Unreadable (response : Response) : Prop where
  code : response.status.code = 2
  stdout : response.stdout = ""
  /-- The reason is given in one line. -/
  stderr : ∃ reason, '\n' ∉ reason.toList ∧
    response.stderr = "Read error: " ++ reason ++ "\n"

theorem Job.logLines_of_trace_eq_false {job : Job} (htrace : job.trace = false)
    (log : Array Entry) : job.logLines log = "" := by
  simp [logLines, htrace]

theorem Trouble.response_of_lacks {trouble : Trouble} {activity message : String}
    (hmessage : trouble.message activity = message) (hlacks : Lacks '\x1b' message)
    (htrace : trouble.trace = "") (verbose : Bool) :
    trouble.response verbose activity =
      { status := trouble.status, stderr := message ++ "\n" } := by
  rw [response, hmessage, echo_of_lacks hlacks, htrace, ite_self, String.append_empty]

theorem echoAll_of_lacks {lines : List String} (h : ∀ line ∈ lines, Lacks '\x1b' line) :
    echoAll lines = String.join (lines.map (· ++ "\n")) := by
  rw [echoAll, List.map_congr_left fun line hline => echo_of_lacks (h line hline)]

namespace Job

variable {job : Job} {text : String}

/-- The options with which the text of a file is lexed, trace or no trace. -/
def plain (job : Job) : Options where
  file := Path.shown job.file

theorem paddingSuffices_plain : Options.paddingSuffices job.plain.padding = true :=
  Options.paddingSuffices_default

theorem result_lexLogged : (lexLogged text job.options).result = lex text job.plain :=
  lex_trace paddingSuffices_plain text job.trace

theorem scanText_of_ok (htext : Lacks '\x1b' text) {tokens : TokenSeq}
    (hlex : lex text job.plain = .ok tokens) : Listed job tokens (job.scanText text) := by
  have hrows : ∀ row ∈ tokens.toList.map (·.row job.width), Lacks '\x1b' row := by
    rintro _ hrow
    obtain ⟨token, htoken, rfl⟩ := List.mem_map.mp hrow
    apply Token.lacks_row
    exact fun hmem => htext (mem_of_lex_eq_ok paddingSuffices_plain hlex token htoken _ hmem)
  rw [← result_lexLogged] at hlex
  rw [scanText, hlex]
  constructor
  · rfl
  · change job.listing tokens = _
    rw [listing, echoAll_of_lacks hrows, List.map_map]
    rfl
  · exact fun htrace => logLines_of_trace_eq_false htrace _

theorem scanText_of_error (hname : Lacks '\x1b' job.file) (htext : Lacks '\x1b' text)
    {fault : Fault} (hlex : lex text job.plain = .error fault) :
    Rejected job fault (job.scanText text) := by
  have hrender := lacks_render_of_lex_eq_error paddingSuffices_plain
    (Path.lacks_shown hname) htext hlex
  have hmessage : (Trouble.malformed fault.diagnostic).message "" = fault.render := rfl
  have hresponse := Trouble.response_of_lacks hmessage hrender rfl job.verbose
  rw [← result_lexLogged] at hlex
  simp only [scanText, hlex, hresponse]
  constructor
  · rfl
  · rfl
  · exact ⟨_, (String.append_assoc ..).symm, fun htrace => logLines_of_trace_eq_false htrace _⟩

theorem scanBytes_of_undecodable {bytes : List UInt8}
    (h : ∀ chars, Utf8.encode chars ≠ bytes) : Unreadable (job.scanBytes bytes) := by
  cases hdecode : Utf8.decode bytes with
  | ok chars => exact absurd (Utf8.decode_eq_ok_iff.mp hdecode) (h chars)
  | error fault =>
      have hmessage : (Trouble.undecodable fault).message "Read" =
          "Read error: " ++ fault.message := rfl
      have hlacks : Lacks '\x1b' ("Read error: " ++ fault.message) :=
        lacks_append.mpr ⟨by decide, fault.lacks_message (.inl rfl)⟩
      have hresponse := Trouble.response_of_lacks hmessage hlacks rfl job.verbose
      simp only [scanBytes, hdecode, hresponse]
      constructor
      · rfl
      · rfl
      · exact ⟨fault.message, fault.lacks_message (.inr rfl), rfl⟩

theorem scanBytes_encode (chars : List Char) :
    job.scanBytes (Utf8.encode chars) = job.scanText (String.ofList (unifyNewlines chars)) := by
  rw [scanBytes, Utf8.decode_eq_ok_iff.mpr rfl]

end Job

theorem run_of_file {look : String → Found} {args : List String} {job : Job}
    {bytes : List UInt8} (hplan : plan args = .scan job) (hsurplus : job.surplus = [])
    (hfile : look job.file = .file bytes) : run look args = job.scanBytes bytes := by
  rw [run, hplan]
  simp only [Job.respond, hfile, hsurplus, List.isEmpty_nil, if_true]

/-- The command says of a file what lexing says of the text that the file is. -/
theorem run_eq_lex {look : String → Found} {args : List String} {job : Job}
    {bytes : List UInt8} (hplan : plan args = .scan job) (hsurplus : job.surplus = [])
    (hfile : look job.file = .file bytes) (hname : '\x1b' ∉ job.file.toList) :
    ((∀ chars, Utf8.encode chars ≠ bytes) → Unreadable (run look args)) ∧
    ∀ (chars : List Char) (text : String), Utf8.encode chars = bytes →
      Unifies chars text.toList → '\x1b' ∉ chars →
      (∀ tokens, lex text { file := Path.shown job.file } = .ok tokens →
        Listed job tokens (run look args)) ∧
      ∀ fault, lex text { file := Path.shown job.file } = .error fault →
        Rejected job fault (run look args) := by
  rw [run_of_file hplan hsurplus hfile]
  refine ⟨Job.scanBytes_of_undecodable, ?_⟩
  rintro chars text rfl hunifies hchars
  rw [unifies_iff] at hunifies
  -- line ends are the only characters that the file need not have had
  have htext : Lacks '\x1b' text := by
    rw [Lacks, ← hunifies]
    intro hmem
    rcases mem_of_mem_unifyNewlines hmem with hnewline | hmem
    · revert hnewline
      decide
    · exact hchars hmem
  rw [Job.scanBytes_encode, hunifies, String.ofList_toList]
  exact ⟨fun tokens => Job.scanText_of_ok htext, fun fault => Job.scanText_of_error hname htext⟩

/-- A listing in a wider column and with a trace, of three files: one with a carriage
return and a character beyond ASCII, one with an open string, and one that breaks off
within a character. -/
theorem run_eq_lex_three_files :
    let args := ["-v", "--trace", "-w", "20", "--", "./d//x.tl"]
    let job : Job := ⟨"./d//x.tl", true, true, 20, []⟩
    let holding (bytes : List UInt8) : String → Found := fun _ => .file bytes
    plan args = .scan job ∧
      Listed job (.ofList [⟨"do", .doWord, some ⟨"d/x.tl", 1, 1⟩⟩,
          ⟨"~é~", .comment, some ⟨"d/x.tl", 2, 1⟩⟩])
        (run (holding [0x64, 0x6f, 0x0d, 0x0a, 0x7e, 0xc3, 0xa9, 0x7e]) args) ∧
      Rejected job (.unterminated .stringLiteral "\"" (some ⟨"d/x.tl", 2, 1⟩) (some "\"x  "))
        (run (holding [0x0d, 0x22, 0x78]) args) ∧
      Unreadable (run (holding [0x64, 0xc3]) args) := by
  intro args job holding
  have hwidth : Arguments.labelWidth { width := some "20" } = .ok 20 := by decide +kernel
  have hplan : plan args = .scan job := plan_flags true true hwidth "./d//x.tl"
  have hname : '\x1b' ∉ job.file.toList := by decide
  have hfile (bytes : List UInt8) : holding bytes job.file = .file bytes := rfl
  have hbroken : ∀ chars, Utf8.encode chars ≠ [0x64, 0xc3] := by
    intro chars h
    have hdecode := Utf8.decode_eq_ok_iff.mpr h
    cases hdecode
  have hlisted := (run_eq_lex hplan rfl (hfile _) hname).2
    ['d', 'o', '\r', '\n', '~', 'é', '~'] "do\n~é~" rfl (unifies_iff.mpr rfl) (by decide)
  have hrejected := (run_eq_lex hplan rfl (hfile _) hname).2
    ['\r', '"', 'x'] "\n\"x" rfl (unifies_iff.mpr rfl) (by decide)
  exact ⟨hplan, hlisted.1 _ (by decide +kernel), hrejected.2 _ (by decide +kernel),
    (run_eq_lex hplan rfl (hfile _) hname).1 hbroken⟩

end Command

end Tilde
