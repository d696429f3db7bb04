import JJMCP.EvalCode
import JJMCP.TestSummary

namespace JJMCP

structure TranscriptEntry where
  timestamp : Text
  sequence : Nat := 0
  tool : Text
  target : Text := []
  code : Text := []
  arguments : Json := .null
  isError : Bool
  elapsedMs : Nat
  transport : Text := []
  output : Text

inductive TranscriptFormat
  | Text | Jsonl
  deriving DecidableEq, Repr

/-- Off while the path is empty. -/
structure Transcript where
  path : Text := []
  format : TranscriptFormat := .Text
  sequence : Nat := 0
  deriving DecidableEq, Repr

structure Dispatcher where
  session : Session
  transcript : Transcript := {}
  appended : List TranscriptEntry := []

/-- What is outside answers during one call. The run of julia that checks the syntax may
never return. -/
structure CallAnswers where
  eval : EvalAnswers
  listed : Except Text Text := .ok []
  paneInfo : Except Text PaneInfo
  captured : Except Text Text := .ok []
  sent : Except Text Unit := .ok ()
  saved : Except Text Unit := .ok ()
  validated : Option (Except Text Unit) := some (.ok ())
  written : Except Text Unit := .ok ()
  timestamp : Text := []
  elapsedMs : Nat := 0

structure ToolCall where
  name : Text
  arguments : List (Text × Json)
  progressActive : Bool := false
  answers : CallAnswers

end JJMCP

namespace JJMCP.Tools

open Lib.Occurrence Text Poll Truncate Config EvalCode TestSummary

def kDefaultTimeoutMs : Nat := 10000
def kDefaultCaptureLines : Nat := 2000
def kMaxCaptureLines : Nat := 50000

def ret (r : ToolResult) : Reply := some (.ok r)

def fail (text : Text) : Reply := ret (error text)

def notBound : Text := lit "no tmux pane is bound; call jjmcp_bind first"

def pathString (p : Path) : Text :=
  (if p.absolute then lit "/" else []) ++ (p.parts.intersperse (lit "/")).flatten

def formatPaneInfo (info : PaneInfo) : Text :=
  lit "pane_id: " ++ info.paneId ++ lit "\nsession: " ++ info.sessionName ++ lit "\nwindow_index: " ++ info.windowIndex ++
    lit "\npane_index: " ++ info.paneIndex ++ lit "\ncurrent_command: " ++ info.currentCommand ++
    lit "\ntitle: " ++ info.title ++ lit "\nactive: " ++ info.active ++ lit "\ndead: " ++ info.dead ++
    lit "\ncurrent_path: " ++ info.currentPath ++ lit "\n"

def makeReviseCode : Text :=
  lit "try\n    using Revise\n    Revise.revise()\n    println(\"Revise complete\")\ncatch e\n    showerror(stdout, e, catch_backtrace())\n    println()\nend"

def makeActivateCode (path : Text) : Text := lit "using Pkg\nPkg.activate(" ++ juliaStringLiteral path ++ lit ")"

def makeTestCode (testExpr file testItemPattern : Text) : Text :=
  if testExpr ≠ [] then testExpr
  else if file ≠ [] then lit "include(" ++ juliaStringLiteral file ++ lit ")"
  else if testItemPattern ≠ [] then
    lit "using TestItemRunner\n@run_package_tests filter=ti->occursin(" ++ juliaStringLiteral testItemPattern ++
      lit ", ti.name)"
  else lit "using Pkg\nPkg.test()"

def inSession (d : Dispatcher) (p : Session × Reply) : Dispatcher × Reply := ({ d with session := p.1 }, p.2)

def evalIn (json : JsonLib) (a : CallAnswers) (c : EvalCall) (d : Dispatcher) : Dispatcher × Reply :=
  inSession d (evalCode json a.eval c d.session)

def timeoutMs (args : Json) (default : Nat) (d : Dispatcher) : Nat :=
  args.optionalInt "timeout_ms" default 1 d.session.server.maxTimeoutMs

def captureLines (args : Json) : Nat :=
  args.optionalInt "capture_lines" kDefaultCaptureLines 1 kMaxCaptureLines

def transcriptFormatFromString (name : Text) : TranscriptFormat := if name = lit "jsonl" then .Jsonl else .Text

def transcriptFormatName : TranscriptFormat → Text
  | .Jsonl => lit "jsonl"
  | .Text => lit "text"

def Transcript.enabled (t : Transcript) : Bool := t.path ≠ []

def listTmux (a : CallAnswers) : Reply :=
  match a.listed with
  | .error e => fail e
  | .ok listing => ret (success listing)

def bind (cwd : Path) (a : CallAnswers) (args : Json) (d : Dispatcher) : Dispatcher × Reply :=
  match args.requireString "target" with
  | .error e => (d, fail e)
  | .ok target =>
      let projectRoot := args.optionalString "project_root" []
      match a.paneInfo with
      | .error e => (d, fail e)
      | .ok info =>
          if PaneInfo.alive info then
            let b : Binding := { target, paneId := info.paneId, projectRoot, boundAt := a.timestamp }
            let s := { d.session with
              cache := RuntimeCache.invalidate d.session.cache (boundTarget b)
              server := setBinding d.session.server b (configBaseFromProject cwd projectRoot) }
            let warning :=
              match a.saved with
              | .error e => lit "config_warning: " ++ e ++ lit "\n"
              | .ok _ => []
            ({ d with session := s },
              ret (success (lit "Bound to tmux pane " ++ b.paneId ++ lit "\n" ++ formatPaneInfo info ++
                lit "config_path: " ++ pathString s.server.configPath ++ lit "\n" ++ warning)))
          else (d, fail (lit "tmux pane exists but appears dead: " ++ target))

def status (a : CallAnswers) (d : Dispatcher) : Reply :=
  let s := d.session.server
  let head := lit "config_path: " ++ pathString s.configPath ++ lit "\nlast_marker: " ++ s.lastMarker ++
    lit "\nlast_command_timestamp: " ++ s.lastCommandTimestamp ++ lit "\ntranscript: " ++
    (if Transcript.enabled d.transcript then
      d.transcript.path ++ lit " (" ++ transcriptFormatName d.transcript.format ++ lit ")"
     else lit "off") ++ lit "\n"
  match s.binding with
  | none => ret (success (head ++ lit "binding: none\n"))
  | some b =>
      let head := head ++ lit "binding_target: " ++ b.target ++ lit "\nbinding_pane_id: " ++ b.paneId ++
        lit "\nproject_root: " ++ b.projectRoot ++ lit "\nbound_at: " ++ b.boundAt ++ lit "\n"
      match a.paneInfo with
      | .error e => ret (success (head ++ lit "alive: false\npane_error: " ++ e ++ lit "\n"))
      | .ok info =>
          ret (success (head ++ lit "alive: " ++ (if PaneInfo.alive info then lit "true" else lit "false") ++ lit "\n" ++
            formatPaneInfo info))

def evalWith (json : JsonLib) (a : CallAnswers) (args : Json) (progressActive : Bool) (code : Text)
    (force validateSyntax : Bool) (d : Dispatcher) : Dispatcher × Reply :=
  let transport := args.optionalString "transport" (lit "auto")
  if transport ≠ lit "auto" ∧ transport ≠ lit "tmux" ∧ transport ≠ lit "socket" then
    (d, fail (lit "transport must be one of: auto, tmux, socket"))
  else
    match if validateSyntax then a.validated else some (.ok ()) with
    | none => (d, none)
    | some (.error e) => (d, fail (lit "syntax error before eval (set validate_syntax=false to skip):\n" ++ e))
    | some (.ok _) =>
        evalIn json a
          { code, timeoutMs := timeoutMs args kDefaultTimeoutMs d, captureLines := captureLines args,
            force, progressActive, transport } d

/-- The two flags are read with the library's value, which throws for a value of
another type. -/
def eval (json : JsonLib) (a : CallAnswers) (args : Json) (progressActive : Bool) (d : Dispatcher) :
    Dispatcher × Reply :=
  match args.requireString "code" with
  | .error e => (d, fail e)
  | .ok code =>
      match Json.value Json.readBool args (lit "force") false with
      | .error what => (d, some (.error what))
      | .ok force =>
          match Json.value Json.readBool args (lit "validate_syntax") true with
          | .error what => (d, some (.error what))
          | .ok validateSyntax => evalWith json a args progressActive code force validateSyntax d

def capture (a : CallAnswers) (args : Json) (d : Dispatcher) : Reply :=
  if d.session.server.binding = none then fail notBound
  else
    match a.captured with
    | .error e => fail e
    | .ok text =>
        ret (success (truncateToolTail text (args.optionalInt "lines" 200 1 kMaxCaptureLines) kMaxMcpTextBytes))

def summaryStatus (r : TestSummaryResult) : Text :=
  if r.foundSummary = false then lit "unknown"
  else if r.testFail = 0 ∧ r.testBroken = 0 ∧ r.testError = 0 then lit "pass"
  else lit "fail"

def summaryStructured (r : TestSummaryResult) (lines : Nat) (raw : Option Text) : Json :=
  .obj ([(lit "capture_lines", .int lines), (lit "failures", .arr (r.failures.map .str)),
    (lit "found_summary", .bool r.foundSummary)] ++ (raw.map fun t => (lit "raw_output", Json.str t)).toList ++
    [(lit "status", .str (summaryStatus r)), (lit "test_broken", .int r.testBroken),
     (lit "test_error", .int r.testError), (lit "test_fail", .int r.testFail), (lit "test_pass", .int r.testPass),
     (lit "test_time", .str (trimAscii r.testTime)), (lit "test_total", .int r.testTotal)])

def summaryText (r : TestSummaryResult) : Text :=
  if r.foundSummary then
    lit "Test Summary: pass=" ++ decimal r.testPass ++ lit ", fail=" ++ decimal r.testFail ++ lit ", broken=" ++
      decimal r.testBroken ++ lit ", error=" ++ decimal r.testError ++ lit ", total=" ++ decimal r.testTotal ++
      (if trimAscii r.testTime = [] then [] else lit ", time=" ++ trimAscii r.testTime) ++
      (if r.failures = [] then [] else lit "\nfailures:" ++ r.failures.flatMap (lit "\n" ++ ·))
  else lit "No test summary found in captured output"

/-- The flags are read once a pane is bound. -/
def captureTestResults (a : CallAnswers) (args : Json) (d : Dispatcher) : Reply :=
  if d.session.server.binding = none then fail notBound
  else
    let lines := args.optionalInt "lines" kDefaultCaptureLines 1 kMaxCaptureLines
    match Json.value Json.readBool args (lit "require_summary") false with
    | .error what => some (.error what)
    | .ok requireSummary =>
        match Json.value Json.readBool args (lit "include_raw") true with
        | .error what => some (.error what)
        | .ok includeRaw =>
            match a.captured with
            | .error e => fail e
            | .ok text =>
                let raw := truncateToolTail text lines kMaxMcpTextBytes
                let parsed := parseTestSummary raw
                let structured := summaryStructured parsed lines (if includeRaw then some raw else none)
                if parsed.foundSummary = false ∧ requireSummary = true then
                  ret { error (lit "no test summary found in captured tmux output") with structured }
                else ret { success (if includeRaw then raw else summaryText parsed) with structured }

def interrupt (a : CallAnswers) (d : Dispatcher) : Dispatcher × Reply :=
  match d.session.server.binding with
  | none => (d, fail notBound)
  | some b =>
      let d := { d with session := record d.session (.key (boundTarget b) (lit "C-c")) }
      match a.sent with
      | .error e => (d, fail e)
      | .ok _ => (d, ret (success (lit "Sent Ctrl-C to " ++ boundTarget b)))

/-- revise, activate, test and pkg_status: fixed code, and the same two limits. -/
def evalFixed (json : JsonLib) (a : CallAnswers) (args : Json) (progressActive : Bool) (code : Text)
    (defaultTimeoutMs : Nat) (d : Dispatcher) : Dispatcher × Reply :=
  evalIn json a
    { code, timeoutMs := timeoutMs args defaultTimeoutMs d, captureLines := captureLines args, progressActive } d

def revise (json : JsonLib) (a : CallAnswers) (args : Json) (progressActive : Bool) (d : Dispatcher) :
    Dispatcher × Reply :=
  evalFixed json a args progressActive makeReviseCode kDefaultTimeoutMs d

def activate (json : JsonLib) (a : CallAnswers) (args : Json) (progressActive : Bool) (d : Dispatcher) :
    Dispatcher × Reply :=
  match args.requireString "path" with
  | .error e => (d, fail e)
  | .ok path => evalFixed json a args progressActive (makeActivateCode path) kDefaultTimeoutMs d

def test (json : JsonLib) (a : CallAnswers) (args : Json) (progressActive : Bool) (d : Dispatcher) :
    Dispatcher × Reply :=
  evalFixed json a args progressActive
    (makeTestCode (args.optionalString "test_expr" []) (args.optionalString "file" [])
      (args.optionalString "test_item_pattern" [])) 120000 d

def pkgStatus (json : JsonLib) (a : CallAnswers) (args : Json) (progressActive : Bool) (d : Dispatcher) :
    Dispatcher × Reply :=
  evalFixed json a args progressActive (lit "using Pkg\nPkg.status()") kDefaultTimeoutMs d

def transcriptReport (t : Transcript) : Reply :=
  let on := Transcript.enabled t
  ret { success (if on then lit "transcript: " ++ t.path ++ lit " (" ++ transcriptFormatName t.format ++ lit ")"
                 else lit "transcript: off") with
        structured := .obj [(lit "enabled", .bool on), (lit "format", .str (transcriptFormatName t.format)),
          (lit "path", .str t.path)] }

def transcriptPath (cwd : Path) (path : Text) : Text :=
  if path.head? = some 47 then path
  else pathString cwd ++ (if (pathString cwd).getLast? = some 47 then [] else [47]) ++ path

def formatKnown (format : Text) : Bool := format = [] || format = lit "text" || format = lit "jsonl"

def turnsOff (args : Json) : Bool :=
  match args.get? (lit "enabled") with
  | some (.bool b) => !b
  | _ => false

/-- A reply that comes after a log call. -/
def afterLog (json : JsonLib) (texts : List Text) (p : Dispatcher × Reply) : Dispatcher × Reply :=
  match logThrow json texts with
  | some what => (p.1, some (.error what))
  | none => p

@[simp] theorem afterLog_fst (json : JsonLib) (texts : List Text) (p : Dispatcher × Reply) :
    (afterLog json texts p).1 = p.1 := by
  unfold afterLog
  split <;> rfl

def transcriptTool (json : JsonLib) (cwd : Path) (args : Json) (d : Dispatcher) : Dispatcher × Reply :=
  let formatArg := args.optionalString "format" []
  if formatKnown formatArg = false then (d, fail (lit "format must be one of: text, jsonl"))
  else if turnsOff args then
    let t := { d.transcript with path := [] }
    ({ d with transcript := t }, transcriptReport t)
  else
    let pathArg := args.optionalString "path" []
    if pathArg ≠ [] then
      let t := { d.transcript with
        path := transcriptPath cwd pathArg
        format := if formatArg = [] then d.transcript.format else transcriptFormatFromString formatArg }
      afterLog json [transcriptFormatName t.format, t.path] ({ d with transcript := t }, transcriptReport t)
    else if formatArg ≠ [] then
      if Transcript.enabled d.transcript then
        let t := { d.transcript with format := transcriptFormatFromString formatArg }
        ({ d with transcript := t }, transcriptReport t)
      else (d, fail (lit "no transcript is enabled; pass path to start one"))
    else (d, transcriptReport d.transcript)

def dispatch (json : JsonLib) (cwd : Path) (c : ToolCall) (d : Dispatcher) : Dispatcher × Reply :=
  let args := Json.obj c.arguments
  let a := c.answers
  if c.name = lit "jjmcp_list_tmux" then (d, listTmux a)
  else if c.name = lit "jjmcp_bind" then bind cwd a args d
  else if c.name = lit "jjmcp_status" then (d, status a d)
  else if c.name = lit "jjmcp_eval" then eval json a args c.progressActive d
  else if c.name = lit "jjmcp_capture" then (d, capture a args d)
  else if c.name = lit "jjmcp_capture_test_results" then (d, captureTestResults a args d)
  else if c.name = lit "jjmcp_interrupt" then interrupt a d
  else if c.name = lit "jjmcp_revise" then revise json a args c.progressActive d
  else if c.name = lit "jjmcp_activate" then activate json a args c.progressActive d
  else if c.name = lit "jjmcp_test" then test json a args c.progressActive d
  else if c.name = lit "jjmcp_pkg_status" then pkgStatus json a args c.progressActive d
  else if c.name = lit "jjmcp_transcript" then transcriptTool json cwd args d
  else (d, fail (lit "unknown tool: " ++ c.name))

/-- Numbers the entry; the file may fail to take it. -/
def append (entry : TranscriptEntry) (d : Dispatcher) : Dispatcher :=
  if d.transcript.path = [] then d
  else
    let sequence := (d.transcript.sequence + 1) % 2 ^ 64
    { d with
      transcript := { d.transcript with sequence }
      appended := d.appended ++ [{ entry with sequence }] }

def entryTarget (s : ServerState) : Text :=
  match s.binding with
  | none => []
  | some b =>
      if b.paneId ≠ [] ∧ b.paneId ≠ b.target then b.target ++ lit " (" ++ b.paneId ++ lit ")" else b.target

def recordTranscript (c : ToolCall) (r : ToolResult) (d : Dispatcher) : Dispatcher :=
  if Transcript.enabled d.transcript then
    append
      { timestamp := c.answers.timestamp
        tool := c.name
        target := entryTarget d.session.server
        code := d.session.lastCode
        arguments := if d.session.lastCode = [] then .obj c.arguments else .null
        isError := r.isError
        elapsedMs := c.answers.elapsedMs
        transport := r.structured.optionalString "transport" []
        output := if r.fullOutput = [] then r.text else r.fullOutput } d
  else d

/-- The text of the line transcript_write_failed. -/
def writeLog (c : ToolCall) (d : Dispatcher) : List Text :=
  match Transcript.enabled d.transcript, c.answers.written with
  | true, .error e => [e]
  | _, _ => []

/-- ToolDispatcher::call: an exception of the tool leaves before the recording, one of
the log line about the recording after it. -/
def call (json : JsonLib) (cwd : Path) (c : ToolCall) (d : Dispatcher) : Dispatcher × Reply :=
  match dispatch json cwd c { d with session := { d.session with lastCode := [] } } with
  | (d, some (.ok r)) => afterLog json (writeLog c d) (recordTranscript c r d, some (.ok r))
  | (d, reply) => (d, reply)

end JJMCP.Tools
