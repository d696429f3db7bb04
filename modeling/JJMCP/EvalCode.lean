import JJMCP.Config
import JJMCP.Lib.Utf8
import JJMCP.Poll
import JJMCP.RuntimeCache
import JJMCP.SocketClient

namespace JJMCP

structure PaneInfo where
  paneId : Text
  sessionName : Text := []
  windowIndex : Text := []
  paneIndex : Text := []
  currentCommand : Text := []
  title : Text := []
  active : Text := []
  dead : Text := []
  currentPath : Text := []
  panePid : Text := []
  deriving DecidableEq, Repr

structure ToolResult where
  isError : Bool
  text : Text
  structured : Json := .null
  fullOutput : Text := []

/-- A paste is the wrapped code, or the runtime's source for a marker. -/
inductive Pasted
  | bootstrap (m : Marker)
  | wrapper (text : Text)
  deriving DecidableEq, Repr

inductive Event
  | socket (path request : Text) (sent : Nat)
  | paste (target : Text) (pasted : Pasted) (buffer : Text)
  | key (target key : Text)
  deriving DecidableEq, Repr

/-- What a dispatcher keeps between calls, and what it has done so far. A paste or a key
press counts once tmux is asked for it. -/
structure Session where
  server : ServerState
  cache : RuntimeCache := fun _ => none
  lastCode : Text := []
  events : List Event := []

structure SendTextAnswers where
  load : Except Text Unit := .ok ()
  paste : Except Text Unit := .ok ()

structure InstallAnswers where
  generation : Text
  micros : Nat := 0
  send : SendTextAnswers := {}
  polls : List PollInput := []

structure PassAnswers where
  micros : Nat := 0
  timestamp : Text := []
  send : SendTextAnswers := {}
  polls : List PollInput := []
  elapsedMs : Nat := 0

/-- What tmux, the helper, the lock and the clock answer during one eval_code. -/
structure EvalAnswers where
  paneInfo : Except Text PaneInfo
  pid : Nat := 1
  runtimeDir : Option Text := none
  socketExists : Bool := false
  socket : SocketAnswers := {}
  lastLine : Except Text Text := .ok []
  recheck : Except Text Text := .ok []
  lock : Except Text Unit := .ok ()
  install : InstallAnswers := { generation := [] }
  pass : PassAnswers := {}
  reinstall : InstallAnswers := { generation := [] }
  retry : PassAnswers := {}

structure EvalCall where
  code : Text
  timeoutMs : Nat := 10000
  captureLines : Nat := 2000
  force : Bool := false
  progressActive : Bool := false
  transport : Text := Text.lit "auto"

/-- A result or an exception; nothing while the call still waits. -/
abbrev Reply := Option (Except Text ToolResult)

/-- A stage lets the call go on, or ends it. -/
inductive Flow
  | next
  | stop (r : Reply)

inductive PassResult
  | missing
  | stop (r : Option ToolResult)

end JJMCP

namespace JJMCP.EvalCode

open Lib.Occurrence Text Marker Extract Poll Truncate Config

def kMaxSocketFieldBytes : Nat := 240 * 1024

def PaneInfo.alive (info : PaneInfo) : Bool := info.dead ≠ lit "1" && info.paneId ≠ []

def error (text : Text) : ToolResult := { isError := true, text }

def success (text : Text) : ToolResult := { isError := false, text }

def juliaEscape (c : UInt8) : Text :=
  if c = 92 then lit "\\\\"
  else if c = 34 then lit "\\\""
  else if c = 10 then lit "\\n"
  else if c = 13 then lit "\\r"
  else if c = 9 then lit "\\t"
  else if c = 36 then lit "\\$"
  else if c < 0x20 then lit "\\x" ++ (Nat.toDigits 16 (c.toNat / 16) ++ Nat.toDigits 16 (c.toNat % 16)).map Char.toUInt8
  else [c]

def juliaStringLiteral (text : Text) : Text := lit "\"" ++ text.flatMap juliaEscape ++ lit "\""

def wrapJuliaCode (code : Text) (m : Marker) (timeoutMs : Nat) : Text :=
  let evalSource := if code = [] then lit "nothing" else code
  lit "@JJMCP_COMMAND " ++ juliaStringLiteral m.id ++ lit " " ++ decimal timeoutMs ++ lit " begin\n" ++
    evalSource ++ (if evalSource.getLast? = some nl then [] else [nl]) ++ lit "end\n"

def isKnownNonJuliaPrompt (lastLine : Text) : Bool :=
  let trimmed := trimAscii lastLine
  (find (lit "pkg> ") trimmed).isSome || (find (lit "help?> ") trimmed).isSome ||
    (find (lit "shell> ") trimmed).isSome

def record (s : Session) (e : Event) : Session := { s with events := s.events ++ [e] }

/-- What a log call throws when its line carries these texts. -/
def logThrow (json : JsonLib) (texts : List Text) : Option Text :=
  if json.logJson then texts.findSome? fun t => if Lib.Utf8.Valid t then none else some (json.strictError t) else none

/-- A stage that logs these texts before it lets the call go on. -/
def logged (json : JsonLib) (texts : List Text) (flow : Flow) : Flow :=
  match flow with
  | .stop r => .stop r
  | .next =>
      match logThrow json texts with
      | some what => .stop (some (.error what))
      | none => .next

/-- Tmux::send_text: the paste follows a loaded buffer, and may reach the pane
also when tmux reports a failure of it. -/
def sendText (a : SendTextAnswers) (target : Text) (pasted : Pasted) (buffer : Text) (s : Session) :
    Session × Except Text Unit :=
  match a.load with
  | .error e => (s, .error e)
  | .ok _ => (record s (.paste target pasted buffer), a.paste)

def joined (first second : Text) : Text :=
  if second = [] then first
  else if first ≠ [] ∧ first.getLast? ≠ some nl then first ++ [nl] ++ second
  else first ++ second

def socketResponseToToolResult (r : SocketEvalResponse) (transportName : Text) (captureLines : Nat) : ToolResult :=
  let stdoutText := truncateToolTail r.stdoutText captureLines kMaxMcpTextBytes
  let valueShow := truncateToolTail r.valueShow captureLines kMaxMcpTextBytes
  let errorMessage := truncateToolTail r.errorMessage captureLines kMaxMcpTextBytes
  let backtrace := truncateToolTail r.backtrace 200 kMaxMcpBacktraceBytes
  let structured := Json.obj
    [(lit "backtrace", .str backtrace), (lit "elapsed_ms", .int r.elapsedMs), (lit "error_message", .str errorMessage),
     (lit "found_begin", .bool true), (lit "found_end", .bool true), (lit "julia_error", .bool (!r.ok)),
     (lit "marker_id", .str []), (lit "stdout", .str stdoutText), (lit "timed_out", .bool false),
     (lit "transport", .str transportName), (lit "value_repr", .str valueShow)]
  if r.ok then
    { isError := false, structured
      text := truncateBytesTail (joined stdoutText valueShow) kMaxMcpTextBytes
      fullOutput := joined r.stdoutText r.valueShow }
  else
    { isError := true, structured
      text := truncateBytesTail (joined errorMessage backtrace) kMaxMcpTextBytes
      fullOutput := joined (joined r.stdoutText r.errorMessage) r.backtrace }

def socketPath (a : EvalAnswers) (b : Binding) : Text := SocketClient.defaultSocketPath a.runtimeDir (boundTarget b)

def conversation (json : JsonLib) (a : EvalAnswers) (b : Binding) (c : EvalCall) : Conversation :=
  SocketClient.eval json a.socket (socketPath a b) c.code kMaxSocketFieldBytes

/-- A conversation shows outside once a byte has been sent. -/
def recordRequest (path : Text) (talk : Conversation) (s : Session) : Session :=
  if talk.sent = 0 then s else record s (.socket path talk.request talk.sent)

/-- With transport auto a failure of the socket falls back to the marker path. -/
def afterSocket (c : EvalCall) : Option (Except Text SocketEvalResponse) → Flow
  | none => .stop none
  | some (.ok r) => .stop (some (.ok (socketResponseToToolResult r (lit "socket") c.captureLines)))
  | some (.error e) =>
      if c.transport = lit "socket" then .stop (some (.ok (error (lit "socket transport failed: " ++ e)))) else .next

/-- The texts of the line socket_eval_fallback_to_tmux, in the order of their keys. -/
def fallbackLog (a : EvalAnswers) (b : Binding) : Option (Except Text SocketEvalResponse) → List Text
  | some (.error e) => [e, socketPath a b]
  | _ => []

def routeSocket (json : JsonLib) (a : EvalAnswers) (b : Binding) (c : EvalCall) (s : Session) : Session × Flow :=
  if c.transport = lit "tmux" then (s, .next)
  else if a.socketExists then
    let result := (conversation json a b c).result
    (recordRequest (socketPath a b) (conversation json a b c) s,
      logged json (fallbackLog a b result) (afterSocket c result))
  else if c.transport = lit "socket" then
    (s, .stop (some (.ok (error (lit "socket transport requested but no JJMCPHelper socket at " ++ socketPath a b ++
      lit " (start it with `using JJMCPHelper; JJMCPHelper.start()`)")))))
  else (s, .next)

def checkPaneMode (a : EvalAnswers) (b : Binding) (force : Bool) (s : Session) : Session × Flow :=
  if force then (s, .next)
  else
    match a.lastLine with
    | .error _ => (s, .next)
    | .ok last =>
        if isKnownNonJuliaPrompt last then
          let s := record s (.key (boundTarget b) (lit "BSpace"))
          let refuse := fun line => error (lit "bound pane appears to be in a non-julia REPL mode (pkg>/help?>/shell>). Last line: \"" ++
            line ++ lit "\". Press backspace in the pane to return to julia>, or pass force=true.")
          match a.recheck with
          | .error _ => (s, .stop (some (.ok (refuse last))))
          | .ok line => if isKnownNonJuliaPrompt line then (s, .stop (some (.ok (refuse line)))) else (s, .next)
        else (s, .next)

def acquireLock (a : EvalAnswers) (s : Session) : Session × Flow :=
  match a.lock with
  | .error e => (s, .stop (some (.ok (error e))))
  | .ok _ => (s, .next)

/-- The polling loop of ensure_jjmcp_runtime: what it has extracted when it ends,
or its failure; without a result it still waits. -/
def installLoop (m : Marker) (s : PollState) : List PollInput → Option (Except Text ExtractedOutput)
  | [] => none
  | i :: is =>
      match i.captured with
      | .error e => some (.error e)
      | .ok cap =>
          let s := readCapture m cap s
          if s.lastExtract.foundEnd then some (.ok s.lastExtract)
          else if i.expired then
            some (.error (lit "Timed out while installing JJMCP Julia runtime before " ++ m.mark .End ++
              (if cap = [] then []
               else lit "\nRecent pane output:\n" ++ truncateToolTail cap 120 kMaxMcpTextBytes)))
          else installLoop m s is

def installError (e : ExtractedOutput) : Text :=
  lit "failed to install JJMCP Julia runtime:\n" ++ joined e.errorMessage e.backtrace

def ensureJjmcpRuntime (pid : Nat) (a : InstallAnswers) (b : Binding) (s : Session) : Session × Flow :=
  if RuntimeCache.isCurrent s.cache (boundTarget b) a.generation then (s, .next)
  else
    let s := { s with server := { s.server with markerSequence := s.server.markerSequence + 1 } }
    let m := makeMarker (makeMarkerId a.micros pid s.server.markerSequence)
    match sendText a.send (boundTarget b) (.bootstrap m) (lit "jjmcp_bootstrap_" ++ m.id) s with
    | (s, .error e) => (s, .stop (some (.ok (error e))))
    | (s, .ok _) =>
        match installLoop m {} a.polls with
        | none => (s, .stop none)
        | some (.error e) => (s, .stop (some (.ok (error e))))
        | some (.ok e) =>
            if e.juliaError then (s, .stop (some (.ok (error (installError e)))))
            else ({ s with cache := RuntimeCache.mark s.cache (boundTarget b) a.generation }, .next)

def nextMarkerId (pid : Nat) (a : PassAnswers) (s : Session) : Session × Text :=
  let sequence := s.server.markerSequence + 1
  let markerId := makeMarkerId a.micros pid sequence
  ({ s with server := { s.server with
      markerSequence := sequence, lastMarker := markerId, lastCommandTimestamp := a.timestamp } }, markerId)

def passStructured (a : PassAnswers) (m : Marker) (captureLines : Nat) (timedOut : Bool) (e : ExtractedOutput) : Json :=
  .obj
    [(lit "backtrace", .str (truncateToolTail e.backtrace 200 kMaxMcpBacktraceBytes)),
     (lit "elapsed_ms", .int a.elapsedMs),
     (lit "error_message", .str (truncateToolTail e.errorMessage captureLines kMaxMcpTextBytes)),
     (lit "found_begin", .bool e.foundBegin), (lit "found_end", .bool e.foundEnd),
     (lit "julia_error", .bool e.juliaError), (lit "marker_id", .str m.id),
     (lit "stdout", .str (truncateToolTail e.stdoutText captureLines kMaxMcpTextBytes)),
     (lit "timed_out", .bool timedOut), (lit "transport", .str (lit "tmux")),
     (lit "value_repr", .str (truncateToolTail e.valueRepr captureLines kMaxMcpTextBytes))]

def doneResult (a : PassAnswers) (m : Marker) (captureLines : Nat) (e : ExtractedOutput) : ToolResult :=
  { isError := e.juliaError
    text := truncateToolTail e.text captureLines kMaxMcpTextBytes
    structured := passStructured a m captureLines false e
    fullOutput := e.text }

def timedOutResult (a : PassAnswers) (m : Marker) (c : EvalCall) (s : PollState) : ToolResult :=
  let partialOutput := s.lastExtract.foundBegin = true ∧ s.lastExtract.text ≠ []
  { isError := true
    text := lit "Timed out after " ++ decimal c.timeoutMs ++ lit " ms waiting for " ++ m.mark .End ++
      (if partialOutput then
        lit "\nPartial output between markers:\n" ++ truncateToolTail s.lastExtract.text c.captureLines kMaxMcpTextBytes
       else if s.lastCapture = [] then []
       else lit "\nRecent pane output:\n" ++
         truncateToolTail s.lastCapture (min c.captureLines 200) kMaxMcpTextBytes)
    structured := passStructured a m c.captureLines true s.lastExtract
    fullOutput :=
      if partialOutput then
        lit "Timed out after " ++ decimal c.timeoutMs ++ lit " ms; output between markers so far:\n" ++ s.lastExtract.text
      else [] }

/-- The lambda run_marker_eval: one paste-and-wait pass. -/
def runMarkerEval (pid : Nat) (a : PassAnswers) (b : Binding) (c : EvalCall) (detectMissingRuntime : Bool) (s : Session) :
    Session × PassResult :=
  let (s, markerId) := nextMarkerId pid a s
  let m := makeMarker markerId
  match sendText a.send (boundTarget b) (.wrapper (wrapJuliaCode c.code m c.timeoutMs)) (lit "jjmcp_" ++ m.id) s with
  | (s, .error e) => (s, .stop (some (error e)))
  | (s, .ok _) =>
      match poll ⟨m, detectMissingRuntime, c.progressActive⟩ {} a.polls with
      | .again _ => (s, .stop none)
      | .missing => (s, .missing)
      | .failed e => (s, .stop (some (error e)))
      | .done p => (s, .stop (some (doneResult a m c.captureLines p.lastExtract)))
      | .timedOut p => (s, .stop (some (timedOutResult a m c p)))

/-- The text that a turn of the loop logs: a failed capture that does not end it. -/
def captureLog (pass : Pass) (s : PollState) (i : PollInput) : Option Text :=
  match i.captured, pollStep pass s i with
  | .error _, .failed _ => none
  | .error e, _ => some e
  | .ok _, _ => none

def pollLogs (pass : Pass) (s : PollState) : List PollInput → List Text
  | [] => []
  | i :: is =>
      (captureLog pass s i).toList ++
        match pollStep pass s i with
        | .again s' => pollLogs pass s' is
        | _ => []

def passLogs (pid : Nat) (a : PassAnswers) (b : Binding) (c : EvalCall) (detectMissingRuntime : Bool) (s : Session) :
    List Text :=
  let (s, markerId) := nextMarkerId pid a s
  let m := makeMarker markerId
  match sendText a.send (boundTarget b) (.wrapper (wrapJuliaCode c.code m c.timeoutMs)) (lit "jjmcp_" ++ m.id) s with
  | (_, .error _) => []
  | (_, .ok _) => pollLogs ⟨m, detectMissingRuntime, c.progressActive⟩ {} a.polls

def andThen (p : Session × Flow) (k : Session → Session × Reply) : Session × Reply :=
  match p with
  | (s, .next) => k s
  | (s, .stop r) => (s, r)

/-- What follows a pass: the first line of its log that throws has left it. -/
def afterPass (json : JsonLib) (logs : List Text) (p : Session × PassResult) (missing : Session → Session × Reply) :
    Session × Reply :=
  match logThrow json logs with
  | some what => (p.1, some (.error what))
  | none =>
      match p with
      | (s, .stop r) => (s, r.map .ok)
      | (s, .missing) => missing s

def retryPass (json : JsonLib) (a : EvalAnswers) (b : Binding) (c : EvalCall) (s : Session) : Session × Reply :=
  afterPass json (passLogs a.pid a.retry b c false s) (runMarkerEval a.pid a.retry b c false s) fun s =>
    (s, some (.ok (error (lit "the Julia REPL in " ++ boundTarget b ++
      lit " does not accept @JJMCP_COMMAND after reinstalling the runtime"))))

/-- Reinstalls the runtime, with a line in the log, for the retry. -/
def reinstall (json : JsonLib) (a : EvalAnswers) (b : Binding) (c : EvalCall) (s : Session) : Session × Reply :=
  andThen (s, logged json [boundTarget b] .next) fun s =>
    andThen (ensureJjmcpRuntime a.pid a.reinstall b
        { s with cache := RuntimeCache.invalidate s.cache (boundTarget b) })
      (retryPass json a b c)

def firstPass (json : JsonLib) (a : EvalAnswers) (b : Binding) (c : EvalCall) (s : Session) : Session × Reply :=
  afterPass json (passLogs a.pid a.pass b c true s) (runMarkerEval a.pid a.pass b c true s) (reinstall json a b c)

def markerPath (json : JsonLib) (a : EvalAnswers) (b : Binding) (c : EvalCall) (s : Session) : Session × Reply :=
  andThen (ensureJjmcpRuntime a.pid a.install b s) (firstPass json a b c)

def evalInPane (json : JsonLib) (a : EvalAnswers) (b : Binding) (c : EvalCall) (s : Session) : Session × Reply :=
  andThen (routeSocket json a b c s) fun s =>
    andThen (checkPaneMode a b c.force s) fun s =>
      andThen (acquireLock a s) (markerPath json a b c)

def evalCode (json : JsonLib) (a : EvalAnswers) (c : EvalCall) (s : Session) : Session × Reply :=
  let s := { s with lastCode := c.code }
  match s.server.binding with
  | none => (s, some (.ok (error (lit "no tmux pane is bound; call jjmcp_bind first"))))
  | some b =>
      match a.paneInfo with
      | .error e => (s, some (.ok (error e)))
      | .ok info =>
          if PaneInfo.alive info then evalInPane json a b c s
          else (s, some (.ok (error (lit "bound tmux pane appears dead: " ++ boundTarget b))))

theorem sendText_session {a : SendTextAnswers} {target : Text} {pasted : Pasted} {buffer : Text} {s s' : Session}
    {r : Except Text Unit} (h : sendText a target pasted buffer s = (s', r)) :
    s' = s ∨ s' = record s (.paste target pasted buffer) := by
  cases hl : a.load with
  | error e =>
      simp only [sendText, hl, Prod.mk.injEq] at h
      exact .inl h.1.symm
  | ok _ =>
      simp only [sendText, hl, Prod.mk.injEq] at h
      exact .inr h.1.symm

def bootstrapMarker (pid : Nat) (a : InstallAnswers) (s : Session) : Marker :=
  makeMarker (makeMarkerId a.micros pid (s.server.markerSequence + 1))

/-- An installation leaves the session at once, or as the paste of the bootstrap
leaves it, with the mark once it has ended. -/
theorem ensureJjmcpRuntime_session (pid : Nat) (a : InstallAnswers) (b : Binding) (s : Session) :
    (RuntimeCache.isCurrent s.cache (boundTarget b) a.generation = true ∧ (ensureJjmcpRuntime pid a b s).1 = s) ∨
      (RuntimeCache.isCurrent s.cache (boundTarget b) a.generation = false ∧ ∃ s' r,
        sendText a.send (boundTarget b) (.bootstrap (bootstrapMarker pid a s))
          (lit "jjmcp_bootstrap_" ++ (bootstrapMarker pid a s).id)
          { s with server := { s.server with markerSequence := s.server.markerSequence + 1 } } = (s', r) ∧
        ((ensureJjmcpRuntime pid a b s).1 = s' ∨ (ensureJjmcpRuntime pid a b s).1 =
          { s' with cache := RuntimeCache.mark s'.cache (boundTarget b) a.generation })) := by
  unfold ensureJjmcpRuntime
  split
  next hc => exact .inl ⟨hc, rfl⟩
  next hc =>
    have hc' : RuntimeCache.isCurrent s.cache (boundTarget b) a.generation = false := by simpa using hc
    refine .inr ⟨hc', ?_⟩
    dsimp only
    split
    next s' _ h => exact ⟨s', _, h, .inl rfl⟩
    next s' _ h =>
      split
      · exact ⟨s', _, h, .inl rfl⟩
      · exact ⟨s', _, h, .inl rfl⟩
      · split
        · exact ⟨s', _, h, .inl rfl⟩
        · exact ⟨s', _, h, .inr rfl⟩

theorem runMarkerEval_session (pid : Nat) (a : PassAnswers) (b : Binding) (c : EvalCall) (detect : Bool) (s : Session) :
    ∃ r, sendText a.send (boundTarget b)
      (.wrapper (wrapJuliaCode c.code (makeMarker (nextMarkerId pid a s).2) c.timeoutMs))
      (lit "jjmcp_" ++ (nextMarkerId pid a s).2) (nextMarkerId pid a s).1 =
        ((runMarkerEval pid a b c detect s).1, r) := by
  unfold runMarkerEval
  dsimp only
  split
  next s' _ h => exact ⟨_, h⟩
  next s' _ h =>
    split
    · exact ⟨_, h⟩
    · exact ⟨_, h⟩
    · exact ⟨_, h⟩
    · exact ⟨_, h⟩
    · exact ⟨_, h⟩

/-- A pass that is not left by a missing runtime ends the call in its own session. -/
theorem afterPass_cases (json : JsonLib) (logs : List Text) (p : Session × PassResult)
    (missing : Session → Session × Reply) :
    (∃ r, afterPass json logs p missing = (p.1, r)) ∨ (p.2 = .missing ∧ afterPass json logs p missing = missing p.1) := by
  rcases p with ⟨s, _ | r⟩
  · rw [afterPass]
    split
    · exact .inl ⟨_, rfl⟩
    · exact .inr ⟨rfl, rfl⟩
  · rw [afterPass]
    split
    · exact .inl ⟨_, rfl⟩
    · exact .inl ⟨_, rfl⟩

theorem logged_next {json : JsonLib} {texts : List Text} {flow : Flow} (h : logged json texts flow = .next) :
    flow = .next ∧ logThrow json texts = none := by
  cases flow with
  | stop r => cases h
  | next =>
      refine ⟨rfl, ?_⟩
      cases hthrow : logThrow json texts with
      | none => rfl
      | some what => simp [logged, hthrow] at h

/-- A relation between sessions that each bootstrap and each pass keeps. -/
structure Framed (pid : Nat) (R : Session → Session → Prop) : Prop where
  same : ∀ {s s' : Session}, s'.server.markerSequence = s.server.markerSequence → s'.events = s.events → R s s'
  trans : ∀ {s s' t : Session}, R s s' → R s' t → R s t
  bootstrap : ∀ a b s, R s (ensureJjmcpRuntime pid a b s).1
  pass : ∀ a b c detect s, R s (runMarkerEval pid a b c detect s).1

section Framed

variable {R : Session → Session → Prop}

theorem Framed.andThen {pid : Nat} (hR : Framed pid R) {p : Session × Flow} {k : Session → Session × Reply}
    {s : Session} (hp : R s p.1) (hk : R p.1 (k p.1).1) : R s (EvalCode.andThen p k).1 := by
  rcases p with ⟨s', _ | r⟩
  · exact hR.trans hp hk
  · exact hp

theorem Framed.afterPass {pid : Nat} (hR : Framed pid R) {json : JsonLib} {logs : List Text} {p : Session × PassResult}
    {missing : Session → Session × Reply} {s : Session} (hp : R s p.1) (hk : R p.1 (missing p.1).1) :
    R s (EvalCode.afterPass json logs p missing).1 := by
  rcases afterPass_cases json logs p missing with ⟨r, h⟩ | ⟨_, h⟩
  · rw [h]
    exact hp
  · rw [h]
    exact hR.trans hp hk

variable {json : JsonLib} {a : EvalAnswers} (hR : Framed a.pid R) (b : Binding) (c : EvalCall) (s : Session)

include hR

theorem Framed.retryPass : R s (EvalCode.retryPass json a b c s).1 :=
  hR.afterPass (hR.pass a.retry b c false s) (hR.same rfl rfl)

theorem Framed.reinstall : R s (EvalCode.reinstall json a b c s).1 := by
  have hcache : R s { s with cache := RuntimeCache.invalidate s.cache (boundTarget b) } := hR.same rfl rfl
  rw [EvalCode.reinstall]
  refine hR.andThen (hR.same rfl rfl) ?_
  exact hR.trans hcache (hR.andThen (hR.bootstrap a.reinstall b _) (hR.retryPass b c _))

theorem Framed.firstPass : R s (EvalCode.firstPass json a b c s).1 :=
  hR.afterPass (hR.pass a.pass b c true s) (hR.reinstall b c _)

/-- The marker path, from the lock on, keeps what its parts keep. -/
theorem Framed.markerPath : R s (EvalCode.andThen (acquireLock a s) (EvalCode.markerPath json a b c)).1 := by
  apply hR.andThen
  · rw [acquireLock]
    split
    · exact hR.same rfl rfl
    · exact hR.same rfl rfl
  · exact hR.andThen (hR.bootstrap a.install b _) (hR.firstPass b c _)

end Framed

end JJMCP.EvalCode
