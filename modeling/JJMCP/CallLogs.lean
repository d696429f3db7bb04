import JJMCP.Tools

namespace JJMCP.CallLogs

open Text Poll Config EvalCode Tools

/-- The strict printer takes every text, where log lines go through it. -/
def Loggable (json : JsonLib) (texts : List Text) : Prop := json.logJson = true → ∀ t ∈ texts, Lib.Utf8.Valid t

def Thrown (r : Reply) : Prop := ∃ what, r = some (.error what)

section Eval

def andLog (p : Session × Flow) (k : Session → List Text) : List Text :=
  match p with
  | (s, .next) => k s
  | (_, .stop _) => []

/-- A stage logs these before it lets the call go on. -/
def whenNext (flow : Flow) (texts : List Text) : List Text :=
  match flow with
  | .next => texts
  | .stop _ => []

def routeLogs (json : JsonLib) (a : EvalAnswers) (b : Binding) (c : EvalCall) : List Text :=
  if c.transport = lit "tmux" ∨ a.socketExists = false then []
  else
    let result := (conversation json a b c).result
    whenNext (afterSocket c result) (fallbackLog a b result)

def reinstallLogs (json : JsonLib) (a : EvalAnswers) (b : Binding) (c : EvalCall) (s : Session) : List Text :=
  boundTarget b ::
    andLog (s, logged json [boundTarget b] .next) fun s =>
      andLog (ensureJjmcpRuntime a.pid a.reinstall b
          { s with cache := RuntimeCache.invalidate s.cache (boundTarget b) })
        (passLogs a.pid a.retry b c false)

def passesLogs (json : JsonLib) (a : EvalAnswers) (b : Binding) (c : EvalCall) (s : Session) : List Text :=
  passLogs a.pid a.pass b c true s ++
    match runMarkerEval a.pid a.pass b c true s, logThrow json (passLogs a.pid a.pass b c true s) with
    | (s, .missing), none => reinstallLogs json a b c s
    | _, _ => []

/-- The texts that the log calls of eval_code are given, up to one that throws. -/
def evalLogs (json : JsonLib) (a : EvalAnswers) (c : EvalCall) (s : Session) : List Text :=
  let s := { s with lastCode := c.code }
  match s.server.binding with
  | none => []
  | some b =>
      match a.paneInfo with
      | .error _ => []
      | .ok info =>
          if PaneInfo.alive info then
            routeLogs json a b c ++
              andLog (routeSocket json a b c s) fun s =>
                andLog (checkPaneMode a b c.force s) fun s =>
                  andLog (acquireLock a s) fun s =>
                    andLog (ensureJjmcpRuntime a.pid a.install b s) (passesLogs json a b c)
          else []

variable {json : JsonLib} {a : EvalAnswers} {b : Binding} {c : EvalCall}

theorem loggable_nil : Loggable json [] := by simp [Loggable]

theorem loggable_append {xs ys : List Text} : Loggable json (xs ++ ys) ↔ Loggable json xs ∧ Loggable json ys := by
  simp only [Loggable, List.mem_append]
  constructor
  · exact fun h => ⟨fun hj t ht => h hj t (.inl ht), fun hj t ht => h hj t (.inr ht)⟩
  · exact fun h hj t ht => ht.elim (h.1 hj t) (h.2 hj t)

theorem logThrow_eq_none {texts : List Text} : logThrow json texts = none ↔ Loggable json texts := by
  rw [logThrow, Loggable]
  split
  next h => simp [h, List.findSome?_eq_none_iff]
  next h => simp [h]

def FlowThrown : Flow → Prop
  | .next => False
  | .stop r => Thrown r

theorem not_thrown_ok (r : ToolResult) : ¬Thrown (some (.ok r)) := by
  rintro ⟨what, h⟩
  cases h

theorem not_thrown_map (r : Option ToolResult) : ¬Thrown (r.map .ok) := by
  rintro ⟨what, h⟩
  cases r <;> cases h

theorem not_thrown_none : ¬Thrown none := by
  rintro ⟨what, h⟩
  cases h

theorem thrown_some (what : Text) : Thrown (some (.error what)) := ⟨what, rfl⟩

/-- A stage throws or not; then the next one decides. -/
theorem andThen_thrown {p : Session × Flow} {k : Session → Session × Reply} {logs : List Text}
    {klogs : Session → List Text} (hp : FlowThrown p.2 ↔ ¬Loggable json logs)
    (hk : ∀ s, Thrown (k s).2 ↔ ¬Loggable json (klogs s)) :
    Thrown (andThen p k).2 ↔ ¬Loggable json (logs ++ andLog p klogs) := by
  rcases p with ⟨s, _ | r⟩
  · have hlogs : Loggable json logs := not_not.mp fun hn => hp.mpr hn
    rw [loggable_append, and_iff_right hlogs]
    exact hk s
  · rw [andLog, List.append_nil]
    exact hp

theorem logged_thrown {texts : List Text} {flow : Flow} (hflow : ¬FlowThrown flow) :
    FlowThrown (logged json texts flow) ↔ ¬Loggable json (whenNext flow texts) := by
  cases flow with
  | stop r => exact iff_of_false hflow (not_not.mpr loggable_nil)
  | next =>
      rw [logged, whenNext, ← logThrow_eq_none]
      cases logThrow json texts with
      | none => simp [FlowThrown]
      | some what => simp [FlowThrown, thrown_some]

theorem afterSocket_flow (result : Option (Except Text SocketEvalResponse)) : ¬FlowThrown (afterSocket c result) := by
  unfold afterSocket
  split
  · exact not_thrown_none
  · exact not_thrown_ok _
  · split
    · exact not_thrown_ok _
    · exact id

theorem routeSocket_thrown (s : Session) :
    FlowThrown (routeSocket json a b c s).2 ↔ ¬Loggable json (routeLogs json a b c) := by
  have hquiet {logs : List Text} (hlogs : logs = []) {flow : Flow} (hflow : ¬FlowThrown flow) :
      FlowThrown flow ↔ ¬Loggable json logs := iff_of_false hflow (not_not.mpr (hlogs ▸ loggable_nil))
  unfold routeSocket
  split
  next htmux => exact hquiet (if_pos (.inl htmux)) id
  next htmux =>
    split
    next hexists =>
      rw [routeLogs, if_neg (by simp [htmux, hexists])]
      exact logged_thrown (afterSocket_flow _)
    next hexists =>
      have hlogs : routeLogs json a b c = [] := if_pos (.inr (by simpa using hexists))
      split
      · exact hquiet hlogs (not_thrown_ok _)
      · exact hquiet hlogs id

theorem checkPaneMode_flow (force : Bool) (s : Session) : ¬FlowThrown (checkPaneMode a b force s).2 := by
  unfold checkPaneMode
  split
  · exact id
  · split
    · exact id
    · split
      · dsimp only
        split
        · exact not_thrown_ok _
        · split
          · exact not_thrown_ok _
          · exact id
      · exact id

theorem acquireLock_flow (s : Session) : ¬FlowThrown (acquireLock a s).2 := by
  unfold acquireLock
  split
  · exact not_thrown_ok _
  · exact id

theorem ensureJjmcpRuntime_flow (pid : Nat) (install : InstallAnswers) (s : Session) :
    ¬FlowThrown (ensureJjmcpRuntime pid install b s).2 := by
  unfold ensureJjmcpRuntime
  split
  · exact id
  · dsimp only
    split
    · exact not_thrown_ok _
    · split
      · exact not_thrown_none
      · exact not_thrown_ok _
      · split
        · exact not_thrown_ok _
        · exact id

/-- A stage that logs nothing. -/
theorem andThen_thrown_quiet {p : Session × Flow} {k : Session → Session × Reply} {klogs : Session → List Text}
    (hp : ¬FlowThrown p.2) (hk : ∀ s, Thrown (k s).2 ↔ ¬Loggable json (klogs s)) :
    Thrown (andThen p k).2 ↔ ¬Loggable json (andLog p klogs) := by
  have hquiet : FlowThrown p.2 ↔ ¬Loggable json [] := iff_of_false hp (not_not.mpr loggable_nil)
  exact andThen_thrown hquiet hk

theorem afterPass_thrown {logs : List Text} {p : Session × PassResult} {missing : Session → Session × Reply}
    {mlogs : Session → List Text} (hmissing : ∀ s, Thrown (missing s).2 ↔ ¬Loggable json (mlogs s)) :
    Thrown (afterPass json logs p missing).2 ↔ ¬Loggable json (logs ++
      match p, logThrow json logs with
      | (s, .missing), none => mlogs s
      | _, _ => []) := by
  unfold afterPass
  cases hthrow : logThrow json logs with
  | some what =>
      have hlogs : ¬Loggable json logs := by simp [← logThrow_eq_none, hthrow]
      exact iff_of_true (thrown_some what) fun h => hlogs (loggable_append.mp h).1
  | none =>
      have hlogs : Loggable json logs := logThrow_eq_none.mp hthrow
      rcases p with ⟨s, _ | r⟩
      · rw [loggable_append, and_iff_right hlogs]
        exact hmissing s
      · rw [loggable_append, and_iff_right hlogs]
        exact iff_of_false (not_thrown_map r) (not_not.mpr loggable_nil)

theorem retryPass_thrown (s : Session) :
    Thrown (retryPass json a b c s).2 ↔ ¬Loggable json (passLogs a.pid a.retry b c false s) := by
  let refused : Session → Session × Reply := fun s => (s, some (.ok (error (lit "the Julia REPL in " ++ boundTarget b ++
    lit " does not accept @JJMCP_COMMAND after reinstalling the runtime"))))
  have hrefused (s : Session) : Thrown (refused s).2 ↔ ¬Loggable json ((fun _ => []) s) :=
    iff_of_false (not_thrown_ok _) (not_not.mpr loggable_nil)
  have h : Thrown (retryPass json a b c s).2 ↔ _ :=
    afterPass_thrown (p := runMarkerEval a.pid a.retry b c false s) hrefused
  have hnil : (match runMarkerEval a.pid a.retry b c false s,
      logThrow json (passLogs a.pid a.retry b c false s) with
      | (_, .missing), none => ([] : List Text)
      | _, _ => []) = [] := by
    split <;> rfl
  rwa [hnil, List.append_nil] at h

theorem reinstall_thrown (s : Session) :
    Thrown (reinstall json a b c s).2 ↔ ¬Loggable json (reinstallLogs json a b c s) := by
  have hlogged : FlowThrown (logged json [boundTarget b] .next) ↔ ¬Loggable json [boundTarget b] :=
    logged_thrown (show ¬FlowThrown .next from id)
  refine andThen_thrown (p := (s, logged json [boundTarget b] .next)) hlogged fun s => ?_
  exact andThen_thrown_quiet (ensureJjmcpRuntime_flow _ _ _) retryPass_thrown

theorem firstPass_thrown (s : Session) :
    Thrown (firstPass json a b c s).2 ↔ ¬Loggable json (passesLogs json a b c s) :=
  afterPass_thrown reinstall_thrown

/-- An evaluation throws exactly when one of its log lines does. -/
theorem evalCode_thrown (s : Session) : Thrown (evalCode json a c s).2 ↔ ¬Loggable json (evalLogs json a c s) := by
  have hquiet (r : ToolResult) : Thrown (some (.ok r)) ↔ ¬Loggable json [] :=
    iff_of_false (not_thrown_ok r) (not_not.mpr loggable_nil)
  unfold evalCode evalLogs
  dsimp only
  cases s.server.binding with
  | none => exact hquiet _
  | some b =>
      cases a.paneInfo with
      | error e => exact hquiet _
      | ok info =>
          by_cases halive : PaneInfo.alive info = true
          · simp only [if_pos halive]
            refine andThen_thrown (routeSocket_thrown _) fun s => ?_
            refine andThen_thrown_quiet (checkPaneMode_flow _ s) fun s => ?_
            refine andThen_thrown_quiet (acquireLock_flow s) fun s => ?_
            exact andThen_thrown_quiet (ensureJjmcpRuntime_flow _ _ s) firstPass_thrown
          · simp only [if_neg halive]
            exact hquiet _

end Eval

/-- The evaluation that jjmcp_eval runs for its arguments. -/
def evalArguments (c : ToolCall) (d : Dispatcher) : Option EvalCall :=
  let args := Json.obj c.arguments
  match args.requireString "code" with
  | .error _ => none
  | .ok code =>
      match Json.value Json.readBool args (lit "force") false with
      | .error _ => none
      | .ok force =>
          match Json.value Json.readBool args (lit "validate_syntax") true with
          | .error _ => none
          | .ok validateSyntax =>
              let transport := args.optionalString "transport" (lit "auto")
              if transport ≠ lit "auto" ∧ transport ≠ lit "tmux" ∧ transport ≠ lit "socket" then none
              else
                match if validateSyntax then c.answers.validated else some (.ok ()) with
                | none | some (.error _) => none
                | some (.ok _) =>
                    some { code, timeoutMs := timeoutMs args kDefaultTimeoutMs d, captureLines := captureLines args,
                           force, progressActive := c.progressActive, transport }

def fixedCall (c : ToolCall) (code : Text) (defaultTimeoutMs : Nat) (d : Dispatcher) : EvalCall :=
  let args := Json.obj c.arguments
  { code, timeoutMs := timeoutMs args defaultTimeoutMs d, captureLines := captureLines args,
    progressActive := c.progressActive }

/-- The evaluation that a tool call runs, when it runs one. -/
def evalCallOf (c : ToolCall) (d : Dispatcher) : Option EvalCall :=
  let args := Json.obj c.arguments
  if c.name = lit "jjmcp_eval" then evalArguments c d
  else if c.name = lit "jjmcp_revise" then some (fixedCall c makeReviseCode kDefaultTimeoutMs d)
  else if c.name = lit "jjmcp_activate" then
    match args.requireString "path" with
    | .error _ => none
    | .ok path => some (fixedCall c (makeActivateCode path) kDefaultTimeoutMs d)
  else if c.name = lit "jjmcp_test" then
    some (fixedCall c (makeTestCode (args.optionalString "test_expr" []) (args.optionalString "file" [])
      (args.optionalString "test_item_pattern" [])) 120000 d)
  else if c.name = lit "jjmcp_pkg_status" then
    some (fixedCall c (lit "using Pkg\nPkg.status()") kDefaultTimeoutMs d)
  else none

section Dispatch

variable (json : JsonLib) (cwd : Path) {c : ToolCall} {call : EvalCall} {d : Dispatcher}

theorem eval_evalArguments (h : evalArguments c d = some call) :
    eval json c.answers (.obj c.arguments) c.progressActive d = evalIn json c.answers call d := by
  unfold evalArguments at h
  unfold eval evalWith
  cases hcode : (Json.obj c.arguments).requireString "code" with
  | error e => simp [hcode] at h
  | ok code =>
      cases hforce : Json.value Json.readBool (.obj c.arguments) (lit "force") false with
      | error e => simp [hcode, hforce] at h
      | ok force =>
          cases hvalidate : Json.value Json.readBool (.obj c.arguments) (lit "validate_syntax") true with
          | error e => simp [hcode, hforce, hvalidate] at h
          | ok validateSyntax =>
              simp only [hcode, hforce, hvalidate] at h ⊢
              split at h
              · cases h
              next htransport =>
                rw [if_neg htransport]
                generalize (if validateSyntax then c.answers.validated else some (.ok ())) = valid at h ⊢
                rcases valid with _ | (e | _)
                · cases h
                · cases h
                · exact Option.some.inj h ▸ rfl

theorem activate_evalCall {path : Text} (hpath : (Json.obj c.arguments).requireString "path" = .ok path) :
    activate json c.answers (.obj c.arguments) c.progressActive d =
      evalIn json c.answers (fixedCall c (makeActivateCode path) kDefaultTimeoutMs d) d := by
  rw [activate, hpath]
  rfl

/-- The evaluation is the one that the tool runs. -/
theorem dispatch_evalCall (h : evalCallOf c d = some call) : dispatch json cwd c d = evalIn json c.answers call d := by
  unfold evalCallOf at h
  dsimp only at h
  split at h
  next hname =>
    rw [← eval_evalArguments json h]
    simp +decide only [dispatch, hname, if_true, if_false]
  split at h
  next hname =>
    obtain rfl := Option.some.inj h
    simp +decide only [dispatch, hname, if_true, if_false]
    rfl
  split at h
  next hname =>
    simp +decide only [dispatch, hname, if_true, if_false]
    cases hpath : (Json.obj c.arguments).requireString "path" with
    | error e => simp [hpath] at h
    | ok path =>
        simp only [hpath, Option.some.injEq] at h
        exact h ▸ activate_evalCall json hpath
  split at h
  next hname =>
    obtain rfl := Option.some.inj h
    simp +decide only [dispatch, hname, if_true, if_false]
    rfl
  split at h
  next hname =>
    obtain rfl := Option.some.inj h
    simp +decide only [dispatch, hname, if_true, if_false]
    rfl
  cases h

end Dispatch

theorem evalArguments_progressActive {c : ToolCall} {call : EvalCall} {d : Dispatcher}
    (h : evalArguments c d = some call) : call.progressActive = c.progressActive := by
  unfold evalArguments at h
  dsimp only at h
  split at h
  · cases h
  split at h
  · cases h
  split at h
  · cases h
  split at h
  · cases h
  split at h
  · cases h
  · cases h
  · exact Option.some.inj h ▸ rfl

theorem evalCallOf_progressActive {c : ToolCall} {call : EvalCall} {d : Dispatcher} (h : evalCallOf c d = some call) :
    call.progressActive = c.progressActive := by
  unfold evalCallOf at h
  dsimp only at h
  split at h
  · exact evalArguments_progressActive h
  split at h
  · exact Option.some.inj h ▸ rfl
  split at h
  · split at h
    · cases h
    · exact Option.some.inj h ▸ rfl
  split at h
  · exact Option.some.inj h ▸ rfl
  split at h
  · exact Option.some.inj h ▸ rfl
  · cases h

/-- The texts of the line transcript_enabled. -/
def transcriptLogs (cwd : Path) (args : Json) (d : Dispatcher) : List Text :=
  let formatArg := args.optionalString "format" []
  let pathArg := args.optionalString "path" []
  if formatKnown formatArg = false ∨ turnsOff args = true ∨ pathArg = [] then []
  else
    [transcriptFormatName (if formatArg = [] then d.transcript.format else transcriptFormatFromString formatArg),
     transcriptPath cwd pathArg]

/-- The texts that the log calls of a tool are given before its call is recorded. -/
def callLogs (json : JsonLib) (cwd : Path) (c : ToolCall) (d : Dispatcher) : List Text :=
  match evalCallOf c d with
  | some call => evalLogs json c.answers.eval call d.session
  | none => if c.name = lit "jjmcp_transcript" then transcriptLogs cwd (.obj c.arguments) d else []

end JJMCP.CallLogs
