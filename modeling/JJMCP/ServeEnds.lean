import JJMCP.ServeStdio

namespace JJMCP.ServeEnds

open Lib.Occurrence Text Marker Poll Config EvalCode Tools Mcp Serve ServeProgress Lib.Runs
open ServeStdio hiding step start Complete

/-- A loop that polls until a deadline finds the clock past it at one of its turns. -/
def Expires (polls : List PollInput) : Prop := ∃ i ∈ polls, i.expired = true

/-- The loop of recv reads no more after this answer. -/
def Final : RecvAnswer → Prop
  | .data chunk => chunk = []
  | .failed _ _ => True

/-- The deadlines of a call pass, and a send or a recv that blocks comes back at last:
both have a timeout. -/
structure Timely (a : EvalAnswers) : Prop where
  install : Expires a.install.polls
  pass : Expires a.pass.polls
  reinstall : Expires a.reinstall.polls
  retry : Expires a.retry.polls
  sends : a.socketExists = true → ∃ x ∈ a.socket.sends, x.bytes = 0
  recvs : a.socketExists = true → ∃ x ∈ a.socket.recvs, Final x

/-- The run of julia that checks the syntax returns too. -/
structure CallTimely (a : CallAnswers) : Prop where
  eval : Timely a.eval
  validated : a.validated.isSome = true

section Loops

theorem pollStep_expired {pass : Pass} {s s' : PollState} {i : PollInput} (h : i.expired = true) :
    pollStep pass s i ≠ .again s' := by
  cases hcap : i.captured with
  | error e =>
      simp only [pollStep, hcap, h, if_true]
      split <;> simp
  | ok cap =>
      simp only [pollStep, hcap, h, if_true]
      split
      · simp
      · split <;> simp

theorem poll_ends {pass : Pass} {is : List PollInput} (h : Expires is) (s s' : PollState) : poll pass s is ≠ .again s' := by
  obtain ⟨i, hi, hexpired⟩ := h
  induction is generalizing s with
  | nil => cases hi
  | cons j is ih =>
      rw [poll]
      cases hstep : pollStep pass s j with
      | again t =>
          rcases List.mem_cons.mp hi with rfl | hi
          · exact absurd hstep (pollStep_expired hexpired)
          · exact ih t hi
      | done | timedOut | missing | failed => simp

theorem installLoop_ends {is : List PollInput} (h : Expires is) (m : Marker) (s : PollState) :
    (installLoop m s is).isSome = true := by
  obtain ⟨i, hi, hexpired⟩ := h
  induction is generalizing s with
  | nil => cases hi
  | cons j is ih =>
      rw [installLoop]
      split
      · rfl
      next cap _ =>
        dsimp only
        split
        · rfl
        · split
          · rfl
          next hgoes =>
            rcases List.mem_cons.mp hi with rfl | hi
            · exact absurd hexpired hgoes
            · exact ih _ hi

theorem sendLoop_ends {payload : Text} {as : List SendAnswer} (h : ∃ x ∈ as, x.bytes = 0) (sent : Nat) :
    (SocketClient.sendLoop payload sent as).2.isSome = true := by
  obtain ⟨x, hx, hzero⟩ := h
  induction as generalizing sent with
  | nil => cases hx
  | cons a as ih =>
      rw [SocketClient.sendLoop]
      split
      · rfl
      · split
        · rfl
        next hgoes =>
          rcases List.mem_cons.mp hx with rfl | hx
          · exact absurd hzero hgoes
          · exact ih _ hx

theorem recvLoop_ends {as : List RecvAnswer} (h : ∃ x ∈ as, Final x) (buf : Text) :
    (SocketClient.recvLoop buf as).isSome = true := by
  obtain ⟨x, hx, hfinal⟩ := h
  induction as generalizing buf with
  | nil => cases hx
  | cons a as ih =>
      cases hfind : find [nl] buf with
      | some p => simp [SocketClient.recvLoop, hfind]
      | none =>
          cases a with
          | failed wouldBlock error => simp [SocketClient.recvLoop, hfind]
          | data chunk =>
              simp only [SocketClient.recvLoop, hfind]
              split
              · rfl
              next hgoes =>
                rcases List.mem_cons.mp hx with rfl | hx
                · exact absurd hfinal hgoes
                · exact ih _ hx

theorem conversation_ends {json : JsonLib} {a : SocketAnswers} (hsends : ∃ x ∈ a.sends, x.bytes = 0)
    (hrecvs : ∃ x ∈ a.recvs, Final x) (path code : Text) (maxOutputBytes : Nat) :
    (SocketClient.eval json a path code maxOutputBytes).result.isSome = true := by
  have hsent := @sendLoop_ends (SocketClient.requestLine json code maxOutputBytes) a.sends hsends 0
  have hgot := recvLoop_ends hrecvs []
  simp only [SocketClient.eval]
  split
  · rfl
  · split
    · rfl
    · split
      · rfl
      · split
        next h => simp [h] at hsent
        · rfl
        · split
          next h => simp [h] at hgot
          · rfl
          · rfl

end Loops

section Call

def FlowEnds : Flow → Prop
  | .next => True
  | .stop r => r.isSome = true

def PassEnds : PassResult → Prop
  | .missing => True
  | .stop r => r.isSome = true

theorem logged_ends {json : JsonLib} {texts : List Text} {flow : Flow} (h : FlowEnds flow) :
    FlowEnds (logged json texts flow) := by
  unfold logged
  split
  · exact h
  · split
    · rfl
    · trivial

theorem afterPass_ends {json : JsonLib} {logs : List Text} {p : Session × PassResult}
    {missing : Session → Session × Reply} (hp : PassEnds p.2) (hmissing : ∀ s, (missing s).2.isSome = true) :
    (afterPass json logs p missing).2.isSome = true := by
  unfold afterPass
  split
  · rfl
  · rcases p with ⟨s, _ | r⟩
    · exact hmissing s
    · exact Option.isSome_map.trans hp

theorem andThen_ends {p : Session × Flow} {k : Session → Session × Reply} (hp : FlowEnds p.2)
    (hk : ∀ s, (k s).2.isSome = true) : (andThen p k).2.isSome = true := by
  rcases p with ⟨s, _ | r⟩
  · exact hk s
  · exact hp

variable {json : JsonLib} {a : EvalAnswers} (h : Timely a) (b : Binding) (c : EvalCall)

include h

theorem routeSocket_ends (s : Session) : FlowEnds (routeSocket json a b c s).2 := by
  unfold routeSocket
  split
  · trivial
  · split
    next hexists =>
      have hresult : (conversation json a b c).result.isSome = true :=
        conversation_ends (h.sends hexists) (h.recvs hexists) _ _ _
      refine logged_ends ?_
      rcases hr : (conversation json a b c).result with _ | (e | r)
      · simp [hr] at hresult
      · dsimp only [afterSocket]
        split
        · rfl
        · trivial
      · rfl
    · split
      · rfl
      · trivial

omit h in
theorem checkPaneMode_ends (force : Bool) (s : Session) : FlowEnds (checkPaneMode a b force s).2 := by
  unfold checkPaneMode
  split
  · trivial
  · split
    · trivial
    · split
      · dsimp only
        split
        · rfl
        · split
          · rfl
          · trivial
      · trivial

omit h in
theorem acquireLock_ends (s : Session) : FlowEnds (acquireLock a s).2 := by
  unfold acquireLock
  split
  · rfl
  · trivial

omit h in
theorem ensureJjmcpRuntime_ends {install : InstallAnswers} (hinstall : Expires install.polls) (s : Session) :
    FlowEnds (ensureJjmcpRuntime a.pid install b s).2 := by
  unfold ensureJjmcpRuntime
  split
  · trivial
  · dsimp only
    split
    · rfl
    · split
      next hloop =>
        have hends := installLoop_ends hinstall (makeMarker (makeMarkerId install.micros a.pid (s.server.markerSequence + 1))) {}
        rw [hloop] at hends
        exact hends
      · rfl
      · split
        · rfl
        · trivial

omit h in
theorem runMarkerEval_ends {pass : PassAnswers} (hpass : Expires pass.polls) (detect : Bool) (s : Session) :
    PassEnds (runMarkerEval a.pid pass b c detect s).2 := by
  unfold runMarkerEval
  dsimp only
  split
  · rfl
  · split
    next hpoll => exact absurd hpoll (poll_ends hpass _ _)
    · trivial
    · rfl
    · rfl
    · rfl

theorem retryPass_ends (s : Session) : (retryPass json a b c s).2.isSome = true :=
  afterPass_ends (runMarkerEval_ends b c h.retry false s) fun _ => rfl

theorem reinstall_ends (s : Session) : (reinstall json a b c s).2.isSome = true := by
  refine andThen_ends (p := (s, logged json [boundTarget b] .next)) (logged_ends (show FlowEnds .next from trivial)) fun s => ?_
  exact andThen_ends (ensureJjmcpRuntime_ends b h.reinstall _) (retryPass_ends h b c)

theorem firstPass_ends (s : Session) : (firstPass json a b c s).2.isSome = true :=
  afterPass_ends (runMarkerEval_ends b c h.pass true s) (reinstall_ends h b c)

theorem evalCode_ends (s : Session) : (evalCode json a c s).2.isSome = true := by
  unfold evalCode
  dsimp only
  split
  · rfl
  next b _ =>
    split
    · rfl
    · split
      · refine andThen_ends (routeSocket_ends h b c _) fun s => ?_
        refine andThen_ends (checkPaneMode_ends b c.force s) fun s => ?_
        refine andThen_ends (acquireLock_ends s) fun s => ?_
        exact andThen_ends (ensureJjmcpRuntime_ends b h.install s) (firstPass_ends h b c)
      · rfl

end Call

section Server

variable {json : JsonLib} {c : ToolCall} (h : CallTimely c.answers)

def Replies (p : Dispatcher × Reply) : Prop := p.2.isSome = true

theorem replies_ite {p : Prop} [Decidable p] {x y : Dispatcher × Reply} (hx : p → Replies x) (hy : ¬ p → Replies y) :
    Replies (if p then x else y) := by
  split
  next hp => exact hx hp
  next hp => exact hy hp

theorem afterLog_isSome (json : JsonLib) (texts : List Text) {p : Dispatcher × Reply} (hp : p.2.isSome = true) :
    (afterLog json texts p).2.isSome = true := by
  unfold afterLog
  split
  · rfl
  · exact hp

include h

theorem evalIn_replies (call : EvalCall) (d : Dispatcher) : Replies (evalIn json c.answers call d) :=
  evalCode_ends h.eval call d.session

theorem eval_replies (d : Dispatcher) :
    Replies (Tools.eval json c.answers (.obj c.arguments) c.progressActive d) := by
  unfold Tools.eval
  split
  · rfl
  · split
    · rfl
    · split
      · rfl
      · unfold evalWith
        dsimp only
        split
        · rfl
        · split
          next hwaits =>
            have hvalidated := h.validated
            split at hwaits
            · rw [hwaits] at hvalidated
              cases hvalidated
            · cases hwaits
          · rfl
          · exact evalIn_replies h _ d

theorem activate_replies (d : Dispatcher) :
    Replies (activate json c.answers (.obj c.arguments) c.progressActive d) := by
  unfold activate
  split
  · rfl
  · exact evalIn_replies h _ d

theorem dispatch_replies (cwd : Path) (d : Dispatcher) : Replies (dispatch json cwd c d) := by
  unfold dispatch
  refine replies_ite (fun _ => ?_) fun _ => ?_
  · unfold listTmux
    split <;> rfl
  refine replies_ite (fun _ => ?_) fun _ => ?_
  · unfold Tools.bind
    split
    · rfl
    · dsimp only
      split
      · rfl
      · split <;> rfl
  refine replies_ite (fun _ => ?_) fun _ => ?_
  · unfold status
    dsimp only
    split
    · rfl
    · split <;> rfl
  refine replies_ite (fun _ => eval_replies h d) fun _ => ?_
  refine replies_ite (fun _ => ?_) fun _ => ?_
  · unfold capture
    split
    · rfl
    · split <;> rfl
  refine replies_ite (fun _ => ?_) fun _ => ?_
  · unfold captureTestResults
    split
    · rfl
    · dsimp only
      split
      · rfl
      · split
        · rfl
        · split
          · rfl
          · split <;> rfl
  refine replies_ite (fun _ => ?_) fun _ => ?_
  · unfold interrupt
    split
    · rfl
    · split <;> rfl
  refine replies_ite (fun _ => evalIn_replies h _ d) fun _ => ?_
  refine replies_ite (fun _ => activate_replies h d) fun _ => ?_
  refine replies_ite (fun _ => evalIn_replies h _ d) fun _ => ?_
  refine replies_ite (fun _ => evalIn_replies h _ d) fun _ => ?_
  refine replies_ite (fun _ => ?_) fun _ => rfl
  simp only [Replies, transcriptTool]
  split_ifs <;> first | rfl | exact afterLog_isSome json _ rfl

theorem call_replies (cwd : Path) (d : Dispatcher) : Replies (call json cwd c d) := by
  have hdispatch := @dispatch_replies json _ h cwd { d with session := { d.session with lastCode := [] } }
  unfold call
  split
  · exact afterLog_isSome json _ rfl
  next he => rwa [he] at hdispatch

end Server

section Session

variable {env : ServerEnv} {input : Text}

/-- A reply of the tool becomes a response in either case. -/
theorem response_replies {p : Dispatcher × Reply} (hp : Replies p) (world : Dispatcher → World)
    (ok : ToolResult → Dispatch) (thrown : Text → Dispatch) :
    (match p with
      | (d, none) => (world d, none)
      | (d, some (.ok r)) => (world d, some (ok r))
      | (d, some (.error what)) => (world d, some (thrown what))).2.isSome = true := by
  obtain ⟨d, _ | (what | r)⟩ := p
  · cases hp
  · rfl
  · rfl

theorem dispatchToolsCall_replies (htimely : ∀ n, CallTimely (env.answers n)) (request : Json) (w : World) :
    (dispatchToolsCall env request w).2.isSome = true := by
  have hcall (name : Text) (arguments : List (Text × Json)) (progressActive : Bool) :=
    @call_replies env.json { name, arguments, progressActive, answers := env.answers w.asked } (htimely w.asked) env.cwd
      w.dispatcher
  unfold dispatchToolsCall
  dsimp only
  split
  · split
    · split
      · exact response_replies (hcall _ _ _) _ _ _
      · exact response_replies (hcall _ _ _) _ _ _
      · rfl
    · rfl
  · rfl

theorem handleRequest_replies (htimely : ∀ n, CallTimely (env.answers n)) (request : Json) (w : World) :
    (handleRequest env request w).2.isSome = true := by
  have hdispatch : (dispatchMcpRequest env request w).2.isSome = true := by
    unfold dispatchMcpRequest
    dsimp only
    split
    · rfl
    · split
      · rfl
      · split
        · split
          · unfold dispatchMethod
            dsimp only
            have hcall := dispatchToolsCall_replies htimely request w
            split_ifs <;> first | exact hcall | rfl
          · rfl
        · rfl
  unfold handleRequest
  split
  next he =>
    rw [he] at hdispatch
    cases hdispatch
  · rfl

/-- Where the deadlines pass, the sockets time out and the runs of child processes
return, and no child reads the server's stdin, the server always comes to its end: the
threads take a bounded number of steps, and whatever has happened one of them can take
the next until the server has exited. -/
theorem server_comes_to_end (htimely : ∀ n, CallTimely (env.answers n)) {d : Dispatcher} {as : List StdioAction}
    {s : StdioState} (hown : Meets (ServeStdio.step env) OwnStdin (ServeStdio.start input d) as)
    (hrun : run (ServeStdio.step env) (ServeStdio.start input d) as = some s) :
    (serveActions as).countP isOwn ≤ 7 * (messages input).length + 6 + (serveActions as).countP isWake ∧
      as.countP isSentry ≤ (serveActions as).countP isRead + 1 ∧
      as.countP isPiece ≤ 6 * s.serve.output.length ∧
      (s.serve.reader = .exited ∨ ∃ a, isOwnStep a = true ∧ (ServeStdio.step env s a).isSome = true) := by
  have hserve : run (step env) (start input d) (serveActions as) = some s.serve := run_serve hown hrun
  refine ⟨serve_bounded hserve, sentries_bounded hrun, pieces_bounded hrun, ?_⟩
  by_cases hexited : s.serve.reader = .exited
  · exact .inl hexited
  · obtain ⟨⟨done, hi⟩, halert⟩ := run_alert hserve
    obtain ⟨a, ha, hsome⟩ := goes_on hi halert hexited fun job _ => handleRequest_replies htimely job.request s.serve.world
    obtain ⟨b, hb, hsome'⟩ := takes_step (run_held (start_held input d) hrun) hsome
    refine .inr ⟨b, ?_, hsome'⟩
    rcases hb with hpiece | ⟨-, rfl⟩ | rfl
    · cases b <;> first | rfl | cases hpiece
    · rfl
    · exact ha

def evalRequest : Json :=
  .obj [(lit "id", .int 3), (lit "jsonrpc", .str (lit "2.0")), (lit "method", .str (lit "tools/call")),
    (lit "params", .obj [(lit "arguments", .obj [(lit "code", .str (lit "1"))]), (lit "name", .str (lit "jjmcp_eval"))])]

def evalText : Text :=
  lit "\x7b\"id\":3,\"jsonrpc\":\"2.0\",\"method\":\"tools/call\",\"params\":" ++
    lit "\x7b\"arguments\":\x7b\"code\":\"1\"\x7d,\"name\":\"jjmcp_eval\"\x7d\x7d"

def expiring : List PollInput := [{ captured := .error (lit "no server running") }, { captured := .ok [], expired := true }]

def slowAnswers : EvalAnswers where
  paneInfo := .ok { paneId := lit "%3" }
  install := { generation := [], polls := expiring }
  pass := { polls := expiring }
  reinstall := { generation := [], polls := expiring }
  retry := { polls := expiring }

def slowEnv : ServerEnv where
  json := { parse := fun body => if body = evalText then .ok evalRequest else .error [], dump := fun _ => [] }
  cwd := ⟨true, []⟩
  toolTable := fun _ => .arr []
  answers := fun _ => { eval := slowAnswers, paneInfo := .ok { paneId := lit "%3" } }
  fileExists := fun _ _ => false
  fileText := fun _ _ => []

def boundDispatcher : Dispatcher where
  session := { server := { binding := some { target := lit "%3", paneId := lit "%3", projectRoot := [] },
                           configPath := ⟨true, []⟩ } }

/-- The worker is in the call and the client has closed the input. -/
def hangingUp : List StdioAction :=
  [.sentry, .serve .read, .serve .push, .serve .notify, .serve .check, .sentry, .serve .read, .serve .stop,
   .serve .notifyAll]

def hungUp : StdioState :=
  (run (ServeStdio.step slowEnv) (ServeStdio.start evalText boundDispatcher) hangingUp).get (by decide +kernel)

theorem server_comes_to_end_hung_up : hungUp.serve.reader = .exited ∨
    ∃ a, isOwnStep a = true ∧ (ServeStdio.step slowEnv hungUp a).isSome = true := by
  have hexpires : Expires expiring := ⟨_, List.mem_cons_of_mem _ List.mem_cons_self, rfl⟩
  have htimely : ∀ n, CallTimely (slowEnv.answers n) := fun n => by
    refine ⟨⟨hexpires, hexpires, hexpires, hexpires, ?_, ?_⟩, rfl⟩
    · rintro ⟨⟩
    · rintro ⟨⟩
  have hown : Meets (ServeStdio.step slowEnv) OwnStdin (ServeStdio.start evalText boundDispatcher) hangingUp := by
    decide +kernel
  have hrun : run (ServeStdio.step slowEnv) (ServeStdio.start evalText boundDispatcher) hangingUp = some hungUp :=
    (Option.some_get _).symm
  exact (server_comes_to_end htimely hown hrun).2.2.2

end Session

end JJMCP.ServeEnds
