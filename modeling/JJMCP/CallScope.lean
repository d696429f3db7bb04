import JJMCP.HelperConversation
import JJMCP.MarkerIds

namespace JJMCP.CallScope

open Text Config EvalCode Tools

/-- The code that a call asks for: an argument of it, or fixed. -/
def givenCode (c : ToolCall) : Option Text :=
  let args := Json.obj c.arguments
  if c.name = lit "jjmcp_eval" then (args.requireString "code").toOption
  else if c.name = lit "jjmcp_revise" then some makeReviseCode
  else if c.name = lit "jjmcp_activate" then (args.requireString "path").toOption.map makeActivateCode
  else if c.name = lit "jjmcp_test" then
    some (makeTestCode (args.optionalString "test_expr" []) (args.optionalString "file" [])
      (args.optionalString "test_item_pattern" []))
  else if c.name = lit "jjmcp_pkg_status" then some (lit "using Pkg\nPkg.status()")
  else none

/-- An event for this pane that carries no code but this: the request for it to the
pane's socket, the wrapped code, the runtime's source or a backspace. -/
def ForPane (json : JsonLib) (a : EvalAnswers) (b : Binding) (code : Text) : Event → Prop
  | .socket path request _ =>
      path = socketPath a b ∧ request = SocketClient.requestLine json code kMaxSocketFieldBytes
  | .paste target (.bootstrap m) buffer => target = boundTarget b ∧ buffer = lit "jjmcp_bootstrap_" ++ m.id
  | .paste target (.wrapper text) buffer =>
      target = boundTarget b ∧ ∃ m timeoutMs, text = wrapJuliaCode code m timeoutMs ∧ buffer = lit "jjmcp_" ++ m.id
  | .key target key => target = boundTarget b ∧ key = lit "BSpace"

/-- What a call may do to the bound pane: an evaluation what it has to, jjmcp_interrupt
one Ctrl-C, any other call nothing. -/
def InScope (json : JsonLib) (c : ToolCall) (b : Binding) (e : Event) : Prop :=
  (∃ code, givenCode c = some code ∧ ForPane json c.answers.eval b code e) ∨
    c.name = lit "jjmcp_interrupt" ∧ e = .key (boundTarget b) (lit "C-c")

/-- The call bound this: a pane that tmux reported alive for the target it names. -/
def BoundBy (c : ToolCall) (b : Binding) : Prop :=
  c.name = lit "jjmcp_bind" ∧ (Json.obj c.arguments).requireString "target" = .ok b.target ∧
    ∃ info, c.answers.paneInfo = .ok info ∧ PaneInfo.alive info = true ∧ b.paneId = info.paneId

/-- The binding stays, and what happened more meets the condition. -/
def Stays (P : Event → Prop) (s s' : Session) : Prop :=
  s'.server.binding = s.server.binding ∧ ∃ es, s'.events = s.events ++ es ∧ ∀ e ∈ es, P e

variable {P Q : Event → Prop} {s s' t : Session}

theorem Stays.same (hbinding : s'.server.binding = s.server.binding) (hevents : s'.events = s.events) : Stays P s s' :=
  ⟨hbinding, [], by simp [hevents], by simp⟩

theorem Stays.trans (h : Stays P s s') (h' : Stays P s' t) : Stays P s t := by
  obtain ⟨hb, es, hes, hP⟩ := h
  obtain ⟨hb', fs, hfs, hP'⟩ := h'
  refine ⟨hb'.trans hb, es ++ fs, by rw [hfs, hes, List.append_assoc], fun e he => ?_⟩
  rcases List.mem_append.mp he with he | he
  · exact hP e he
  · exact hP' e he

theorem Stays.mono (h : Stays P s s') (hPQ : ∀ e, P e → Q e) : Stays Q s s' :=
  ⟨h.1, h.2.imp fun _ hes => ⟨hes.1, fun e he => hPQ e (hes.2 e he)⟩⟩

theorem Stays.record {e : Event} (he : P e) : Stays P s (record s e) :=
  ⟨rfl, [e], rfl, by simpa using he⟩

theorem Stays.andThen {p : Session × Flow} {k : Session → Session × Reply} (hp : Stays P s p.1)
    (hk : ∀ u, Stays P u (k u).1) : Stays P s (andThen p k).1 := by
  rcases p with ⟨u, _ | r⟩
  · exact hp.trans (hk u)
  · exact hp

theorem sendText_stays {a : SendTextAnswers} {target : Text} {pasted : Pasted} {buffer : Text} {r : Except Text Unit}
    (h : sendText a target pasted buffer s = (s', r)) (hP : P (.paste target pasted buffer)) : Stays P s s' := by
  rcases sendText_session h with rfl | rfl
  · exact .same rfl rfl
  · exact .record hP

section Eval

variable {json : JsonLib} {a : EvalAnswers} {b : Binding} {c : EvalCall}

theorem ensureJjmcpRuntime_stays (install : InstallAnswers) (s : Session) :
    Stays (ForPane json a b c.code) s (ensureJjmcpRuntime a.pid install b s).1 := by
  rcases ensureJjmcpRuntime_session a.pid install b s with ⟨-, heq⟩ | ⟨-, u, r, hsend, heq⟩
  · rw [heq]
    exact .same rfl rfl
  · obtain ⟨hbinding, hevents⟩ := sendText_stays (P := ForPane json a b c.code) hsend ⟨rfl, rfl⟩
    rcases heq with heq | heq
    · rw [heq]
      exact ⟨hbinding, hevents⟩
    · rw [heq]
      exact ⟨hbinding, hevents⟩

theorem runMarkerEval_stays (pass : PassAnswers) (detect : Bool) (s : Session) :
    Stays (ForPane json a b c.code) s (runMarkerEval a.pid pass b c detect s).1 := by
  obtain ⟨r, hsend⟩ := runMarkerEval_session a.pid pass b c detect s
  have hpaste : ForPane json a b c.code (.paste (boundTarget b)
      (.wrapper (wrapJuliaCode c.code (Marker.makeMarker (nextMarkerId a.pid pass s).2) c.timeoutMs))
      (lit "jjmcp_" ++ (nextMarkerId a.pid pass s).2)) := ⟨rfl, _, _, rfl, rfl⟩
  obtain ⟨hbinding, hevents⟩ := sendText_stays hsend hpaste
  exact ⟨hbinding, hevents⟩

theorem afterPass_stays {logs : List Text} {p : Session × PassResult} {missing : Session → Session × Reply}
    (hp : Stays P s p.1) (hmissing : ∀ u, Stays P u (missing u).1) : Stays P s (afterPass json logs p missing).1 := by
  rcases afterPass_cases json logs p missing with ⟨r, h⟩ | ⟨_, h⟩
  · rwa [h]
  · rw [h]
    exact hp.trans (hmissing p.1)

theorem retryPass_stays (s : Session) : Stays (ForPane json a b c.code) s (retryPass json a b c s).1 :=
  afterPass_stays (runMarkerEval_stays _ _ _) fun _ => .same rfl rfl

theorem reinstall_stays (s : Session) : Stays (ForPane json a b c.code) s (reinstall json a b c s).1 := by
  rw [reinstall]
  refine Stays.andThen (.same rfl rfl) fun u => ?_
  have hcache : Stays (ForPane json a b c.code) u { u with cache := RuntimeCache.invalidate u.cache (boundTarget b) } :=
    .same rfl rfl
  exact hcache.trans (Stays.andThen (ensureJjmcpRuntime_stays a.reinstall _) retryPass_stays)

theorem firstPass_stays (s : Session) : Stays (ForPane json a b c.code) s (firstPass json a b c s).1 :=
  afterPass_stays (runMarkerEval_stays _ _ _) reinstall_stays

theorem routeSocket_stays (s : Session) : Stays (ForPane json a b c.code) s (routeSocket json a b c s).1 := by
  rw [routeSocket]
  split
  · exact .same rfl rfl
  · split
    · rw [recordRequest]
      dsimp only
      split
      · exact .same rfl rfl
      · exact .record ⟨rfl, HelperConversation.eval_request json a.socket _ _ _⟩
    · split
      · exact .same rfl rfl
      · exact .same rfl rfl

theorem checkPaneMode_stays (force : Bool) (s : Session) :
    Stays (ForPane json a b c.code) s (checkPaneMode a b force s).1 := by
  unfold checkPaneMode
  split
  · exact .same rfl rfl
  · split
    · exact .same rfl rfl
    · split
      · have hkey : Stays (ForPane json a b c.code) s (record s (.key (boundTarget b) (lit "BSpace"))) :=
          .record ⟨rfl, rfl⟩
        dsimp only
        split
        · exact hkey
        · split
          · exact hkey
          · exact hkey
      · exact .same rfl rfl

theorem evalInPane_stays (s : Session) : Stays (ForPane json a b c.code) s (evalInPane json a b c s).1 := by
  refine Stays.andThen (routeSocket_stays s) fun u => Stays.andThen (checkPaneMode_stays c.force u) fun v => ?_
  refine Stays.andThen ?_ fun w => Stays.andThen (ensureJjmcpRuntime_stays a.install w) firstPass_stays
  rw [acquireLock]
  split
  · exact .same rfl rfl
  · exact .same rfl rfl

theorem evalCode_stays (json : JsonLib) (a : EvalAnswers) (c : EvalCall) (s : Session) :
    Stays (fun e => ∃ b, s.server.binding = some b ∧ ForPane json a b c.code e) s (evalCode json a c s).1 := by
  have hcode : Stays (fun e => ∃ b, s.server.binding = some b ∧ ForPane json a b c.code e) s { s with lastCode := c.code } :=
    .same rfl rfl
  rw [evalCode]
  dsimp only
  split
  · exact hcode
  next b hb =>
    split
    · exact hcode
    · split
      · exact hcode.trans ((evalInPane_stays _).mono fun e he => ⟨b, hb, he⟩)
      · exact hcode

end Eval

section Call

variable {json : JsonLib} {c : ToolCall} {d : Dispatcher}

/-- What a call does to the session: events in its scope, and a new binding only by a bind. -/
structure Keeps (json : JsonLib) (c : ToolCall) (s s' : Session) : Prop where
  events : ∃ es, s'.events = s.events ++ es ∧ ∀ e ∈ es, ∃ b, s.server.binding = some b ∧ InScope json c b e
  binding : s'.server.binding = s.server.binding ∨ ∃ b, s'.server.binding = some b ∧ BoundBy c b

theorem Stays.keeps (h : Stays (fun e => ∃ b, s.server.binding = some b ∧ InScope json c b e) s s') :
    Keeps json c s s' := ⟨h.2, .inl h.1⟩

theorem Keeps.same (s : Session) : Keeps json c s s := (Stays.same rfl rfl).keeps

theorem evalIn_keeps {e : EvalCall} (hcode : givenCode c = some e.code) (d : Dispatcher) :
    Keeps json c d.session (evalIn json c.answers e d).1.session := by
  have h := evalCode_stays json c.answers.eval e d.session
  exact (h.mono fun ev ⟨b, hb, hev⟩ => ⟨b, hb, .inl ⟨e.code, hcode, hev⟩⟩).keeps

theorem interrupt_keeps (hname : c.name = lit "jjmcp_interrupt") (d : Dispatcher) :
    Keeps json c d.session (interrupt c.answers d).1.session := by
  unfold interrupt
  split
  · exact .same _
  next b hb =>
    have hkey : Keeps json c d.session (record d.session (.key (boundTarget b) (lit "C-c"))) :=
      (Stays.record (P := fun e => ∃ b, d.session.server.binding = some b ∧ InScope json c b e)
        ⟨b, hb, .inr ⟨hname, rfl⟩⟩).keeps
    dsimp only
    split
    · exact hkey
    · exact hkey

theorem eval_keeps (hname : c.name = lit "jjmcp_eval") (d : Dispatcher) :
    Keeps json c d.session (eval json c.answers (.obj c.arguments) c.progressActive d).1.session := by
  unfold eval
  split
  · exact .same _
  next code hcode =>
    have hgiven : givenCode c = some code := by
      rw [givenCode, if_pos hname, hcode]
      rfl
    split
    · exact .same _
    · split
      · exact .same _
      · unfold evalWith
        dsimp only
        split
        · exact .same _
        · split
          · exact .same _
          · exact .same _
          · exact evalIn_keeps hgiven d

theorem bind_keeps (hname : c.name = lit "jjmcp_bind") (cwd : Path) (d : Dispatcher) :
    Keeps json c d.session (Tools.bind cwd c.answers (.obj c.arguments) d).1.session := by
  unfold Tools.bind
  split
  · exact .same _
  next target htarget =>
    dsimp only
    split
    · exact .same _
    next info hinfo =>
      split
      next halive => exact ⟨⟨[], by simp, by simp⟩, .inr ⟨_, rfl, hname, htarget, info, hinfo, halive, rfl⟩⟩
      · exact .same _

theorem activate_keeps (heval : c.name ≠ lit "jjmcp_eval") (hrevise : c.name ≠ lit "jjmcp_revise")
    (hname : c.name = lit "jjmcp_activate") (d : Dispatcher) :
    Keeps json c d.session (activate json c.answers (.obj c.arguments) c.progressActive d).1.session := by
  unfold activate
  split
  · exact .same _
  next path hpath =>
    refine evalIn_keeps ?_ d
    rw [givenCode, if_neg heval, if_neg hrevise, if_pos hname, hpath]
    rfl

theorem ite_keeps {x : Prop} [Decidable x] {p q : Dispatcher × Reply} (hp : x → Keeps json c s p.1.session)
    (hq : ¬ x → Keeps json c s q.1.session) : Keeps json c s (if x then p else q).1.session := by
  split
  next h => exact hp h
  next h => exact hq h

theorem dispatch_keeps (cwd : Path) (d : Dispatcher) : Keeps json c d.session (dispatch json cwd c d).1.session := by
  have hsame : Keeps json c d.session d.session := .same _
  refine ite_keeps (fun _ => hsame) fun _ => ?_
  refine ite_keeps (fun h => bind_keeps h cwd d) fun _ => ?_
  refine ite_keeps (fun _ => hsame) fun _ => ?_
  refine ite_keeps (fun h => eval_keeps h d) fun heval => ?_
  refine ite_keeps (fun _ => hsame) fun _ => ?_
  refine ite_keeps (fun _ => hsame) fun _ => ?_
  refine ite_keeps (fun h => interrupt_keeps h d) fun _ => ?_
  refine ite_keeps (fun h => evalIn_keeps ?_ d) fun hrevise => ?_
  · rw [givenCode, if_neg heval, if_pos h]
  refine ite_keeps (fun h => activate_keeps heval hrevise h d) fun hactivate => ?_
  refine ite_keeps (fun h => evalIn_keeps ?_ d) fun htest => ?_
  · rw [givenCode, if_neg heval, if_neg hrevise, if_neg hactivate, if_pos h]
  refine ite_keeps (fun h => evalIn_keeps ?_ d) fun _ => ?_
  · rw [givenCode, if_neg heval, if_neg hrevise, if_neg hactivate, if_neg htest, if_pos h]
  refine ite_keeps (fun _ => ?_) fun _ => hsame
  rw [MarkerIds.transcriptTool_session]
  exact hsame

theorem call_keeps (cwd : Path) (d : Dispatcher) : Keeps json c d.session (call json cwd c d).1.session := by
  have hcleared : Keeps json c d.session
      (dispatch json cwd c { d with session := { d.session with lastCode := [] } }).1.session := by
    have h := @dispatch_keeps json c cwd { d with session := { d.session with lastCode := [] } }
    exact ⟨h.events, h.binding⟩
  unfold call
  split
  next he =>
    rw [he] at hcleared
    rw [afterLog_fst, MarkerIds.recordTranscript_session]
    exact hcleared
  next he => rwa [he] at hcleared

end Call

def after (json : JsonLib) (cwd : Path) (d : Dispatcher) (cs : List ToolCall) : Dispatcher :=
  cs.foldl (fun d c => (call json cwd c d).1) d

section Run

variable {json : JsonLib} {cwd : Path}

theorem after_concat (d : Dispatcher) (cs : List ToolCall) (c : ToolCall) :
    after json cwd d (cs ++ [c]) = (call json cwd c (after json cwd d cs)).1 := by
  simp [after]

theorem event_from {d : Dispatcher} {cs : List ToolCall} {e : Event} (he : e ∈ (after json cwd d cs).session.events) :
    e ∈ d.session.events ∨ ∃ pre c post, cs = pre ++ c :: post ∧
      ∃ b, (after json cwd d pre).session.server.binding = some b ∧ InScope json c b e := by
  induction cs using List.reverseRecOn with
  | nil => exact .inl he
  | append_singleton cs c ih =>
      rw [after_concat] at he
      have hkeeps : Keeps json c (after json cwd d cs).session (call json cwd c (after json cwd d cs)).1.session :=
        call_keeps cwd _
      obtain ⟨es, hes, hscope⟩ := hkeeps.events
      rw [hes] at he
      rcases List.mem_append.mp he with he | he
      · rcases ih he with hfirst | ⟨pre, k, post, rfl, hk⟩
        · exact .inl hfirst
        · exact .inr ⟨pre, k, post ++ [c], by simp, hk⟩
      · exact .inr ⟨cs, c, [], rfl, hscope e he⟩

end Run

def julia : PaneInfo := { paneId := lit "%3" }

def askingAnswers : CallAnswers := { eval := { paneInfo := .ok julia }, paneInfo := .ok julia }

def asking : List ToolCall :=
  [{ name := lit "jjmcp_bind", arguments := [(lit "target", .str (lit "work:1"))], answers := askingAnswers },
   { name := lit "jjmcp_eval", arguments := [(lit "code", .str (lit "1")), (lit "transport", .str (lit "tmux"))],
     answers := askingAnswers },
   { name := lit "jjmcp_interrupt", arguments := [], answers := askingAnswers }]

def idleJson : JsonLib := { parse := fun _ => .error [], dump := fun _ => [] }

def unboundServer : Dispatcher := { session := { server := { configPath := ⟨true, []⟩ } } }

end JJMCP.CallScope
