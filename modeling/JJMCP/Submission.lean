import JJMCP.RuntimeMissing
import JJMCP.SegmentText
import JJMCP.Tokens

namespace JJMCP.Submission

open Lib.Occurrence Text Marker Extract Poll Config EvalCode

/-- The Julia session gets the user's code: as a whole request, or as a wrapper. -/
def handsOver : Event → Bool
  | .socket _ request sent => decide (SocketClient.Delivered request sent)
  | .paste _ (.wrapper _) _ => true
  | .paste _ (.bootstrap _) _ => false
  | .key _ _ => false

def submitted (json : JsonLib) (a : EvalAnswers) (c : EvalCall) (s : Session) : List Event :=
  ((evalCode json a c s).1.events.drop s.events.length).filter handsOver

def Adds (s s' : Session) (es : List Event) : Prop :=
  ∃ new, s'.events = s.events ++ new ∧ new.filter handsOver = es

theorem Adds.same {s s' : Session} (h : s'.events = s.events) : Adds s s' [] := ⟨[], by simp [h], rfl⟩

theorem Adds.trans {s s' s'' : Session} {es fs : List Event} (h : Adds s s' es) (h' : Adds s' s'' fs) :
    Adds s s'' (es ++ fs) := by
  obtain ⟨new, he, hf⟩ := h
  obtain ⟨new', he', hf'⟩ := h'
  exact ⟨new ++ new', by rw [he', he, List.append_assoc], by rw [List.filter_append, hf, hf']⟩

theorem Adds.record (s : Session) (e : Event) : Adds s (record s e) (if handsOver e then [e] else []) := by
  refine ⟨[e], rfl, ?_⟩
  cases h : handsOver e <;> simp [h]

def wrapperPaste (b : Binding) (c : EvalCall) (m : Marker) : Event :=
  .paste (boundTarget b) (.wrapper (wrapJuliaCode c.code m c.timeoutMs)) (lit "jjmcp_" ++ m.id)

def Wrapped (b : Binding) (c : EvalCall) (es : List Event) : Prop := ∀ e ∈ es, ∃ m, e = wrapperPaste b c m

/-- The capture has the id of the wrapper, no BEGIN of it, and names the REPL's rejection
after the id. Where the code does not spell UndefVarError itself, that is in what the REPL
printed after the echo of the wrapper, whatever stands above. -/
structure ShowsRejection (c : EvalCall) (m : Marker) (cap : Text) : Prop where
  notBegun : ∀ payload, ¬ BeginLine m cap payload
  afterId : m.id <:+: cap ∧ NamesRejection (fromLast m.id cap)
  afterEcho : ¬ undefVarError <:+: c.code → ∀ scrollback printed,
    cap = scrollback ++ wrapJuliaCode c.code m c.timeoutMs ++ printed → NamesRejection printed

/-- The first wrapper was pasted, and a capture of its pass shows that the REPL
does not know the macro. -/
def Rejected (a : EvalAnswers) (b : Binding) (c : EvalCall) (es : List Event) : Prop :=
  ∃ m rest i cap, es = wrapperPaste b c m :: rest ∧ i ∈ a.pass.polls ∧ i.captured = .ok cap ∧ ShowsRejection c m cap

/-- The first wrapper was pasted, with an id of the generator, and its pass ended as missing. -/
def EndedMissing (a : EvalAnswers) (b : Binding) (c : EvalCall) (es : List Event) : Prop :=
  ∃ m rest, es = wrapperPaste b c m :: rest ∧ (∃ micros pid sequence, m = makeMarker (makeMarkerId micros pid sequence)) ∧
    poll ⟨m, true, c.progressActive⟩ {} a.pass.polls = .missing

theorem poll_missing {pass : Pass} {s : PollState} {is : List PollInput} (h : poll pass s is = .missing) :
    ∃ pre i post t, is = pre ++ i :: post ∧ poll pass s pre = .again t ∧ pollStep pass t i = .missing := by
  induction is generalizing s with
  | nil => cases h
  | cons i is ih =>
      rw [poll] at h
      cases hstep : pollStep pass s i with
      | missing => exact ⟨[], i, is, s, rfl, rfl, hstep⟩
      | again t =>
          rw [hstep] at h
          obtain ⟨pre, j, post, u, rfl, hpre, hj⟩ := ih h
          refine ⟨i :: pre, j, post, u, rfl, ?_, hj⟩
          rw [poll, hstep]
          exact hpre
      | done | timedOut | failed =>
          rw [hstep] at h
          cases h

theorem beginLine_found {m : Marker} {cap payload : Text} (h : BeginLine m cap payload) :
    (extractBetweenMarkers cap m).foundBegin = true := by
  rw [extract_eq, h.payload]
  exact Tokens.extractLoop_foundBegin m _ _ _ _

theorem extractCapture_notBegun {m : Marker} {cap accumulator : Text}
    (h : (extractCapture m cap accumulator).foundBegin = false) : ∀ payload, ¬ BeginLine m cap payload := by
  intro payload hbegin
  rw [extractCapture, if_pos (beginLine_found hbegin), beginLine_found hbegin] at h
  cases h

theorem pollStep_missing {pass : Pass} {s : PollState} {i : PollInput} (h : pollStep pass s i = .missing) :
    ∃ cap, i.captured = .ok cap ∧ (∀ payload, ¬ BeginLine pass.marker cap payload) ∧
      jjmcpRuntimeMissing cap pass.marker.id = true := by
  cases hcap : i.captured with
  | error e =>
      simp only [pollStep, hcap] at h
      split at h
      · cases h
      · split at h <;> cases h
  | ok cap =>
      simp only [pollStep, hcap] at h
      split at h
      next hmissing => exact ⟨cap, rfl, extractCapture_notBegun hmissing.2.1, hmissing.2.2⟩
      next =>
        split at h
        · cases h
        · split at h <;> cases h

/-- The scan of the capture, told by what the REPL printed. -/
theorem showsRejection_of_missing {c : EvalCall} {micros pid sequence : Nat} {cap : Text}
    (hbegin : ∀ payload, ¬ BeginLine (makeMarker (makeMarkerId micros pid sequence)) cap payload)
    (h : jjmcpRuntimeMissing cap (makeMarkerId micros pid sequence) = true) :
    ShowsRejection c (makeMarker (makeMarkerId micros pid sequence)) cap := by
  have hid := makeMarkerId_chars micros pid sequence
  have hin : makeMarkerId micros pid sequence <:+: cap := by
    by_contra hno
    rw [jjmcpRuntimeMissing, rfind_eq_none.mpr hno] at h
    cases h
  have hnames := (jjmcpRuntimeMissing_fromLast hin).mp h
  refine ⟨hbegin, ⟨hin, hnames⟩, fun hcode scrollback printed hcap => ?_⟩
  obtain ⟨body, hwrap, hbody⟩ := wrapJuliaCode_echo c.code micros pid sequence c.timeoutMs
  have hsource : ¬ undefVarError <:+: evalSource c.code := by
    rw [evalSource]
    split
    · decide
    · exact hcode
  have hquiet : ¬ undefVarError <:+: body := by
    rcases hbody with rfl | hbody
    · exact hsource
    · exact fun hin => hsource (hbody ▸ List.infix_append_of_infix_left hin)
  rw [hcap, hwrap] at hnames
  exact namesRejection_message hid hquiet hnames

theorem EndedMissing.rejected {a : EvalAnswers} {b : Binding} {c : EvalCall} {es : List Event}
    (h : EndedMissing a b c es) : Rejected a b c es := by
  obtain ⟨m, rest, hes, ⟨micros, pid, sequence, rfl⟩, hmissing⟩ := h
  obtain ⟨pre, i, post, t, hpolls, -, hstep⟩ := poll_missing hmissing
  obtain ⟨cap, hcap, hbegin, hscan⟩ := pollStep_missing hstep
  exact ⟨_, rest, i, cap, hes, by simp [hpolls], hcap, showsRejection_of_missing hbegin hscan⟩

theorem sendText_adds {a : SendTextAnswers} {target : Text} {pasted : Pasted} {buffer : Text} {s s' : Session}
    {r : Except Text Unit} (h : sendText a target pasted buffer s = (s', r)) :
    Adds s s' [] ∨ Adds s s' ([.paste target pasted buffer].filter handsOver) := by
  rcases sendText_session h with rfl | rfl
  · exact .inl (Adds.same rfl)
  · exact .inr ⟨[.paste target pasted buffer], rfl, rfl⟩

theorem ensureJjmcpRuntime_adds (pid : Nat) (a : InstallAnswers) (b : Binding) (s : Session) :
    Adds s (ensureJjmcpRuntime pid a b s).1 [] := by
  rcases ensureJjmcpRuntime_session pid a b s with ⟨_, h⟩ | ⟨_, s', r, hsend, h⟩
  · rw [h]
    exact Adds.same rfl
  · have hsent := sendText_adds hsend
    have hpaste : Adds s s' [] := hsent.elim id id
    rcases h with h | h
    · rw [h]
      exact hpaste
    · rw [h]
      exact hpaste

theorem sendText_ok_adds {a : SendTextAnswers} {target : Text} {pasted : Pasted} {buffer : Text} {s s' : Session}
    (h : sendText a target pasted buffer s = (s', .ok ())) :
    Adds s s' ([.paste target pasted buffer].filter handsOver) := by
  cases hl : a.load with
  | error e => simp [sendText, hl] at h
  | ok _ =>
      simp only [sendText, hl, Prod.mk.injEq] at h
      exact ⟨[.paste target pasted buffer], by rw [← h.1]; rfl, rfl⟩

/-- One pass hands over one wrapper at most, and only a capture that shows the
rejection of that wrapper ends it as missing. -/
theorem runMarkerEval_adds (pid : Nat) (a : PassAnswers) (b : Binding) (c : EvalCall) (detect : Bool) (s : Session) :
    ∃ m es, Adds s (runMarkerEval pid a b c detect s).1 es ∧ (es = [] ∨ es = [wrapperPaste b c m]) ∧
      (∃ micros sequence, m = makeMarker (makeMarkerId micros pid sequence)) ∧
      ((runMarkerEval pid a b c detect s).2 = .missing →
        es = [wrapperPaste b c m] ∧ poll ⟨m, detect, c.progressActive⟩ {} a.polls = .missing) := by
  refine ⟨makeMarker (nextMarkerId pid a s).2, ?_⟩
  have hform : ∃ micros sequence, makeMarker (nextMarkerId pid a s).2 = makeMarker (makeMarkerId micros pid sequence) :=
    ⟨_, _, rfl⟩
  unfold runMarkerEval
  dsimp only
  split
  next s' _ h =>
    rcases sendText_adds h with hp | hp
    · exact ⟨[], hp, .inl rfl, hform, by simp⟩
    · exact ⟨_, hp, .inr rfl, hform, by simp⟩
  next s' _ h =>
    have hp := sendText_ok_adds h
    split
    · exact ⟨_, hp, .inr rfl, hform, by simp⟩
    next hm => exact ⟨_, hp, .inr rfl, hform, fun _ => ⟨rfl, hm⟩⟩
    · exact ⟨_, hp, .inr rfl, hform, by simp⟩
    · exact ⟨_, hp, .inr rfl, hform, by simp⟩
    · exact ⟨_, hp, .inr rfl, hform, by simp⟩

theorem Wrapped.nil (b : Binding) (c : EvalCall) : Wrapped b c [] := by
  intro e he
  cases he

theorem Wrapped.of_one {b : Binding} {c : EvalCall} {m : Marker} {es : List Event}
    (h : es = [] ∨ es = [wrapperPaste b c m]) : es.length ≤ 1 ∧ Wrapped b c es := by
  rcases h with rfl | rfl
  · exact ⟨by simp, Wrapped.nil b c⟩
  · exact ⟨by simp, fun e he => ⟨m, List.mem_singleton.mp he⟩⟩

theorem Wrapped.append {b : Binding} {c : EvalCall} {es fs : List Event} (h : Wrapped b c es) (h' : Wrapped b c fs) :
    Wrapped b c (es ++ fs) := by
  intro e he
  rcases List.mem_append.mp he with he | he
  · exact h e he
  · exact h' e he

theorem retryPass_adds (json : JsonLib) (a : EvalAnswers) (b : Binding) (c : EvalCall) (s : Session) :
    ∃ es, Adds s (retryPass json a b c s).1 es ∧ es.length ≤ 1 ∧ Wrapped b c es := by
  obtain ⟨m, es, hadds, hone, -, hmissing⟩ := runMarkerEval_adds a.pid a.retry b c false s
  refine ⟨es, ?_, Wrapped.of_one hone⟩
  unfold retryPass
  rcases afterPass_cases json _ (runMarkerEval a.pid a.retry b c false s) _ with ⟨r, h⟩ | ⟨hmiss, -⟩
  · rwa [h]
  · exact absurd (hmissing hmiss).2 (poll_not_missing rfl _ _)

theorem andThen_adds {p : Session × Flow} {k : Session → Session × Reply} {s : Session}
    {es : List Event} (hp : Adds s p.1 es) :
    (∃ r, p.2 = .stop r ∧ Adds s (andThen p k).1 es) ∨
      (p.2 = .next ∧ ∀ fs, Adds p.1 (k p.1).1 fs → Adds s (andThen p k).1 (es ++ fs)) := by
  rcases p with ⟨s', _ | r⟩
  · exact .inr ⟨rfl, fun fs hk => hp.trans hk⟩
  · exact .inl ⟨r, rfl, hp⟩

theorem reinstall_adds (json : JsonLib) (a : EvalAnswers) (b : Binding) (c : EvalCall) (s : Session) :
    ∃ es, Adds s (reinstall json a b c s).1 es ∧ es.length ≤ 1 ∧ Wrapped b c es := by
  have hsame : Adds s s [] := Adds.same rfl
  have hinstall := ensureJjmcpRuntime_adds a.pid a.reinstall b
    { s with cache := RuntimeCache.invalidate s.cache (boundTarget b) }
  unfold reinstall
  rcases andThen_adds (p := (s, logged json [boundTarget b] .next)) hsame with ⟨_, _, h⟩ | ⟨_, h⟩
  · exact ⟨[], h, by simp, Wrapped.nil b c⟩
  rcases andThen_adds (k := retryPass json a b c) hinstall with ⟨_, _, hr⟩ | ⟨_, hr⟩
  · exact ⟨[], h _ hr, by simp, Wrapped.nil b c⟩
  · obtain ⟨es, hes, hlen, hw⟩ := retryPass_adds json a b c _
    exact ⟨es, h _ (hr es hes), hlen, hw⟩

theorem firstPass_adds (json : JsonLib) (a : EvalAnswers) (b : Binding) (c : EvalCall) (s : Session) :
    ∃ es, Adds s (firstPass json a b c s).1 es ∧ es.length ≤ 2 ∧ Wrapped b c es ∧
      (1 < es.length → EndedMissing a b c es) := by
  obtain ⟨m, es, hadds, hone, ⟨micros, sequence, hm⟩, hmissing⟩ := runMarkerEval_adds a.pid a.pass b c true s
  obtain ⟨hlen, hw⟩ := Wrapped.of_one hone
  unfold firstPass
  rcases afterPass_cases json _ (runMarkerEval a.pid a.pass b c true s) (reinstall json a b c) with ⟨r, h⟩ | ⟨hmiss, h⟩
  · rw [h]
    exact ⟨es, hadds, by omega, hw, by omega⟩
  · obtain ⟨rfl, hended⟩ := hmissing hmiss
    obtain ⟨fs, hfs, hlen', hw'⟩ := reinstall_adds json a b c (runMarkerEval a.pid a.pass b c true s).1
    rw [h]
    exact ⟨_, hadds.trans hfs, by rw [List.length_append]; omega, hw.append hw',
      fun _ => ⟨m, fs, rfl, ⟨micros, a.pid, sequence, hm⟩, hended⟩⟩

theorem markerPath_adds (json : JsonLib) (a : EvalAnswers) (b : Binding) (c : EvalCall) (s : Session) :
    ∃ es, Adds s (markerPath json a b c s).1 es ∧ es.length ≤ 2 ∧ Wrapped b c es ∧
      (1 < es.length → EndedMissing a b c es) := by
  rcases andThen_adds (k := firstPass json a b c) (ensureJjmcpRuntime_adds a.pid a.install b s) with ⟨_, _, h⟩ | ⟨_, h⟩
  · exact ⟨[], h, by simp, Wrapped.nil b c, by simp⟩
  · obtain ⟨es, hes, hrest⟩ := firstPass_adds json a b c (ensureJjmcpRuntime a.pid a.install b s).1
    exact ⟨es, h es hes, hrest⟩

theorem recordRequest_adds (path : Text) (talk : Conversation) (s : Session) :
    ∃ es, Adds s (recordRequest path talk s) es ∧ (es ≠ [] → es = [.socket path talk.request talk.sent]) := by
  unfold recordRequest
  split
  · exact ⟨[], Adds.same rfl, by simp⟩
  · refine ⟨_, Adds.record _ _, ?_⟩
    split <;> simp

theorem afterSocket_next {c : EvalCall} {result : Option (Except Text SocketEvalResponse)}
    (h : afterSocket c result = .next) : c.transport ≠ lit "socket" ∧ ∃ e, result = some (.error e) := by
  rcases result with _ | (e | r)
  · cases h
  · by_cases hs : c.transport = lit "socket"
    · simp [afterSocket, hs] at h
    · exact ⟨hs, e, rfl⟩
  · cases h

/-- The socket is not used, or its conversation failed. -/
def NoResponse (json : JsonLib) (a : EvalAnswers) (b : Binding) (c : EvalCall) : Prop :=
  c.transport = lit "tmux" ∨ a.socketExists = false ∨ ∃ e, (conversation json a b c).result = some (.error e)

def requestEvent (json : JsonLib) (a : EvalAnswers) (b : Binding) (c : EvalCall) : Event :=
  .socket (socketPath a b) (conversation json a b c).request (conversation json a b c).sent

theorem routeSocket_adds (json : JsonLib) (a : EvalAnswers) (b : Binding) (c : EvalCall) (s : Session) :
    ∃ es, Adds s (routeSocket json a b c s).1 es ∧
      (es ≠ [] → (c.transport ≠ lit "tmux" ∧ a.socketExists = true) ∧ es = [requestEvent json a b c]) ∧
      ((routeSocket json a b c s).2 = .next → c.transport ≠ lit "socket" ∧ NoResponse json a b c) := by
  unfold routeSocket
  split
  next htmux => exact ⟨[], Adds.same rfl, by simp, fun _ => ⟨by rw [htmux]; decide, .inl htmux⟩⟩
  next htmux =>
    split
    next hexists =>
      obtain ⟨es, hadds, hes⟩ := recordRequest_adds (socketPath a b) (conversation json a b c) s
      refine ⟨es, hadds, fun h => ⟨⟨htmux, hexists⟩, hes h⟩, fun h => ?_⟩
      obtain ⟨hsocket, he⟩ := afterSocket_next (logged_next h).1
      exact ⟨hsocket, .inr (.inr he)⟩
    next hexists =>
      split
      · exact ⟨[], Adds.same rfl, by simp, by simp⟩
      next hsocket =>
        exact ⟨[], Adds.same rfl, by simp, fun _ => ⟨hsocket, .inr (.inl (by simpa using hexists))⟩⟩

theorem checkPaneMode_adds (a : EvalAnswers) (b : Binding) (force : Bool) (s : Session) :
    Adds s (checkPaneMode a b force s).1 [] := by
  have hkey : Adds s (record s (.key (boundTarget b) (lit "BSpace"))) [] := Adds.record _ _
  unfold checkPaneMode
  split
  · exact Adds.same rfl
  · split
    · exact Adds.same rfl
    · split
      · dsimp only
        split
        · exact hkey
        · split
          · exact hkey
          · exact hkey
      · exact Adds.same rfl

theorem acquireLock_adds (a : EvalAnswers) (s : Session) : Adds s (acquireLock a s).1 [] := by
  unfold acquireLock
  split
  · exact Adds.same rfl
  · exact Adds.same rfl

/-- What one call hands over: a request first, then wrappers. Wrappers follow
only where the socket gave no response, and a second one only where the REPL
rejected the first. -/
structure InOrder (json : JsonLib) (a : EvalAnswers) (b : Binding) (c : EvalCall) (viaSocket viaPane : List Event) :
    Prop where
  request : viaSocket ≠ [] →
    (c.transport ≠ lit "tmux" ∧ a.socketExists = true) ∧ viaSocket = [requestEvent json a b c]
  pane : viaPane ≠ [] → c.transport ≠ lit "socket" ∧ NoResponse json a b c
  wrapped : Wrapped b c viaPane
  two : viaPane.length ≤ 2
  rejected : 1 < viaPane.length → Rejected a b c viaPane

/-- Transport auto after a failure of the socket that had the whole request. -/
def FellBack (json : JsonLib) (a : EvalAnswers) (b : Binding) (c : EvalCall) : Prop :=
  c.transport ≠ lit "tmux" ∧ c.transport ≠ lit "socket" ∧ handsOver (requestEvent json a b c) = true ∧
    ∃ e, (conversation json a b c).result = some (.error e)

theorem InOrder.nil (json : JsonLib) (a : EvalAnswers) (b : Binding) (c : EvalCall) : InOrder json a b c [] [] :=
  ⟨by simp, by simp, Wrapped.nil b c, by simp, by simp⟩

theorem InOrder.once {json : JsonLib} {a : EvalAnswers} {b : Binding} {c : EvalCall} {viaSocket viaPane : List Event}
    (h : InOrder json a b c viaSocket viaPane) (hover : ∀ e ∈ viaSocket, handsOver e = true) :
    (viaSocket ++ viaPane).length ≤ 1 ∨ FellBack json a b c ∨ Rejected a b c viaPane := by
  by_cases hp : viaPane = []
  · by_cases hs : viaSocket = []
    · simp [hp, hs]
    · obtain ⟨_, hreq⟩ := h.request hs
      simp [hp, hreq]
  · by_cases htwo : 1 < viaPane.length
    · exact .inr (.inr (h.rejected htwo))
    · by_cases hs : viaSocket = []
      · exact .inl (by rw [hs, List.nil_append]; omega)
      · obtain ⟨⟨htmux, hexists⟩, hreq⟩ := h.request hs
        obtain ⟨hsocket, hresponse⟩ := h.pane hp
        have hdelivered := hover (requestEvent json a b c) (by simp [hreq])
        rcases hresponse with h | h | h
        · exact absurd h htmux
        · simp [hexists] at h
        · exact .inr (.inl ⟨htmux, hsocket, hdelivered, h⟩)

theorem evalInPane_adds (json : JsonLib) (a : EvalAnswers) (b : Binding) (c : EvalCall) (s : Session) :
    ∃ viaSocket viaPane, Adds s (evalInPane json a b c s).1 (viaSocket ++ viaPane) ∧
      InOrder json a b c viaSocket viaPane ∧ (1 < viaPane.length → EndedMissing a b c viaPane) := by
  obtain ⟨viaSocket, hsocket, hrequest, hnext⟩ := routeSocket_adds json a b c s
  have hsocketOnly : InOrder json a b c viaSocket [] :=
    ⟨hrequest, by simp, Wrapped.nil b c, by simp, by simp⟩
  unfold evalInPane
  rcases andThen_adds hsocket with ⟨_, _, h⟩ | ⟨hgo, h⟩
  · exact ⟨viaSocket, [], by simpa using h, hsocketOnly, by simp⟩
  have hpane := hnext hgo
  rcases andThen_adds (checkPaneMode_adds a b c.force (routeSocket json a b c s).1) with ⟨_, _, h1⟩ | ⟨_, h1⟩
  · exact ⟨viaSocket, [], h _ h1, hsocketOnly, by simp⟩
  rcases andThen_adds (k := markerPath json a b c)
    (acquireLock_adds a (checkPaneMode a b c.force (routeSocket json a b c s).1).1) with ⟨_, _, h2⟩ | ⟨_, h2⟩
  · exact ⟨viaSocket, [], h _ (h1 _ h2), hsocketOnly, by simp⟩
  obtain ⟨viaPane, hmarker, htwo, hw, hended⟩ := markerPath_adds json a b c
    (acquireLock a (checkPaneMode a b c.force (routeSocket json a b c s).1).1).1
  exact ⟨viaSocket, viaPane, h _ (h1 _ (h2 _ hmarker)),
    ⟨hrequest, fun _ => hpane, hw, htwo, fun hlen => (hended hlen).rejected⟩, hended⟩

theorem evalCode_adds (json : JsonLib) (a : EvalAnswers) (c : EvalCall) {s : Session} {b : Binding}
    (hb : s.server.binding = some b) :
    ∃ viaSocket viaPane, Adds s (evalCode json a c s).1 (viaSocket ++ viaPane) ∧
      InOrder json a b c viaSocket viaPane ∧ (1 < viaPane.length → EndedMissing a b c viaPane) := by
  have hstart : Adds s { s with lastCode := c.code } [] := Adds.same rfl
  unfold evalCode
  simp only [hb]
  split
  · exact ⟨[], [], hstart, InOrder.nil _ _ _ _, by simp⟩
  · split
    · obtain ⟨viaSocket, viaPane, hadds, horder, hended⟩ := evalInPane_adds json a b c { s with lastCode := c.code }
      exact ⟨viaSocket, viaPane, hstart.trans hadds, horder, hended⟩
    · exact ⟨[], [], hstart, InOrder.nil _ _ _ _, by simp⟩

theorem Adds.submitted {json : JsonLib} {a : EvalAnswers} {c : EvalCall} {s : Session} {es : List Event}
    (h : Adds s (evalCode json a c s).1 es) : submitted json a c s = es := by
  obtain ⟨new, he, hf⟩ := h
  rw [Submission.submitted, he, List.drop_left, hf]

theorem submitted_unbound (json : JsonLib) (a : EvalAnswers) (c : EvalCall) {s : Session}
    (hb : s.server.binding = none) : submitted json a c s = [] := by
  simp [submitted, evalCode, hb]

/-- A call hands nothing over without a binding, and with one the code once at most,
unless the socket failed with the whole request sent and transport auto fell back, or
the REPL rejected the first wrapper. What it hands over stands in order. -/
theorem submitted_at_most_once (json : JsonLib) (a : EvalAnswers) (c : EvalCall) (s : Session) :
    (s.server.binding = none → submitted json a c s = []) ∧
    ∀ b, s.server.binding = some b →
      ∃ viaSocket viaPane, submitted json a c s = viaSocket ++ viaPane ∧ InOrder json a b c viaSocket viaPane ∧
        ((submitted json a c s).length ≤ 1 ∨ FellBack json a b c ∨ Rejected a b c viaPane) := by
  refine ⟨submitted_unbound json a c, fun b hb => ?_⟩
  obtain ⟨viaSocket, viaPane, hadds, horder, -⟩ := evalCode_adds json a c hb
  have hsub := hadds.submitted
  have hover : ∀ e ∈ viaSocket, handsOver e = true := by
    intro e he
    have hmem : e ∈ submitted json a c s := by
      rw [hsub]
      exact List.mem_append_left _ he
    exact (List.mem_filter.mp hmem).2
  refine ⟨viaSocket, viaPane, hsub, horder, ?_⟩
  rw [hsub]
  exact horder.once hover

def slowRequest : Text := lit "\x7b\"code\":\"x += 1\",\"max_output_bytes\":245760,\"op\":\"eval\"\x7d"

def slowJson : JsonLib := { parse := fun _ => .error [], dump := fun _ => slowRequest }

def slowAnswers : EvalAnswers where
  paneInfo := .ok { paneId := lit "%5", panePid := lit "100" }
  socketExists := true
  socket := { sends := [{ bytes := slowRequest.length + 1 }], recvs := [.failed true []] }
  install := { generation := lit "100:200" }

def slowSession : Session where
  server := { binding := some { target := lit "%5", paneId := lit "%5", projectRoot := [] },
              configPath := ⟨true, []⟩ }
  cache := fun _ => some (lit "100:200")

def restartedSession : Session where
  server := { binding := some { target := lit "%3", paneId := lit "%3", projectRoot := [] },
              configPath := ⟨true, []⟩ }
  cache := fun _ => some (lit "10:20")

/-- The REPL was restarted since the runtime was installed. -/
def restartedAnswers : EvalAnswers where
  paneInfo := .ok { paneId := lit "%3" }
  install := { generation := lit "10:20" }
  pass := { micros := 7, polls := [{ captured := .ok (lit "@JJMCP_COMMAND \"7_1_1\"\nUndefVarError: @JJMCP_COMMAND\n") }] }
  reinstall := { generation := lit "10:20", micros := 8,
                 polls := [{ captured := .ok (lit "__JJMCP_BEGIN_8_1_2__\n__JJMCP_END_8_1_2__\n") }] }
  retry := { micros := 9 }

def unusedJson : JsonLib := { parse := fun _ => .error [], dump := fun _ => [] }

/-- The helper has the whole line, the receive times out, and the code is pasted too;
over tmux alone, the wrapper that the REPL rejected is pasted again. -/
theorem not_submitted_at_most_once :
    (¬ ∀ json a c s, (submitted json a c s).length ≤ 1) ∧
      ¬ ∀ json a c s, c.transport = lit "tmux" → (submitted json a c s).length ≤ 1 := by
  constructor
  · intro h
    exact absurd (h slowJson slowAnswers { code := lit "x += 1" } slowSession) (by decide +kernel)
  · intro h
    exact absurd (h unusedJson restartedAnswers { code := lit "1", transport := lit "tmux" } restartedSession rfl)
      (by decide +kernel)

theorem submitted_at_most_once_slow :
    (submitted slowJson slowAnswers { code := lit "x += 1", transport := lit "socket" } slowSession).length ≤ 1 := by
  obtain ⟨_, viaPane, _, horder, h⟩ := (submitted_at_most_once slowJson slowAnswers
    { code := lit "x += 1", transport := lit "socket" } slowSession).2 _ rfl
  rcases h with h | ⟨_, hsocket, _⟩ | ⟨_, _, _, _, hpane, _⟩
  · exact h
  · exact absurd rfl hsocket
  · exact absurd rfl (horder.pane (by simp [hpane])).1

end JJMCP.Submission
