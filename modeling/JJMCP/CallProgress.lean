import JJMCP.BeginSeen
import JJMCP.CallLogs

namespace JJMCP.CallProgress

open Text Marker Extract Poll Config EvalCode Tools BeginSeen Scrollback CallLogs

/-- The notification of one turn, when it sends one. -/
def turnProgress (pass : Pass) (s : PollState) (i : PollInput) : List (Nat × Text) :=
  match i.captured with
  | .error _ => []
  | .ok cap =>
      let s := readCapture pass.marker cap s
      if pass.detectMissingRuntime = true ∧ s.lastExtract.foundBegin = false ∧
          jjmcpRuntimeMissing cap pass.marker.id = true then []
      else (emitProgress pass (trimAtBegin pass.marker s)).progress.drop s.progress.length

/-- What the loop of a pass sends to the client, also when it ends with an error. -/
def pollProgress (pass : Pass) (s : PollState) : List PollInput → List (Nat × Text)
  | [] => []
  | i :: is =>
      turnProgress pass s i ++
        match pollStep pass s i with
        | .again s' => pollProgress pass s' is
        | _ => []

/-- The turns of the loop up to one whose log line throws. -/
def heard (json : JsonLib) (pass : Pass) (s : PollState) : List PollInput → List PollInput
  | [] => []
  | i :: is =>
      i ::
        match pollStep pass s i, logThrow json (captureLog pass s i).toList with
        | .again s', none => heard json pass s' is
        | _, _ => []

def passProgress (json : JsonLib) (pid : Nat) (a : PassAnswers) (b : Binding) (c : EvalCall)
    (detectMissingRuntime : Bool) (s : Session) : List (Nat × Text) :=
  let (s, markerId) := nextMarkerId pid a s
  let m := makeMarker markerId
  match sendText a.send (boundTarget b) (.wrapper (wrapJuliaCode c.code m c.timeoutMs)) (lit "jjmcp_" ++ m.id) s with
  | (_, .error _) => []
  | (_, .ok _) =>
      let pass : Pass := ⟨m, detectMissingRuntime, c.progressActive⟩
      pollProgress pass {} (heard json pass {} a.polls)

def andReport (p : Session × Flow) (k : Session → List (Nat × Text)) : List (Nat × Text) :=
  match p with
  | (s, .next) => k s
  | (_, .stop _) => []

/-- The first pass, and where the runtime is missing the retry, which counts anew. -/
def passesProgress (json : JsonLib) (a : EvalAnswers) (b : Binding) (c : EvalCall) (s : Session) : List (Nat × Text) :=
  passProgress json a.pid a.pass b c true s ++
    match runMarkerEval a.pid a.pass b c true s, logThrow json (passLogs a.pid a.pass b c true s) with
    | (s, .missing), none =>
        andReport (s, logged json [boundTarget b] .next) fun s =>
          andReport (ensureJjmcpRuntime a.pid a.reinstall b
              { s with cache := RuntimeCache.invalidate s.cache (boundTarget b) })
            (passProgress json a.pid a.retry b c false)
    | _, _ => []

/-- What eval_code sends to the client before it returns. -/
def evalProgress (json : JsonLib) (a : EvalAnswers) (c : EvalCall) (s : Session) : List (Nat × Text) :=
  let s := { s with lastCode := c.code }
  match s.server.binding with
  | none => []
  | some b =>
      match a.paneInfo with
      | .error _ => []
      | .ok info =>
          if PaneInfo.alive info then
            andReport (routeSocket json a b c s) fun s =>
              andReport (checkPaneMode a b c.force s) fun s =>
                andReport (acquireLock a s) fun s =>
                  andReport (ensureJjmcpRuntime a.pid a.install b s) (passesProgress json a b c)
          else []

/-- Numbered from one, without a gap. -/
def Numbered (ps : List (Nat × Text)) : Prop := ps.map Prod.fst = List.range' 1 ps.length

theorem numbered_nil : Numbered [] := rfl

theorem Numbered.isPrefix {ps qs : List (Nat × Text)} (h : Numbered (ps ++ qs)) : Numbered ps := by
  have hall : ps.map Prod.fst ++ qs.map Prod.fst = List.range' 1 ps.length ++ List.range' (1 + ps.length) qs.length := by
    rw [← List.map_append, List.range'_append_1, ← List.length_append]
    exact h
  exact (List.append_inj hall (by simp)).1

section Poll

variable {pass : Pass} {s t : PollState}

theorem boundAccumulator_progress (m : Marker) (s : PollState) : (boundAccumulator m s).progress = s.progress := by
  unfold boundAccumulator
  split
  · split
    · rfl
    · obtain ⟨n, -, hdrop⟩ := dropHead_drop s
      rw [hdrop]
  · rfl

theorem emitProgress_adds (pass : Pass) (s : PollState) :
    (emitProgress pass s).progress = s.progress ∨
      (s.lastExtract.foundBegin = true ∧ ∃ tail, (emitProgress pass s).progress = s.progress ++ [(s.progress.length + 1, tail)]) := by
  unfold emitProgress
  split
  next h => exact .inr ⟨h.2.1, _, rfl⟩
  next => exact .inl rfl

theorem trimAtBegin_keeps (m : Marker) (s : PollState) :
    (trimAtBegin m s).progress = s.progress ∧ (trimAtBegin m s).lastExtract = s.lastExtract := by
  unfold trimAtBegin
  split
  · exact ⟨rfl, rfl⟩
  · exact ⟨rfl, rfl⟩

theorem turnProgress_of_ok {cap : Text} {i : PollInput} (hcap : i.captured = .ok cap)
    (hnot : ¬ (pass.detectMissingRuntime = true ∧ (readCapture pass.marker cap s).lastExtract.foundBegin = false ∧
      jjmcpRuntimeMissing cap pass.marker.id = true)) :
    (finishTurn pass (readCapture pass.marker cap s)).progress = s.progress ++ turnProgress pass s i := by
  have hkeeps := trimAtBegin_keeps pass.marker (readCapture pass.marker cap s)
  have hread : (readCapture pass.marker cap s).progress = s.progress := rfl
  rw [turnProgress, hcap, finishTurn, boundAccumulator_progress]
  dsimp only
  rw [if_neg hnot, hread]
  rcases emitProgress_adds pass (trimAtBegin pass.marker (readCapture pass.marker cap s)) with h | ⟨-, tail, h⟩
  · rw [h, hkeeps.1, hread, List.drop_length, List.append_nil]
  · rw [h, hkeeps.1, hread, List.drop_left]

/-- A turn that leaves the loop going has counted what it sent. -/
theorem pollStep_progress {i : PollInput} (h : (pollStep pass s i).state? = some t) :
    t.progress = s.progress ++ turnProgress pass s i := by
  cases hcap : i.captured with
  | error e =>
      have hnone : turnProgress pass s i = [] := by rw [turnProgress, hcap]
      simp only [pollStep, hcap] at h
      rw [hnone, List.append_nil]
      split at h
      · cases h
      · split at h
        · exact Option.some.inj h ▸ rfl
        · exact Option.some.inj h ▸ rfl
  | ok cap =>
      simp only [pollStep, hcap] at h
      split at h
      · cases h
      next hnot =>
        rw [← turnProgress_of_ok hcap hnot]
        split at h
        · exact Option.some.inj h ▸ rfl
        · split at h
          · exact Option.some.inj h ▸ rfl
          · exact Option.some.inj h ▸ rfl

theorem turnProgress_numbered (pass : Pass) (s : PollState) (i : PollInput) :
    turnProgress pass s i = [] ∨ ∃ tail, turnProgress pass s i = [(s.progress.length + 1, tail)] := by
  unfold turnProgress
  split
  · exact .inl rfl
  next cap _ =>
    have hkeeps := trimAtBegin_keeps pass.marker (readCapture pass.marker cap s)
    dsimp only
    split
    · exact .inl rfl
    · rcases emitProgress_adds pass (trimAtBegin pass.marker (readCapture pass.marker cap s)) with h | ⟨-, tail, h⟩
      · rw [h, hkeeps.1, List.drop_length]
        exact .inl rfl
      · rw [h, hkeeps.1, List.drop_left]
        exact .inr ⟨tail, rfl⟩

theorem pollProgress_numbered (pass : Pass) (s : PollState) (is : List PollInput) :
    (pollProgress pass s is).map Prod.fst = List.range' (s.progress.length + 1) (pollProgress pass s is).length := by
  induction is generalizing s with
  | nil => rfl
  | cons i is ih =>
      rw [pollProgress]
      cases hstep : pollStep pass s i with
      | again t =>
          have ht := pollStep_progress (congrArg Polled.state? hstep)
          have hrest := ih t
          rcases turnProgress_numbered pass s i with h | ⟨tail, h⟩
          · rw [h, List.append_nil] at ht
            rw [h, List.nil_append, ← ht]
            exact hrest
          · have hlen : t.progress.length = s.progress.length + 1 := by rw [ht, h, List.length_append]; rfl
            rw [hlen] at hrest
            rw [h, List.singleton_append, List.map_cons, hrest, List.length_cons, List.range'_succ]
      | done | timedOut | missing | failed =>
          rcases turnProgress_numbered pass s i with h | ⟨tail, h⟩
          · simp [h]
          · simp [h]

theorem turnProgress_inactive (h : pass.progressActive = false) (s : PollState) (i : PollInput) :
    turnProgress pass s i = [] := by
  have hemit : ∀ t, emitProgress pass t = t := fun t => by rw [emitProgress, if_neg (by simp [h])]
  unfold turnProgress
  split
  · rfl
  · dsimp only
    split
    · rfl
    · rw [hemit, (trimAtBegin_keeps _ _).1, List.drop_length]

theorem pollProgress_inactive (h : pass.progressActive = false) (s : PollState) (is : List PollInput) :
    pollProgress pass s is = [] := by
  induction is generalizing s with
  | nil => rfl
  | cons i is ih =>
      rw [pollProgress, turnProgress_inactive h, List.nil_append]
      split
      · exact ih _
      · rfl

theorem pollProgress_append {is : List PollInput} (h : poll pass s is = .again t) (js : List PollInput) :
    pollProgress pass s (is ++ js) = pollProgress pass s is ++ pollProgress pass t js := by
  induction is generalizing s with
  | nil =>
      obtain rfl := Polled.again.inj h
      rfl
  | cons i is ih =>
      obtain ⟨u, hstep, hrest⟩ := poll_cons_again h
      simp only [List.cons_append, pollProgress, hstep, ih hrest, List.append_assoc]

theorem pollProgress_grows {is js : List PollInput} (h : is <+: js) (s : PollState) :
    pollProgress pass s is <+: pollProgress pass s js := by
  induction is generalizing s js with
  | nil => exact List.nil_prefix
  | cons i is ih =>
      obtain ⟨rest, rfl⟩ := h
      rw [List.cons_append, pollProgress, pollProgress, List.prefix_append_right_inj]
      split
      · exact ih (List.prefix_append is rest) _
      · exact List.prefix_rfl

theorem heard_grows (json : JsonLib) (pass : Pass) (s : PollState) (is : List PollInput) :
    heard json pass s is <+: is := by
  induction is generalizing s with
  | nil => exact List.prefix_rfl
  | cons i is ih =>
      rw [heard, List.prefix_cons_inj]
      split
      · exact ih _
      · exact List.nil_prefix

theorem turnProgress_silent {caps : List Text} (h : Tracks pass.marker caps s) {i : PollInput}
    (hi : ∀ cap ∈ captured [i], Printed pass.marker cap)
    (hnone : ∀ cap ∈ caps ++ captured [i], ¬ Shows pass.marker cap) : turnProgress pass s i = [] := by
  cases hcap : i.captured with
  | error e => rw [turnProgress, hcap]
  | ok cap =>
      have hone : captured [i] = [cap] := by simp [captured, hcap, Except.toOption]
      rw [hone] at hi hnone
      have hread := h.readCapture (hi cap (List.mem_singleton.mpr rfl))
      have hkeeps := trimAtBegin_keeps pass.marker (readCapture pass.marker cap s)
      rw [turnProgress, hcap]
      dsimp only
      split
      · rfl
      · rcases emitProgress_adds pass (trimAtBegin pass.marker (readCapture pass.marker cap s)) with he | ⟨hfound, -⟩
        · rw [he, hkeeps.1, List.drop_length]
        · rw [hkeeps.2, hread.found, hread.shown] at hfound
          obtain ⟨c, hc, hshows⟩ := hfound
          exact absurd hshows (hnone c hc)

/-- The loop sends nothing before a capture shows BEGIN. -/
theorem poll_silent {is : List PollInput} (hm : pass.marker.OneLine)
    (hcaps : ∀ cap ∈ captured is, Printed pass.marker cap) (hrun : poll pass {} is = .again s)
    (hnone : ∀ cap ∈ captured is, ¬ Shows pass.marker cap) : pollProgress pass {} is = [] := by
  induction is using List.reverseRecOn generalizing s with
  | nil => rfl
  | append_singleton is i ih =>
      obtain ⟨t, ht, hlast⟩ := poll_append_again hrun
      rw [captured_append] at hcaps hnone
      have hcaps' := fun cap hc => hcaps cap (List.mem_append_left _ hc)
      have hturn : turnProgress pass t i = [] :=
        turnProgress_silent (poll_tracks hm hcaps' ht) (fun cap hc => hcaps cap (List.mem_append_right _ hc)) hnone
      obtain ⟨u, hstep, -⟩ := poll_cons_again hlast
      rw [pollProgress_append ht, ih hcaps' ht fun cap hc => hnone cap (List.mem_append_left _ hc)]
      simp only [pollProgress, hturn, hstep, List.append_nil]

theorem turnProgress_missing {i : PollInput} (h : pollStep pass s i = .missing) : turnProgress pass s i = [] := by
  cases hcap : i.captured with
  | error e => rw [turnProgress, hcap]
  | ok cap =>
      simp only [pollStep, hcap] at h
      split at h
      next hmissing => simp only [turnProgress, hcap, if_pos hmissing]
      next =>
        split at h
        · cases h
        · split at h <;> cases h

/-- A pass that finds the runtime missing has sent nothing: the count of the retry
is the only one. -/
theorem missing_silent {is : List PollInput} (hm : pass.marker.OneLine)
    (hcaps : ∀ cap ∈ captured is, Printed pass.marker cap) (hmissing : poll pass {} is = .missing) :
    pollProgress pass {} is = [] := by
  obtain ⟨pre, i, post, t, rfl, hpre, hstep⟩ := Submission.poll_missing hmissing
  have hsplit : captured (pre ++ i :: post) = captured pre ++ captured [i] ++ captured post := by
    rw [← captured_append, ← captured_append, List.append_assoc, List.singleton_append]
  rw [hsplit] at hcaps
  have hcaps' : ∀ cap ∈ captured pre, Printed pass.marker cap := fun cap hc =>
    hcaps cap (List.mem_append_left _ (List.mem_append_left _ hc))
  have hbefore := poll_tracks hm hcaps' hpre
  have hnone := (hbefore.pollStep hm fun cap hc =>
    hcaps cap (List.mem_append_left _ (List.mem_append_right _ hc))).2 hstep
  rw [pollProgress_append hpre, poll_silent hm hcaps' hpre fun cap hc => hnone cap (List.mem_append_left _ hc)]
  simp only [pollProgress, turnProgress_missing hstep, hstep, List.append_nil]

end Poll

section Call

variable {json : JsonLib} {a : EvalAnswers} {b : Binding} {c : EvalCall}

/-- What capture-pane prints during the first pass, whatever marker the pass has. -/
def PrintsLines (a : EvalAnswers) : Prop :=
  ∀ micros sequence, ∀ cap ∈ captured a.pass.polls, Printed (makeMarker (makeMarkerId micros a.pid sequence)) cap

theorem passProgress_numbered (json : JsonLib) (pid : Nat) (a : PassAnswers) (b : Binding) (c : EvalCall) (detect : Bool) (s : Session) :
    Numbered (passProgress json pid a b c detect s) := by
  unfold passProgress
  dsimp only
  split
  · exact numbered_nil
  · exact pollProgress_numbered _ {} _

theorem passProgress_missing (hprints : PrintsLines a) {s s' : Session}
    (h : runMarkerEval a.pid a.pass b c true s = (s', .missing)) : passProgress json a.pid a.pass b c true s = [] := by
  unfold runMarkerEval at h
  unfold passProgress
  dsimp only at h ⊢
  generalize hmarker : makeMarker (nextMarkerId a.pid a.pass s).2 = m at h ⊢
  have hm : m.OneLine := hmarker ▸ Emission.generatorForm_oneLine (Emission.generatorForm_makeMarkerId _ _ _)
  have hprinted : ∀ cap ∈ captured a.pass.polls, Printed m cap := by
    rw [← hmarker]
    exact hprints _ _
  generalize sendText a.pass.send (boundTarget b) (.wrapper (wrapJuliaCode c.code m c.timeoutMs)) (lit "jjmcp_" ++ m.id)
    (nextMarkerId a.pid a.pass s).1 = sent at h ⊢
  obtain ⟨s'', what | pasted⟩ := sent
  · rfl
  · dsimp only at h ⊢
    split at h
    · cases h
    next hmissing =>
      have hsent := @pollProgress_grows ⟨m, true, c.progressActive⟩ _ _
        (heard_grows json ⟨m, true, c.progressActive⟩ {} a.pass.polls) {}
      rw [missing_silent hm hprinted hmissing] at hsent
      exact List.prefix_nil.mp hsent
    · cases h
    · cases h
    · cases h

theorem numbered_andReport {p : Session × Flow} {k : Session → List (Nat × Text)} (hk : ∀ s, Numbered (k s)) :
    Numbered (andReport p k) := by
  rcases p with ⟨s, _ | r⟩
  · exact hk s
  · exact numbered_nil

theorem passesProgress_numbered (hprints : PrintsLines a) (s : Session) : Numbered (passesProgress json a b c s) := by
  unfold passesProgress
  split
  next s' h _ =>
    rw [passProgress_missing hprints h, List.nil_append]
    exact numbered_andReport fun s => numbered_andReport fun s => passProgress_numbered _ _ _ _ _ _ _
  · rw [List.append_nil]
    exact passProgress_numbered _ _ _ _ _ _ _

/-- The notifications of a call are numbered from one, also where the runtime has
to be installed again. -/
theorem evalProgress_numbered (hprints : PrintsLines a) (s : Session) : Numbered (evalProgress json a c s) := by
  unfold evalProgress
  dsimp only
  split
  · exact numbered_nil
  · split
    · exact numbered_nil
    · split
      · refine numbered_andReport fun s => numbered_andReport fun s => numbered_andReport fun s => numbered_andReport fun s => ?_
        exact passesProgress_numbered hprints s
      · exact numbered_nil

theorem passProgress_inactive (h : c.progressActive = false) (pid : Nat) (a : PassAnswers) (b : Binding)
    (detect : Bool) (s : Session) : passProgress json pid a b c detect s = [] := by
  unfold passProgress
  dsimp only
  split
  · rfl
  · exact pollProgress_inactive h _ _

theorem andReport_nil {p : Session × Flow} {k : Session → List (Nat × Text)} (hk : ∀ s, k s = []) :
    andReport p k = [] := by
  rcases p with ⟨s, _ | r⟩
  · exact hk s
  · rfl

theorem passesProgress_inactive (h : c.progressActive = false) (s : Session) : passesProgress json a b c s = [] := by
  rw [passesProgress, passProgress_inactive h, List.nil_append]
  split
  · exact andReport_nil fun s => andReport_nil (passProgress_inactive h _ _ _ _)
  · rfl

/-- A call without a progress token sends nothing. -/
theorem evalProgress_inactive (h : c.progressActive = false) (s : Session) : evalProgress json a c s = [] := by
  unfold evalProgress
  dsimp only
  split
  · rfl
  · split
    · rfl
    · split
      · refine andReport_nil fun s => andReport_nil fun s => andReport_nil fun s => andReport_nil fun s => ?_
        exact passesProgress_inactive h s
      · rfl

end Call

/-- What a tool call sends to the client while it runs. -/
def callProgress (json : JsonLib) (c : ToolCall) (d : Dispatcher) : List (Nat × Text) :=
  let d := { d with session := { d.session with lastCode := [] } }
  match evalCallOf c d with
  | none => []
  | some call => evalProgress json c.answers.eval call d.session

theorem callProgress_numbered {json : JsonLib} {c : ToolCall} (hprints : PrintsLines c.answers.eval) (d : Dispatcher) :
    Numbered (callProgress json c d) := by
  unfold callProgress
  dsimp only
  split
  · exact numbered_nil
  · exact evalProgress_numbered hprints _

theorem callProgress_inactive {c : ToolCall} (h : c.progressActive = false) (json : JsonLib) (d : Dispatcher) :
    callProgress json c d = [] := by
  unfold callProgress
  dsimp only
  split
  · rfl
  next hcall => exact evalProgress_inactive ((evalCallOf_progressActive hcall).trans h) _

end JJMCP.CallProgress
