import JJMCP.Serve

namespace JJMCP.ServeComplete

open Lib.Runs Text Mcp Serve

def answered (line : Nat) (queued : Bool) (handled : Handled) : List Response :=
  (handled.response.map fun frame => { line, queued, frame }).toList

/-- A server with one thread: it answers a message before it reads the next. -/
def serveOne (env : ServerEnv) (w : World) (line : Nat) (body : Text) : World × Option (List Response) :=
  match incoming env.json body with
  | .parseError frame => (w, some [{ line, queued := false, frame }])
  | .queued request => ((handleRequest env request w).1, (handleRequest env request w).2.map (answered line true))
  | .inline request => ((handleRequest env request w).1, (handleRequest env request w).2.map (answered line false))

/-- Its responses to the messages from a line on, when it comes to the end of them. -/
def sequential (env : ServerEnv) (w : World) (line : Nat) : List Text → Option (List Response)
  | [] => some []
  | body :: bodies =>
      match serveOne env w line body with
      | (w, some frames) => (sequential env w (line + 1) bodies).map (frames ++ ·)
      | (_, none) => none

def byLine {α : Type} (f : Nat → Text → List α) (line : Nat) (bodies : List Text) : List α :=
  (bodies.zipIdx line).flatMap fun p => f p.2 p.1

def jobOf (json : JsonLib) (line : Nat) (body : Text) : List Job :=
  match incoming json body with
  | .queued request => [{ line, request }]
  | _ => []

def jobsOf (json : JsonLib) (bodies : List Text) : List Job := byLine (jobOf json) 0 bodies

def answers (env : ServerEnv) (w : World) : List Job → Option (World × List Response)
  | [] => some (w, [])
  | job :: jobs =>
      match handleRequest env job.request w with
      | (w, some handled) => (answers env w jobs).map fun p => (p.1, answered job.line true handled ++ p.2)
      | (_, none) => none

/-- The answer of the read thread to a message, which no world changes. -/
def inlineOf (env : ServerEnv) (w : World) (line : Nat) (body : Text) : List Response :=
  match incoming env.json body with
  | .queued _ => []
  | _ => (serveOne env w line body).2.getD []

@[simp] theorem byLine_concat {α : Type} (f : Nat → Text → List α) (line : Nat) (bodies : List Text) (body : Text) :
    byLine f line (bodies ++ [body]) = byLine f line bodies ++ f (line + bodies.length) body := by
  simp [byLine, List.zipIdx_append]

@[simp] theorem byLine_cons {α : Type} (f : Nat → Text → List α) (line : Nat) (body : Text) (bodies : List Text) :
    byLine f line (body :: bodies) = f line body ++ byLine f (line + 1) bodies := by
  simp [byLine]

@[simp] theorem responses_append (es fs : List ServeEvent) : responses (es ++ fs) = responses es ++ responses fs :=
  List.filterMap_append

@[simp] theorem callLog_append (es fs : List ServeEvent) : callLog (es ++ fs) = callLog es ++ callLog fs :=
  List.filter_append es fs

@[simp] theorem responses_response (r : Response) : responses [.response r] = [r] := rfl

@[simp] theorem responses_began (line : Nat) : responses [.began line] = [] := rfl

@[simp] theorem responses_ended (line : Nat) : responses [.ended line] = [] := rfl

@[simp] theorem responses_notification (frame : Json) : responses [.notification frame] = [] := rfl

@[simp] theorem callLog_response (r : Response) : callLog [.response r] = [] := rfl

@[simp] theorem callLog_began (line : Nat) : callLog [.began line] = [.began line] := rfl

@[simp] theorem callLog_ended (line : Nat) : callLog [.ended line] = [.ended line] := rfl

@[simp] theorem callLog_notification (frame : Json) : callLog [.notification frame] = [] := rfl

@[simp] theorem responses_notifications (frames : List Json) : responses (frames.map .notification) = [] := by
  simp [responses, List.filterMap_map, Function.comp_def, response?]

@[simp] theorem callLog_notifications (frames : List Json) : callLog (frames.map .notification) = [] := by
  simp [callLog, isCall]

theorem answers_cons {env : ServerEnv} {w w' : World} {jobs : List Job} {frames : List Response} {job : Job}
    (h : answers env w (job :: jobs) = some (w', frames)) :
    ∃ w1 handled rest, handleRequest env job.request w = (w1, some handled) ∧
      answers env w1 jobs = some (w', rest) ∧ answered job.line true handled ++ rest = frames := by
  rw [answers] at h
  split at h
  next w1 handled hone =>
    obtain ⟨⟨w2, rest⟩, hrest, heq⟩ := Option.map_eq_some_iff.mp h
    obtain ⟨rfl, rfl⟩ := Prod.mk.inj heq
    exact ⟨w1, handled, rest, hone, hrest, rfl⟩
  next => cases h

theorem answers_concat {env : ServerEnv} {w w' w'' : World} {jobs : List Job} {frames : List Response} {job : Job}
    {handled : Handled} (hjobs : answers env w jobs = some (w', frames))
    (hjob : handleRequest env job.request w' = (w'', some handled)) :
    answers env w (jobs ++ [job]) = some (w'', frames ++ answered job.line true handled) := by
  induction jobs generalizing w frames with
  | nil =>
      obtain ⟨rfl, rfl⟩ := Prod.mk.inj (Option.some.inj hjobs)
      simp [answers, hjob]
  | cons first jobs ih =>
      obtain ⟨w1, h1, rest, hone, hrest, rfl⟩ := answers_cons hjobs
      simp [answers, hone, ih hrest]

theorem incoming_inline {json : JsonLib} {body : Text} {request : Json} (h : incoming json body = .inline request) :
    needsWorker (methodOf request) = false := by
  unfold incoming at h
  split at h
  · cases h
  · split at h
    next => cases h
    next hw => cases h; simpa using hw

theorem answered_queued (line : Nat) (queued : Bool) (handled : Handled) :
    ∀ r ∈ answered line queued handled, r.queued = queued := by
  intro r hr
  obtain ⟨frame, _, rfl⟩ := Option.map_eq_some_iff.mp (Option.mem_toList.mp hr)
  rfl

/-- The one thread gives each job its answer and each other message its own. -/
theorem sequential_answers {env : ServerEnv} {w w' : World} {line : Nat} {bodies : List Text}
    {frames : List Response} (w₀ : World)
    (h : answers env w (byLine (jobOf env.json) line bodies) = some (w', frames)) :
    ∃ all, sequential env w line bodies = some all ∧
      all.Perm (frames ++ byLine (inlineOf env w₀) line bodies) ∧ all.filter (·.queued) = frames := by
  induction bodies generalizing w line frames with
  | nil =>
      obtain ⟨rfl, rfl⟩ := Prod.mk.inj (Option.some.inj h)
      exact ⟨[], rfl, .refl _, rfl⟩
  | cons body bodies ih =>
      rw [byLine_cons] at h
      rw [byLine_cons]
      cases hin : incoming env.json body with
      | parseError frame =>
          simp only [jobOf, hin, List.nil_append] at h
          obtain ⟨all, hall, hperm, hfilter⟩ := ih h
          refine ⟨{ line, queued := false, frame } :: all, ?_, ?_, ?_⟩
          · simp [sequential, serveOne, hin, hall]
          · simp only [inlineOf, serveOne, hin, Option.getD_some]
            exact (hperm.cons _).trans List.perm_middle.symm
          · simpa using hfilter
      | queued request =>
          simp only [jobOf, hin, List.singleton_append] at h
          obtain ⟨w1, handled, rest, hone, hrest, rfl⟩ := answers_cons h
          obtain ⟨all, hall, hperm, hfilter⟩ := ih hrest
          refine ⟨answered line true handled ++ all, ?_, ?_, ?_⟩
          · simp [sequential, serveOne, hin, hone, hall]
          · simpa [inlineOf, hin] using hperm.append_left _
          · rw [List.filter_append, hfilter, List.filter_eq_self.mpr (answered_queued line true handled)]
      | inline request =>
          simp only [jobOf, hin, List.nil_append] at h
          obtain ⟨handled, hone⟩ := handleRequest_inline env (incoming_inline hin)
          obtain ⟨all, hall, hperm, hfilter⟩ := ih h
          refine ⟨answered line false handled ++ all, ?_, ?_, ?_⟩
          · simp [sequential, serveOne, hin, hone, hall]
          · simp only [inlineOf, serveOne, hin, hone, Option.map_some, Option.getD_some]
            refine (hperm.append_left _).trans ?_
            rw [← List.append_assoc, ← List.append_assoc]
            exact List.perm_append_comm.append_right _
          · rw [List.filter_append, hfilter, List.filter_eq_nil_iff.mpr, List.nil_append]
            intro r hr
            simp [answered_queued line false handled r hr]

theorem answered_pairwise (line : Nat) (queued : Bool) (handled : Handled) :
    (answered line queued handled).Pairwise (·.line < ·.line) ∧ ∀ r ∈ answered line queued handled, r.line = line := by
  unfold answered
  cases handled.response <;> simp

theorem serveOne_line {env : ServerEnv} {w w' : World} {line : Nat} {body : Text} {frames : List Response}
    (h : serveOne env w line body = (w', some frames)) :
    frames.Pairwise (·.line < ·.line) ∧ ∀ r ∈ frames, r.line = line := by
  unfold serveOne at h
  split at h
  next =>
    obtain rfl := Option.some.inj (Prod.mk.inj h).2
    simp
  all_goals
    obtain ⟨handled, _, rfl⟩ := Option.map_eq_some_iff.mp (Prod.mk.inj h).2
    exact answered_pairwise ..

theorem sequential_increasing {env : ServerEnv} {w : World} {line : Nat} {bodies : List Text}
    {frames : List Response} (h : sequential env w line bodies = some frames) :
    frames.Pairwise (·.line < ·.line) ∧ ∀ r ∈ frames, line ≤ r.line := by
  induction bodies generalizing w line frames with
  | nil =>
      obtain rfl := Option.some.inj h
      simp
  | cons body bodies ih =>
      rw [sequential] at h
      split at h
      next w1 first hone =>
        obtain ⟨rest, hrest, rfl⟩ := Option.map_eq_some_iff.mp h
        obtain ⟨hfirst, hline⟩ := serveOne_line hone
        obtain ⟨hpair, hlower⟩ := ih hrest
        refine ⟨List.pairwise_append.mpr ⟨hfirst, hpair, fun r hr q hq => ?_⟩, fun r hr => ?_⟩
        · have hq := hlower q hq
          have hr := hline r hr
          omega
        · rcases List.mem_append.mp hr with hr | hr
          · exact (hline r hr).ge
          · exact Nat.le_of_succ_le (hlower r hr)
      next => cases h

def readerJob : ReaderPhase → List Job
  | .pushing job => [job]
  | _ => []

def readerUnwritten (env : ServerEnv) (w : World) : ReaderPhase → List Response
  | .handling job => ((handleRequest env job.request w).2.map (answered job.line false)).getD []
  | .replying line frame => [{ line, queued := false, frame }]
  | _ => []

def workerJob : WorkerPhase → List Job
  | .running job => [job]
  | _ => []

def workerUnwritten : WorkerPhase → List Response
  | .replying line frame => [{ line, queued := true, frame }]
  | _ => []

def atEnd : ReaderPhase → Bool
  | .stopping | .notifyingAll | .joining | .exited => true
  | _ => false

def isExited : ReaderPhase → Bool
  | .exited => true
  | _ => false

theorem isExited_iff (phase : ReaderPhase) : isExited phase = true ↔ phase = .exited := by
  cases phase <;> simp [isExited]

/-- What holds between two steps, when the worker has done these jobs. -/
structure Inv (env : ServerEnv) (w₀ : World) (input : Text) (done : List Job) (s : ServeState) : Prop where
  seen : s.seen ++ messages s.input = messages input
  ended : atEnd s.reader = true → messages s.input = []
  queue : jobsOf env.json s.seen = done ++ workerJob s.worker ++ s.jobs ++ readerJob s.reader
  answers : answers env w₀ done = some (s.world, (responses s.events).filter (·.queued) ++ workerUnwritten s.worker)
  inline : byLine (inlineOf env w₀) 0 s.seen = (responses s.events).filter (!·.queued) ++ readerUnwritten env w₀ s.reader
  handling : ∀ job, s.reader = .handling job → needsWorker (methodOf job.request) = false
  calls : callLog s.events = done.flatMap (fun job => [.began job.line, .ended job.line]) ++
    (workerJob s.worker).map fun job => .began job.line
  returned : s.worker = .returned → s.jobs = [] ∧ s.shuttingDown = true
  flag : s.shuttingDown = true → atEnd s.reader = true
  exited : s.reader = .exited → s.worker = .returned
  output : s.output = s.events.flatMap (written env.json)

theorem Inv.output_append {env : ServerEnv} {w₀ : World} {input : Text} {done : List Job} {s : ServeState}
    (h : Inv env w₀ input done s) (es : List ServeEvent) :
    s.output ++ es.flatMap (written env.json) = (s.events ++ es).flatMap (written env.json) := by
  rw [List.flatMap_append, h.output]

variable {env : ServerEnv} {w₀ : World} {input : Text} {done : List Job} {s s' : ServeState}

theorem start_inv (env : ServerEnv) (input : Text) (d : Dispatcher) :
    Inv env { dispatcher := d } input [] (start input d) where
  seen := rfl
  ended := by simp [start, atEnd]
  queue := rfl
  answers := rfl
  inline := rfl
  handling := by simp [start]
  calls := rfl
  returned := by simp [start]
  flag := by simp [start]
  exited := by simp [start]
  output := rfl

theorem Inv.running (h : Inv env w₀ input done s) (hend : atEnd s.reader = false) :
    s.shuttingDown = false ∧ s.worker ≠ .returned := by
  have hflag : s.shuttingDown = false := by
    by_contra hf
    simp [h.flag (by simpa using hf)] at hend
  exact ⟨hflag, fun hw => by simp [(h.returned hw).2] at hflag⟩

theorem received_phase (env : ServerEnv) (w₀ : World) (line : Nat) (body : Text) :
    readerJob (received line (incoming env.json body)) = jobOf env.json line body ∧
      readerUnwritten env w₀ (received line (incoming env.json body)) = inlineOf env w₀ line body ∧
      atEnd (received line (incoming env.json body)) = false ∧
      ∀ job, received line (incoming env.json body) = .handling job →
        needsWorker (methodOf job.request) = false := by
  unfold jobOf inlineOf serveOne
  cases hin : incoming env.json body with
  | parseError frame => exact ⟨rfl, rfl, rfl, nofun⟩
  | queued request => exact ⟨rfl, rfl, rfl, nofun⟩
  | inline request =>
      refine ⟨rfl, rfl, rfl, fun job hjob => ?_⟩
      cases hjob
      exact incoming_inline hin

theorem Inv.readMessage (h : Inv env w₀ input done s) (hr : s.reader = .reading) :
    Inv env w₀ input done (readMessage env s) := by
  obtain ⟨hflag, hworker⟩ := h.running (by simp [hr, atEnd])
  have hmessages := readMcpMessage_messages s.input
  unfold Serve.readMessage
  cases hread : readMcpMessage s.input with
  | none =>
      rw [hread] at hmessages
      exact { h with
        ended := fun _ => hmessages
        queue := by simpa [hr, readerJob] using h.queue
        inline := by simpa [hr, readerUnwritten, responses] using h.inline
        handling := by simp
        flag := by simp [atEnd]
        exited := by simp }
  | some p =>
      obtain ⟨body, rest⟩ := p
      rw [hread] at hmessages
      have hqueue := h.queue
      have hinline := h.inline
      simp only [hr, readerJob, readerUnwritten, List.append_nil] at hqueue hinline
      obtain ⟨hjob, hunwritten, hend, hhandling⟩ := received_phase env w₀ s.seen.length body
      exact { h with
        seen := by rw [← h.seen, hmessages, List.append_assoc, List.singleton_append]
        ended := by simp [hend]
        queue := by rw [hjob, jobsOf, byLine_concat, Nat.zero_add, ← jobsOf, hqueue]
        inline := by rw [hunwritten, byLine_concat, Nat.zero_add, hinline]
        handling := hhandling
        flag := by simp [hflag]
        exited := fun he => absurd (hend.symm.trans (congrArg atEnd he)) Bool.false_ne_true }

theorem Inv.checkJobs (h : Inv env w₀ input done s) (hw : s.worker = .ready) :
    Inv env w₀ input done (checkJobs env s) := by
  have hqueue := h.queue
  have hanswers := h.answers
  have hcalls := h.calls
  simp only [hw, workerJob, workerUnwritten, List.append_nil, List.map_nil] at hqueue hanswers hcalls
  have hexited : s.reader ≠ .exited := fun he => by simpa [hw] using h.exited he
  unfold Serve.checkJobs
  split
  next hjobs hflag =>
    exact { h with
      queue := by simpa [workerJob] using hqueue
      answers := by simpa [workerUnwritten] using hanswers
      calls := by simpa [workerJob] using hcalls
      returned := fun _ => ⟨hjobs, hflag⟩
      exited := fun _ => rfl }
  next hjobs hflag =>
    exact { h with
      queue := by simpa [workerJob] using hqueue
      answers := by simpa [workerUnwritten] using hanswers
      calls := by simpa [workerJob] using hcalls
      returned := nofun
      exited := fun he => absurd he hexited }
  next job jobs hjobs =>
    exact { h with
      queue := by simpa [writeLocked, workerJob, hjobs] using hqueue
      answers := by simpa [writeLocked, workerUnwritten] using hanswers
      inline := by simpa [writeLocked] using h.inline
      calls := by simpa [writeLocked, workerJob] using hcalls
      returned := nofun
      exited := fun he => absurd he hexited
      output := h.output_append _ }

theorem Inv.wakeWorker (h : Inv env w₀ input done s) : Inv env w₀ input done (wakeWorker s) := by
  unfold Serve.wakeWorker
  split
  next hw =>
    exact { h with
      queue := by simpa [hw, workerJob] using h.queue
      answers := by simpa [hw, workerUnwritten] using h.answers
      calls := by simpa [hw, workerJob] using h.calls
      returned := nofun
      exited := fun he => by simpa [hw] using h.exited he }
  next => exact h

/-- A step of the read thread that neither takes nor writes anything. -/
theorem Inv.moveReader (h : Inv env w₀ input done s) {phase : ReaderPhase} (hr : s.reader = phase)
    (reader : ReaderPhase) (flag : Bool) (hjob : readerJob reader = readerJob phase)
    (hunwritten : readerUnwritten env w₀ reader = readerUnwritten env w₀ phase)
    (hend : atEnd reader = atEnd phase) (hflag : s.shuttingDown = true → flag = true)
    (hatEnd : flag = true → atEnd reader = true) (hhandling : ∀ job, reader ≠ .handling job)
    (hexited : reader = .exited → s.worker = .returned) :
    Inv env w₀ input done { s with reader, shuttingDown := flag } := by
  subst hr
  exact { h with
    ended := fun he => h.ended (hend ▸ he)
    queue := by rw [hjob]; exact h.queue
    inline := by rw [hunwritten]; exact h.inline
    handling := fun job he => absurd he (hhandling job)
    returned := fun hw => ⟨(h.returned hw).1, hflag (h.returned hw).2⟩
    flag := hatEnd
    exited := hexited }

theorem readerReplying_phase (env : ServerEnv) (w : World) (line : Nat) (handled : Handled) :
    let phase := handled.response.elim ReaderPhase.reading (.replying line)
    readerJob phase = [] ∧ readerUnwritten env w phase = answered line false handled ∧ atEnd phase = false ∧
      ∀ job, phase ≠ .handling job := by
  unfold answered
  cases handled.response <;> exact ⟨rfl, rfl, rfl, nofun⟩

theorem workerReplying_phase (line : Nat) (handled : Handled) :
    let phase := handled.response.elim WorkerPhase.ready (.replying line)
    workerJob phase = [] ∧ workerUnwritten phase = answered line true handled ∧ phase ≠ .returned := by
  unfold answered
  cases handled.response <;> exact ⟨rfl, rfl, nofun⟩

theorem Inv.handled (h : Inv env w₀ input done s) {job : Job} {world : World} {handled : Handled}
    (hr : s.reader = .handling job) (hone : handleRequest env job.request s.world = (world, some handled)) :
    Inv env w₀ input done (writeLocked env (handled.notifications.map .notification)
      { s with world, reader := handled.response.elim .reading (.replying job.line) }) := by
  obtain ⟨hflag, hworker⟩ := h.running (by simp [hr, atEnd])
  obtain ⟨handled', hinline⟩ := handleRequest_inline env (h.handling job hr)
  -- neither the dispatcher nor the response depends on the worker
  obtain ⟨rfl, heq⟩ := Prod.mk.inj ((hinline s.world).symm.trans hone)
  obtain rfl := Option.some.inj heq
  obtain ⟨hjob, hunwritten, hend, hhandling⟩ := readerReplying_phase env w₀ job.line handled'
  have hqueue := h.queue
  have hwritten := h.inline
  simp only [hr, readerJob, readerUnwritten, hinline, Option.map_some, Option.getD_some] at hqueue hwritten
  exact { h with
    ended := fun he => absurd (hend.symm.trans he) Bool.false_ne_true
    queue := by simpa [writeLocked, hjob] using hqueue
    answers := by simpa [writeLocked] using h.answers
    inline := by simpa [writeLocked, hunwritten] using hwritten
    handling := fun job' he => absurd he (hhandling job')
    calls := by simpa [writeLocked] using h.calls
    flag := by simp [writeLocked, hflag]
    exited := fun he => absurd (hend.symm.trans (congrArg atEnd he)) Bool.false_ne_true
    output := h.output_append _ }

theorem Inv.readerWritten (h : Inv env w₀ input done s) {line : Nat} {frame : Json}
    (hr : s.reader = .replying line frame) :
    Inv env w₀ input done (writeLocked env [.response { line, queued := false, frame }]
      { s with reader := .reading }) := by
  obtain ⟨hflag, hworker⟩ := h.running (by simp [hr, atEnd])
  exact { h with
    ended := by simp [writeLocked, atEnd]
    queue := by simpa [writeLocked, hr, readerJob] using h.queue
    answers := by simpa [writeLocked] using h.answers
    inline := by simpa [writeLocked, hr, readerUnwritten] using h.inline
    handling := by simp [writeLocked]
    calls := by simpa [writeLocked] using h.calls
    flag := by simp [writeLocked, hflag]
    exited := by simp [writeLocked]
    output := h.output_append _ }

theorem Inv.finished (h : Inv env w₀ input done s) {job : Job} {world : World} {handled : Handled}
    (hw : s.worker = .running job) (hone : handleRequest env job.request s.world = (world, some handled)) :
    Inv env w₀ input (done ++ [job]) (writeLocked env (handled.notifications.map .notification ++ [.ended job.line])
      { s with world, worker := handled.response.elim .ready (.replying job.line) }) := by
  obtain ⟨hjob, hunwritten, hreturned⟩ := workerReplying_phase job.line handled
  have hqueue := h.queue
  have hanswers := h.answers
  have hcalls := h.calls
  have hexited : s.reader ≠ .exited := fun he => by simpa [hw] using h.exited he
  simp only [hw, workerJob, workerUnwritten, List.append_nil, List.map_cons, List.map_nil] at hqueue hanswers hcalls
  exact { h with
    queue := by simpa [writeLocked, hjob] using hqueue
    answers := by simpa [writeLocked, hunwritten] using answers_concat hanswers hone
    inline := by simpa [writeLocked] using h.inline
    calls := by simp [writeLocked, hjob, hcalls]
    returned := fun he => absurd he hreturned
    exited := fun he => absurd he hexited
    output := h.output_append _ }

theorem Inv.workerWritten (h : Inv env w₀ input done s) {line : Nat} {frame : Json}
    (hw : s.worker = .replying line frame) :
    Inv env w₀ input done (writeLocked env [.response { line, queued := true, frame }]
      { s with worker := .ready }) := by
  have hexited : s.reader ≠ .exited := fun he => by simpa [hw] using h.exited he
  exact { h with
    queue := by simpa [writeLocked, hw, workerJob] using h.queue
    answers := by simpa [writeLocked, hw, workerUnwritten] using h.answers
    inline := by simpa [writeLocked] using h.inline
    calls := by simpa [writeLocked, hw, workerJob] using h.calls
    returned := nofun
    exited := fun he => absurd he hexited
    output := h.output_append _ }

theorem Inv.progressWritten (h : Inv env w₀ input done s) (frame : Json) :
    Inv env w₀ input done (writeLocked env [.notification frame] s) :=
  { h with
    answers := by simpa [writeLocked] using h.answers
    inline := by simpa [writeLocked] using h.inline
    calls := by simpa [writeLocked] using h.calls
    output := h.output_append _ }

theorem step_inv (h : Inv env w₀ input done s) {a : ServeAction} (hstep : step env s a = some s') :
    ∃ done', Inv env w₀ input done' s' := by
  cases step_taken hstep with
  | read hr => exact ⟨done, h.readMessage hr⟩
  | push hr =>
      obtain ⟨hflag, hworker⟩ := h.running (by simp [hr, atEnd])
      exact ⟨done, { h with
        ended := by simp [atEnd]
        queue := by simpa [hr, readerJob] using h.queue
        inline := by simpa [hr, readerUnwritten] using h.inline
        handling := by simp
        returned := fun hw => absurd hw hworker
        flag := by simp [hflag]
        exited := by simp }⟩
  | notify hr =>
      obtain ⟨hflag, _⟩ := h.running (by simp [hr, atEnd])
      exact ⟨done, (h.moveReader hr .reading _ rfl rfl rfl id (by simp [hflag]) (by simp) (by simp)).wakeWorker⟩
  | handle hr hone => exact ⟨done, h.handled hr hone⟩
  | readerWrite hr => exact ⟨done, h.readerWritten hr⟩
  | stop hr =>
      exact ⟨done, h.moveReader hr .notifyingAll true rfl rfl rfl (fun _ => rfl) (fun _ => rfl) (by simp) (by simp)⟩
  | notifyAll hr =>
      exact ⟨done, (h.moveReader hr .joining _ rfl rfl rfl id (fun _ => rfl) (by simp) (by simp)).wakeWorker⟩
  | join hr hw => exact ⟨done, h.moveReader hr .exited _ rfl rfl rfl id (fun _ => rfl) (by simp) fun _ => hw⟩
  | check hw => exact ⟨done, h.checkJobs hw⟩
  | wake hw =>
      have hwake : wakeWorker s = { s with worker := .ready } := by simp only [wakeWorker, hw]
      exact ⟨done, hwake ▸ h.wakeWorker⟩
  | progress => exact ⟨done, h.progressWritten _⟩
  | finish hw hone => exact ⟨done ++ [_], h.finished hw hone⟩
  | workerWrite hw => exact ⟨done, h.workerWritten hw⟩

theorem run_inv {as : List ServeAction} {d : Dispatcher} (hrun : run (step env) (start input d) as = some s) :
    ∃ done, Inv env { dispatcher := d } input done s := by
  have hpreserves : ∀ s a s', (∃ done, Inv env { dispatcher := d } input done s) → step env s a = some s' →
      ∃ done, Inv env { dispatcher := d } input done s' := fun _ _ _ ⟨_, h⟩ hstep => step_inv h hstep
  exact run_preserves hpreserves ⟨[], start_inv env input d⟩ hrun

/-- The server that has exited wrote the responses of the one with one thread, at
most one for each message, those of the worker in the order of its messages, and
the worker did one job after another. -/
theorem run_complete (env : ServerEnv) (input : Text) (d : Dispatcher) (as : List ServeAction) (s : ServeState)
    (hrun : run (step env) (start input d) as = some s) (hexited : s.reader = .exited) :
    ∃ frames, sequential env { dispatcher := d } 0 (messages input) = some frames ∧
      frames.Pairwise (·.line < ·.line) ∧
      (responses s.events).Perm frames ∧
      (responses s.events).filter (·.queued) = frames.filter (·.queued) ∧
      callLog s.events =
        (jobsOf env.json (messages input)).flatMap (fun job => [.began job.line, .ended job.line]) ∧
      s.output = s.events.flatMap (written env.json) := by
  obtain ⟨done, h⟩ := run_inv hrun
  have hworker := h.exited hexited
  have hseen : s.seen = messages input := by
    rw [← h.seen, h.ended (by simp [hexited, atEnd]), List.append_nil]
  have hdone : jobsOf env.json (messages input) = done := by
    simpa [hexited, hworker, hseen, readerJob, workerJob, (h.returned hworker).1] using h.queue
  have hanswers := h.answers
  have hinline := h.inline
  simp only [hworker, hexited, workerUnwritten, readerUnwritten, List.append_nil, hseen, ← hdone] at hanswers hinline
  obtain ⟨frames, hframes, hperm, hqueued⟩ := sequential_answers { dispatcher := d } hanswers
  refine ⟨frames, hframes, (sequential_increasing hframes).1, ?_, hqueued.symm, ?_, h.output⟩
  · rw [hinline] at hperm
    exact (List.filter_append_perm _ _).symm.trans hperm.symm
  · simpa [hworker, workerJob, hdone] using h.calls

end JJMCP.ServeComplete
