import JJMCP.CallProgress
import JJMCP.ServeStdio

namespace JJMCP

/-- The server, and the notifications its running call has still to send. -/
structure Reporting where
  serve : ServeState
  due : List (Nat × Text) := []

/-- A job of the worker, and what it sent of its notifications. -/
structure ReportedJob where
  job : Job
  progress : List (Nat × Text)

end JJMCP

namespace JJMCP.ServeReports

open Lib.Lines Lib.Runs Text Marker Mcp Tools EvalCode Poll Scrollback BeginSeen CallProgress
open Serve hiding step start
open ServeComplete

def jobProgress (env : ServerEnv) (request : Json) (w : World) : List (Nat × Text) :=
  match toolCallOf env request w with
  | none => []
  | some c => callProgress env.json c w.dispatcher

/-- The server sends what the running call reports, in order, and nothing else. -/
def step (env : ServerEnv) (s : Reporting) (a : ServeAction) : Option Reporting :=
  match Serve.step env s.serve a with
  | none => none
  | some serve =>
      match a with
      | .check =>
          match serve.worker with
          | .running job => some { serve, due := jobProgress env job.request serve.world }
          | _ => some { serve }
      | .progress count message =>
          match s.due with
          | [] => none
          | p :: due => if p = (count, message) then some { serve, due } else none
      | .finish => if s.due = [] then some { serve } else none
      | _ => some { s with serve }

def start (input : Text) (d : Dispatcher) : Reporting := { serve := Serve.start input d }

def isReport : ServeEvent → Bool
  | .notification frame =>
      match frame.get? (lit "method") with
      | some (.str method) => method = lit "notifications/progress"
      | _ => false
  | _ => false

/-- The starts and ends of jobs and the progress notifications. -/
def reportLog (events : List ServeEvent) : List ServeEvent := events.filter fun e => isCall e || isReport e

def reportEvent (request : Json) (p : Nat × Text) : ServeEvent :=
  .notification (progressFrame (requestToken request) p.1 p.2)

def ReportedJob.events (r : ReportedJob) : List ServeEvent :=
  .began r.job.line :: r.progress.map (reportEvent r.job.request)

def ReportedJob.finished (r : ReportedJob) : List ServeEvent := ReportedJob.events r ++ [.ended r.job.line]

@[simp] theorem reportLog_append (es fs : List ServeEvent) : reportLog (es ++ fs) = reportLog es ++ reportLog fs :=
  List.filter_append es fs

theorem isReport_progress (token : Json) (count : Nat) (message : Text) :
    isReport (.notification (progressFrame token count message)) = true := rfl

@[simp] theorem reportLog_report (request : Json) (p : Nat × Text) :
    reportLog [reportEvent request p] = [reportEvent request p] := by
  rw [reportLog, List.filter_eq_self]
  intro e he
  obtain rfl := List.mem_singleton.mp he
  rw [reportEvent, isReport_progress, Bool.or_true]

variable {env : ServerEnv} {input : Text} {s t : Reporting}

def Silent (o : Option Dispatch) : Prop := ∀ d ∈ o, reportLog (d.notifications.map .notification) = []

theorem silent_answer (response : Json) : Silent (answer response) := by
  rintro d hd
  obtain rfl := Option.some.inj hd
  rfl

theorem response_silent {p : Dispatcher × Reply} (world : Dispatcher → World) (ok : ToolResult → Json)
    (thrown : Text → Json) :
    Silent (match p with
      | (d, none) => (world d, none)
      | (d, some (.ok r)) => (world d, answer (ok r))
      | (d, some (.error what)) => (world d, answer (thrown what))).2 := by
  obtain ⟨d, _ | (what | r)⟩ := p
  · exact nofun
  · exact silent_answer _
  · exact silent_answer _

theorem dispatchToolsCall_silent (request : Json) (w : World) : Silent (dispatchToolsCall env request w).2 := by
  unfold dispatchToolsCall
  dsimp only
  split
  · split
    · split
      · exact response_silent _ _ _
      · exact response_silent _ _ _
      · exact silent_answer _
    · exact silent_answer _
  · exact silent_answer _

theorem dispatchMethod_silent (request : Json) (method : Text) (w : World) :
    Silent (dispatchMethod env request method w).2 := by
  have hcall := @dispatchToolsCall_silent env request w
  have hchanged : Silent (some { notifications := [listChanged], response := .ok none }) := by
    rintro d hd
    obtain rfl := Option.some.inj hd
    rfl
  unfold dispatchMethod
  dsimp only
  split_ifs
  · exact hchanged
  · rintro d hd
    obtain rfl := Option.some.inj hd
    rfl
  all_goals first | exact silent_answer _ | exact hcall

theorem dispatchMcpRequest_silent (request : Json) (w : World) : Silent (dispatchMcpRequest env request w).2 := by
  unfold dispatchMcpRequest
  dsimp only
  split
  · exact silent_answer _
  split
  · rintro d hd
    obtain rfl := Option.some.inj hd
    rfl
  split
  · split
    · exact dispatchMethod_silent request _ w
    · exact silent_answer _
  · exact silent_answer _

/-- No request but a tool call tells of progress. -/
theorem handleRequest_silent {request : Json} {w w' : World} {handled : Handled}
    (h : handleRequest env request w = (w', some handled)) : reportLog (handled.notifications.map .notification) = [] := by
  have hsilent := @dispatchMcpRequest_silent env request w
  unfold handleRequest at h
  split at h
  · cases h
  next d hd =>
    rw [hd] at hsilent
    obtain ⟨-, hhandled⟩ := Prod.mk.inj h
    obtain rfl := Option.some.inj hhandled
    exact hsilent d rfl

theorem handleRequest_world (request : Json) (w : World) :
    (handleRequest env request w).1 = (dispatchMcpRequest env request w).1 := by
  unfold handleRequest
  split
  next he => rw [he]
  next he => rw [he]

theorem isObject_of_value {request : Json} {key default version : Text}
    (h : Json.value Json.readString request key default = .ok version) : request.isObject = true := by
  cases request with
  | obj fields => rfl
  | null | bool | int | float | str | arr => cases h

theorem called_world {p : Dispatcher × Reply} (asked : Nat) (ok : ToolResult → Json) (thrown : Text → Json) :
    (match p with
      | (d, none) => (({ dispatcher := d, asked } : World), none)
      | (d, some (.ok r)) => ({ dispatcher := d, asked }, answer (ok r))
      | (d, some (.error what)) => ({ dispatcher := d, asked }, answer (thrown what))).1 = { dispatcher := p.1, asked } := by
  obtain ⟨d, _ | (what | r)⟩ := p
  · rfl
  · rfl
  · rfl

/-- What the request of a tool call holds. -/
theorem toolCallOf_some {request : Json} {w : World} {c : ToolCall} (h : toolCallOf env request w = some c) :
    ∃ params : List (Text × Json), Json.value Json.readString request (lit "jsonrpc") [] = .ok (lit "2.0") ∧
      request.contains (lit "id") = true ∧ request.get? (lit "method") = some (.str (lit "tools/call")) ∧
      request.get? (lit "params") = some (.obj params) ∧ (Json.obj params).get? (lit "name") = some (.str c.name) ∧
      ((Json.obj params).get? (lit "arguments") = none ∧ c.arguments = [] ∨
        (Json.obj params).get? (lit "arguments") = some (.obj c.arguments)) ∧
      c.progressActive = !(progressToken (.obj params)).isNull ∧ c.answers = env.answers w.asked := by
  unfold toolCallOf at h
  split at h
  next version method params hversion hmethod hparams =>
    split at h
    next hguard =>
      obtain ⟨rfl, rfl, hid⟩ := hguard
      refine ⟨params, hversion, hid, hmethod, hparams, ?_⟩
      split at h
      next name hname =>
        dsimp only at h
        split at h
        next harguments =>
          obtain rfl := Option.some.inj h
          exact ⟨hname, .inl ⟨harguments, rfl⟩, rfl, rfl⟩
        next arguments harguments =>
          obtain rfl := Option.some.inj h
          exact ⟨hname, .inr harguments, rfl, rfl⟩
        next => cases h
      next => cases h
    next => cases h
  next => cases h

/-- The request's tool call is the one that changes the dispatcher. -/
theorem handleRequest_call {request : Json} {w : World} {c : ToolCall} (h : toolCallOf env request w = some c) :
    (handleRequest env request w).1 =
        { dispatcher := (call env.json env.cwd c w.dispatcher).1, asked := w.asked + 1 } ∧
      c.answers = env.answers w.asked ∧ c.progressActive = !(requestToken request).isNull := by
  obtain ⟨params, hversion, hid, hmethod, hparams, hname, harguments, hactive, hanswers⟩ := toolCallOf_some h
  obtain ⟨name, arguments, progressActive, answers⟩ := c
  dsimp only at hname harguments hactive hanswers ⊢
  subst hactive hanswers
  have hdispatch : dispatchMcpRequest env request w = dispatchToolsCall env request w := by
    simp +decide only [dispatchMcpRequest, isObject_of_value hversion, hversion, hmethod, dispatchMethod, hid,
      if_true, if_false]
  have htoken : requestToken request = progressToken (.obj params) := by
    rw [requestToken, methodOf, Json.optionalString, hmethod, if_pos rfl, hparams, Option.getD_some]
  refine ⟨?_, rfl, by rw [htoken]⟩
  rw [handleRequest_world, hdispatch, dispatchToolsCall, hparams]
  dsimp only
  rw [hname]
  dsimp only
  rcases harguments with ⟨harguments, rfl⟩ | harguments
  · rw [harguments]
    exact called_world _ _ _
  · rw [harguments]
    exact called_world _ _ _

variable (env) in
theorem jobProgress_numbered (hprints : ∀ n, PrintsLines (env.answers n).eval) (request : Json) (w : World) :
    Numbered (jobProgress env request w) := by
  unfold jobProgress
  split
  · exact numbered_nil
  next c hc =>
    refine callProgress_numbered ?_ _
    rw [(handleRequest_call hc).2.1]
    exact hprints _

/-- Only a request with a token reports. -/
theorem jobProgress_token {request : Json} {w : World} (h : (requestToken request).isNull = true) :
    jobProgress env request w = [] := by
  unfold jobProgress
  split
  · rfl
  next c hc => exact callProgress_inactive (by rw [(handleRequest_call hc).2.2, h]; rfl) _ _

/-- What a step does with the notifications that are due. -/
inductive Moved (env : ServerEnv) (s t : Reporting) : ServeAction → Prop
  | check (h : t.due = (workerJob t.serve.worker).flatMap fun job => jobProgress env job.request t.serve.world) :
      Moved env s t .check
  | progress {count : Nat} {message : Text} (h : s.due = (count, message) :: t.due) :
      Moved env s t (.progress count message)
  | finish (h : s.due = []) (h' : t.due = []) : Moved env s t .finish
  | other {a : ServeAction} (h : t.due = s.due) (hcheck : a ≠ .check)
      (hprogress : ∀ count message, a ≠ .progress count message) (hfinish : a ≠ .finish) : Moved env s t a

theorem step_moved {a : ServeAction} (h : step env s a = some t) :
    Serve.step env s.serve a = some t.serve ∧ Moved env s t a := by
  unfold step at h
  split at h
  · cases h
  next serve hserve =>
    rw [hserve]
    cases a with
    | check =>
        dsimp only at h
        split at h
        next job hw =>
          obtain rfl := Option.some.inj h
          exact ⟨rfl, .check (by simp [hw, workerJob])⟩
        next hw =>
          obtain rfl := Option.some.inj h
          refine ⟨rfl, .check ?_⟩
          cases hworker : serve.worker with
          | running job => exact absurd hworker (hw job)
          | ready | waiting | replying | returned => rfl
    | progress count message =>
        dsimp only at h
        split at h
        · cases h
        next p due hdue =>
          split at h
          next hp =>
            obtain rfl := Option.some.inj h
            exact ⟨rfl, .progress (by rw [hdue, hp])⟩
          next => cases h
    | finish =>
        dsimp only at h
        split at h
        next hdue =>
          obtain rfl := Option.some.inj h
          exact ⟨rfl, .finish hdue rfl⟩
        next => cases h
    | read | push | notify | handle | readerWrite | stop | notifyAll | join | wake | workerWrite =>
        obtain rfl := Option.some.inj h
        exact ⟨rfl, .other rfl (by simp) (by simp) (by simp)⟩

/-- What the running job has sent and what it has still to send is what its call reports. -/
structure Current (env : ServerEnv) (input : Text) (s : Reporting) (r : ReportedJob) : Prop where
  running : workerJob s.serve.worker = [r.job]
  reports : r.progress ++ s.due = jobProgress env r.job.request s.serve.world
  job : r.job ∈ jobsOf env.json (messages input)

/-- A job that has ended, and sent all that its call reports. -/
structure Reported (env : ServerEnv) (input : Text) (r : ReportedJob) : Prop where
  numbered : Numbered r.progress
  job : r.job ∈ jobsOf env.json (messages input)

/-- The notifications of a job stand between its start and its end. -/
def Account (env : ServerEnv) (input : Text) (s : Reporting) : Prop :=
  ∃ ended : List ReportedJob, (∀ r ∈ ended, Reported env input r) ∧
    ((workerJob s.serve.worker = [] ∧ s.due = [] ∧ reportLog s.serve.events = ended.flatMap ReportedJob.finished) ∨
      ∃ r, Current env input s r ∧
        reportLog s.serve.events = ended.flatMap ReportedJob.finished ++ ReportedJob.events r)

theorem Account.same (h : Account env input s) (hlog : reportLog t.serve.events = reportLog s.serve.events)
    (hworker : workerJob t.serve.worker = workerJob s.serve.worker) (hworld : t.serve.world = s.serve.world)
    (hdue : t.due = s.due) : Account env input t := by
  obtain ⟨ended, hended, ⟨hidle, hnone, hlog'⟩ | ⟨r, hr, hlog'⟩⟩ := h
  · exact ⟨ended, hended, .inl ⟨hworker.trans hidle, hdue.trans hnone, hlog.trans hlog'⟩⟩
  · refine ⟨ended, hended, .inr ⟨r, ⟨hworker.trans hr.running, ?_, hr.job⟩, hlog.trans hlog'⟩⟩
    rw [hdue, hworld]
    exact hr.reports

theorem jobsOf_append (json : JsonLib) (as bs : List Text) : jobsOf json as <+: jobsOf json (as ++ bs) := by
  simp only [jobsOf, byLine, List.zipIdx_append, List.flatMap_append]
  exact List.prefix_append _ _

theorem wakeWorker_job (s : ServeState) : workerJob (wakeWorker s).worker = workerJob s.worker := by
  unfold wakeWorker
  split
  next h => rw [h]; rfl
  next => rfl

theorem wakeWorker_keeps (s : ServeState) : (wakeWorker s).events = s.events ∧ (wakeWorker s).world = s.world := by
  unfold wakeWorker
  split
  · exact ⟨rfl, rfl⟩
  · exact ⟨rfl, rfl⟩

section Step

variable {w₀ : World} {done : List Job}

theorem Account.idle (h : Account env input s) (hidle : workerJob s.serve.worker = []) :
    ∃ ended : List ReportedJob, (∀ r ∈ ended, Reported env input r) ∧ s.due = [] ∧
      reportLog s.serve.events = ended.flatMap ReportedJob.finished := by
  obtain ⟨ended, hended, ⟨-, hnone, hlog⟩ | ⟨r, hr, -⟩⟩ := h
  · exact ⟨ended, hended, hnone, hlog⟩
  · exact absurd (hidle.symm.trans hr.running) (by simp)

theorem Account.running (h : Account env input s) {job : Job} (hw : s.serve.worker = .running job) :
    ∃ ended : List ReportedJob, (∀ r ∈ ended, Reported env input r) ∧ ∃ sent, Current env input s ⟨job, sent⟩ ∧
      reportLog s.serve.events = ended.flatMap ReportedJob.finished ++ ReportedJob.events ⟨job, sent⟩ := by
  obtain ⟨ended, hended, ⟨hidle, -⟩ | ⟨⟨job', sent⟩, hr, hlog⟩⟩ := h
  · exact absurd hidle (by simp [hw, workerJob])
  · have hjob : job = job' := by simpa [hw, workerJob] using hr.running
    subst hjob
    exact ⟨ended, hended, sent, hr, hlog⟩

theorem queued_job (hinv : Inv env w₀ input done s.serve) {job : Job} (hw : workerJob s.serve.worker = [job]) :
    job ∈ jobsOf env.json (messages input) := by
  rw [← hinv.seen]
  refine (jobsOf_append _ _ _).subset ?_
  rw [hinv.queue, hw]
  simp

theorem Account.check (hinv : Inv env w₀ input done t.serve) (h : Account env input s) (hw : s.serve.worker = .ready)
    (hserve : t.serve = checkJobs env s.serve)
    (hdue : t.due = (workerJob t.serve.worker).flatMap fun job => jobProgress env job.request t.serve.world) :
    Account env input t := by
  obtain ⟨ended, hended, -, hlog⟩ := h.idle (by rw [hw]; rfl)
  unfold checkJobs at hserve
  split at hserve
  next =>
    rw [hserve] at hdue
    exact ⟨ended, hended, .inl ⟨by rw [hserve]; rfl, hdue, by rw [hserve]; exact hlog⟩⟩
  next =>
    rw [hserve] at hdue
    exact ⟨ended, hended, .inl ⟨by rw [hserve]; rfl, hdue, by rw [hserve]; exact hlog⟩⟩
  next job jobs _ =>
    have hworker : workerJob t.serve.worker = [job] := by rw [hserve]; rfl
    have hbegan : reportLog t.serve.events = ended.flatMap ReportedJob.finished ++ ReportedJob.events ⟨job, []⟩ := by
      rw [hserve, ← hlog]
      exact reportLog_append _ _
    refine ⟨ended, hended, .inr ⟨⟨job, []⟩, ⟨hworker, ?_, queued_job hinv hworker⟩, hbegan⟩⟩
    rw [hdue, hworker, List.flatMap_singleton, List.nil_append]

theorem Account.progress (h : Account env input s) {job : Job} {p : Nat × Text} (hw : s.serve.worker = .running job)
    (hserve : t.serve = writeLocked env [reportEvent job.request p] s.serve) (hdue : s.due = p :: t.due) :
    Account env input t := by
  obtain ⟨ended, hended, sent, hr, hlog⟩ := h.running hw
  refine ⟨ended, hended, .inr ⟨⟨job, sent ++ [p]⟩, ⟨by rw [hserve]; exact hr.running, ?_, hr.job⟩, ?_⟩⟩
  · have hreports := hr.reports
    rw [hdue] at hreports
    rw [hserve, List.append_assoc, List.singleton_append]
    exact hreports
  · have hevents : t.serve.events = s.serve.events ++ [reportEvent job.request p] := by rw [hserve]; rfl
    rw [hevents, reportLog_append, reportLog_report, hlog, List.append_assoc]
    simp [ReportedJob.events]

theorem Account.finish (hprints : ∀ n, PrintsLines (env.answers n).eval) (h : Account env input s) {job : Job}
    (hw : s.serve.worker = .running job) (hnone : s.due = []) (hworker : workerJob t.serve.worker = [])
    (hlog' : reportLog t.serve.events = reportLog s.serve.events ++ [.ended job.line]) (hdue : t.due = []) :
    Account env input t := by
  obtain ⟨ended, hended, sent, hr, hlog⟩ := h.running hw
  have hreports : sent = jobProgress env job.request s.serve.world := by simpa [hnone] using hr.reports
  have hnumbered : Numbered sent := by
    rw [hreports]
    exact jobProgress_numbered env hprints _ _
  refine ⟨ended ++ [⟨job, sent⟩], ?_, .inl ⟨hworker, hdue, ?_⟩⟩
  · intro r hmem
    rcases List.mem_append.mp hmem with hmem | hmem
    · exact hended r hmem
    · exact List.mem_singleton.mp hmem ▸ ⟨hnumbered, hr.job⟩
  · rw [hlog', hlog, List.flatMap_append, List.flatMap_singleton, ReportedJob.finished, List.append_assoc]

theorem Moved.due {a : ServeAction} (h : Moved env s t a) (hcheck : a ≠ .check)
    (hprogress : ∀ count message, a ≠ .progress count message) (hfinish : a ≠ .finish) : t.due = s.due := by
  cases h with
  | check => exact absurd rfl hcheck
  | progress => exact absurd rfl (hprogress _ _)
  | finish => exact absurd rfl hfinish
  | other h => exact h

/-- A step keeps the account: what is sent between the start and the end of a job is
the next of what its call reports. -/
theorem step_account (hprints : ∀ n, PrintsLines (env.answers n).eval) (hinv : Inv env w₀ input done s.serve)
    (h : Account env input s) {a : ServeAction} (hstep : step env s a = some t) : Account env input t := by
  obtain ⟨hserve, hmoved⟩ := step_moved hstep
  obtain ⟨done', hinv'⟩ := step_inv hinv hserve
  have htaken := step_taken hserve
  generalize hu : t.serve = u at htaken
  cases htaken with
  | read hr =>
      refine h.same ?_ ?_ ?_ (hmoved.due (by simp) (by simp) (by simp))
      all_goals
        rw [hu, readMessage]
        split
        · rfl
        · rfl
  | push hr => exact h.same (by rw [hu]) (by rw [hu]) (by rw [hu]) (hmoved.due (by simp) (by simp) (by simp))
  | notify hr =>
      have hkeeps := wakeWorker_keeps { s.serve with reader := .reading }
      exact h.same (by rw [hu, hkeeps.1]) (by rw [hu, wakeWorker_job]) (by rw [hu, hkeeps.2])
        (hmoved.due (by simp) (by simp) (by simp))
  | handle hr hone =>
      obtain ⟨handled, hinline⟩ := handleRequest_inline env (hinv.handling _ hr)
      obtain ⟨hworld, -⟩ := Prod.mk.inj ((hinline s.serve.world).symm.trans hone)
      refine h.same ?_ (by rw [hu]; rfl) (by rw [hu]; exact hworld.symm) (hmoved.due (by simp) (by simp) (by simp))
      rw [hu]
      exact (reportLog_append _ _).trans (by rw [handleRequest_silent hone, List.append_nil])
  | readerWrite hr =>
      refine h.same ?_ (by rw [hu]; rfl) (by rw [hu]; rfl) (hmoved.due (by simp) (by simp) (by simp))
      rw [hu]
      exact (reportLog_append _ _).trans (List.append_nil _)
  | stop hr => exact h.same (by rw [hu]) (by rw [hu]) (by rw [hu]) (hmoved.due (by simp) (by simp) (by simp))
  | notifyAll hr =>
      have hkeeps := wakeWorker_keeps { s.serve with reader := .joining }
      exact h.same (by rw [hu, hkeeps.1]) (by rw [hu, wakeWorker_job]) (by rw [hu, hkeeps.2])
        (hmoved.due (by simp) (by simp) (by simp))
  | join hr hw => exact h.same (by rw [hu]) (by rw [hu]) (by rw [hu]) (hmoved.due (by simp) (by simp) (by simp))
  | check hw =>
      refine h.check hinv' hw hu ?_
      cases hmoved with
      | check hdue => exact hdue
      | other _ hcheck => exact absurd rfl hcheck
  | wake hw =>
      exact h.same (by rw [hu]) (by rw [hu, hw]; rfl) (by rw [hu]) (hmoved.due (by simp) (by simp) (by simp))
  | @progress job count message hw htoken =>
      refine h.progress (p := (count, message)) hw hu ?_
      cases hmoved with
      | progress hdue => exact hdue
      | other _ _ hprogress => exact absurd rfl (hprogress _ _)
  | @finish job world handled hw hone =>
      have hlog : reportLog t.serve.events = reportLog s.serve.events ++ [.ended job.line] := by
        rw [hu]
        refine (reportLog_append _ _).trans ?_
        rw [reportLog_append, handleRequest_silent hone]
        rfl
      have hidle : workerJob t.serve.worker = [] := by
        rw [hu]
        exact (workerReplying_phase job.line handled).1
      cases hmoved with
      | finish hnone hdue => exact h.finish hprints hw hnone hidle hlog hdue
      | other _ _ _ hfinish => exact absurd rfl hfinish
  | workerWrite hw =>
      refine h.same ?_ (by rw [hu, hw]; rfl) (by rw [hu]; rfl) (hmoved.due (by simp) (by simp) (by simp))
      rw [hu]
      exact (reportLog_append _ _).trans (List.append_nil _)

end Step

theorem run_account (hprints : ∀ n, PrintsLines (env.answers n).eval) {d : Dispatcher} {as : List ServeAction}
    (hrun : run (step env) (start input d) as = some t) :
    (∃ done, Inv env { dispatcher := d } input done t.serve) ∧ Account env input t := by
  have hpreserves : ∀ s a s', ((∃ done, Inv env { dispatcher := d } input done s.serve) ∧ Account env input s) →
      step env s a = some s' → (∃ done, Inv env { dispatcher := d } input done s'.serve) ∧ Account env input s' := by
    rintro s a s' ⟨⟨done, hinv⟩, h⟩ hstep
    exact ⟨step_inv hinv (step_moved hstep).1, step_account hprints hinv h hstep⟩
  refine run_preserves hpreserves ⟨⟨[], start_inv env input d⟩, [], ?_, .inl ⟨rfl, rfl, rfl⟩⟩ hrun
  exact fun r hr => absurd hr List.not_mem_nil

/-- A notification that is due can be sent. -/
theorem Current.sends {r : ReportedJob} (h : Current env input s r) {p : Nat × Text} {due : List (Nat × Text)}
    (hdue : s.due = p :: due) : (step env s (.progress p.1 p.2)).isSome = true := by
  have htoken : (requestToken r.job.request).isNull = false := by
    by_contra hnull
    have hreports := h.reports
    rw [jobProgress_token (by simpa using hnull), hdue] at hreports
    simp at hreports
  cases hw : s.serve.worker with
  | running job =>
      have hjob : job = r.job := by simpa [hw, workerJob] using h.running
      subst hjob
      simp [step, Serve.step, hw, htoken, hdue]
  | ready | waiting | replying | returned =>
      have hrunning := h.running
      simp [hw, workerJob] at hrunning

theorem run_serve_reports {as : List ServeAction} (hrun : run (step env) s as = some t) :
    run (Serve.step env) s.serve as = some t.serve := by
  induction as generalizing s with
  | nil =>
      obtain rfl := Option.some.inj hrun
      rfl
  | cons a as ih =>
      obtain ⟨s', ha, hrest⟩ := run_cons_some hrun
      rw [run, (step_moved ha).1]
      exact ih hrest

/-- However the two threads interleave, and in whatever pieces they write: the progress
notifications on stdout stand between the start and the end of the call they belong to,
carry its token and are numbered from one. What the running call has still to report can
be sent, or a write that is under way can go on. -/
theorem reports_in_order (hprints : ∀ n, PrintsLines (env.answers n).eval) {d : Dispatcher} {as : List StdioAction}
    {u : StdioState} (hkept : Meets (ServeStdio.step env) ServeStdio.Kept (ServeStdio.start input d) as)
    (hrun : run (ServeStdio.step env) (ServeStdio.start input d) as = some u)
    (hreports : run (step env) (start input d) (ServeStdio.serveActions as) = some t) :
    (∃ unwritten, u.stdout ++ unwritten = u.serve.events.flatMap (written env.json) ∧
      (u.stdoutMutex = none → unwritten = [])) ∧
    (∃ ended : List ReportedJob, (∀ r ∈ ended, Numbered r.progress ∧ r.job ∈ jobsOf env.json (messages input)) ∧
      (reportLog u.serve.events = ended.flatMap ReportedJob.finished ∨
        ∃ r : ReportedJob, Numbered r.progress ∧ r.job ∈ jobsOf env.json (messages input) ∧
          workerJob u.serve.worker = [r.job] ∧
          reportLog u.serve.events = ended.flatMap ReportedJob.finished ++ ReportedJob.events r)) ∧
    ∀ p due, t.due = p :: due → ∃ b, (ServeStdio.isPiece b = true ∨ b = .serve (.progress p.1 p.2)) ∧
      (ServeStdio.step env u b).isSome = true := by
  obtain ⟨⟨done, hinv⟩, ended, hended, hnow⟩ := run_account hprints hreports
  have hserve := ServeStdio.run_serve (hkept.mono fun _ _ h => h.1) hrun
  have hsame : t.serve = u.serve := Option.some.inj ((run_serve_reports hreports).symm.trans hserve)
  have hstreamed := ServeStdio.run_streamed (ServeStdio.start_streamed input d) (hkept.mono fun _ _ h => h.2) hrun
  have hheld := ServeStdio.run_held (ServeStdio.start_held input d) hrun
  have hoff : u.serve.output = u.serve.events.flatMap (written env.json) := hsame ▸ hinv.output
  refine ⟨hoff ▸ hstreamed.stdout hheld, ⟨ended, fun r hr => ⟨(hended r hr).numbered, (hended r hr).job⟩, ?_⟩,
    fun p due hdue => ?_⟩
  · rw [← hsame]
    rcases hnow with ⟨-, -, hlog⟩ | ⟨r, hr, hlog⟩
    · exact .inl hlog
    · have hall : Numbered (r.progress ++ t.due) := hr.reports ▸ jobProgress_numbered env hprints _ _
      exact .inr ⟨r, hall.isPrefix, hr.job, hr.running, hlog⟩
  · have hsends : (Serve.step env u.serve (.progress p.1 p.2)).isSome = true := by
      rcases hnow with ⟨-, hnone, -⟩ | ⟨r, hr, -⟩
      · exact absurd (hnone.symm.trans hdue) (by simp)
      · obtain ⟨t', ht'⟩ := Option.isSome_iff_exists.mp (hr.sends hdue)
        rw [← hsame, (step_moved ht').1]
        rfl
    obtain ⟨b, hb, hsome⟩ := ServeStdio.takes_step hheld hsends
    refine ⟨b, hb.imp_right fun h => ?_, hsome⟩
    exact h.resolve_left fun hread => Bool.false_ne_true hread.1

def reportedRequest : Json :=
  .obj [(lit "id", .int 4), (lit "jsonrpc", .str (lit "2.0")), (lit "method", .str (lit "tools/call")),
    (lit "params", .obj [(lit "_meta", .obj [(lit "progressToken", .int 7)]),
      (lit "arguments", .obj [(lit "code", .str (lit "println(\"a\"^4200)"))]), (lit "name", .str (lit "jjmcp_eval"))])]

def reportedText : Text :=
  lit "\x7b\"id\":4,\"jsonrpc\":\"2.0\",\"method\":\"tools/call\",\"params\":\x7b\"_meta\":\x7b\"progressToken\":7\x7d," ++
    lit "\"arguments\":\x7b\"code\":\"println(\\\"a\\\"^4200)\"\x7d,\"name\":\"jjmcp_eval\"\x7d\x7d"

def printedLines : List Text :=
  [lit "__JJMCP_BEGIN_1_1_1__", List.replicate 4200 97, lit "__JJMCP_OUT_END_1_1_1__", lit "__JJMCP_VAL_END_1_1_1__",
    lit "__JJMCP_END_1_1_1__"]

def reportedAnswers : EvalAnswers where
  paneInfo := .ok { paneId := lit "%3" }
  install := { generation := lit "10:20" }
  pass := { micros := 1, polls := [{ captured := .ok (unlines nl printedLines) }] }

def reportedEnv : ServerEnv where
  json := { parse := fun body => if body = reportedText then .ok reportedRequest else .error [], dump := fun _ => [] }
  cwd := ⟨true, []⟩
  toolTable := fun _ => .arr []
  answers := fun _ => { eval := reportedAnswers, paneInfo := .ok { paneId := lit "%3" } }
  fileExists := fun _ _ => false
  fileText := fun _ _ => []

def installedServer : Dispatcher where
  session := { server := { binding := some { target := lit "%3", paneId := lit "%3", projectRoot := [] },
                           configPath := ⟨true, []⟩ }
               cache := fun _ => some (lit "10:20") }

theorem opening_isInfix (m : Marker) : lit "__JJMCP_BEGIN_" <:+: m.beginMark := by
  rw [beginMark, List.append_assoc]
  exact (List.prefix_append _ _).isInfix

theorem printed_once (m : Marker) : Printed m (unlines nl printedLines) := by
  have hnl : ∀ l ∈ printedLines, nl ∉ l := by
    simp only [printedLines, List.forall_mem_cons]
    refine ⟨by decide, fun h => ?_, by decide, by decide, by decide, fun _ h => absurd h List.not_mem_nil⟩
    exact absurd (List.eq_of_mem_replicate h) (by decide)
  refine ⟨terminated_unlines _, fun l hl hsuffix => ?_⟩
  have hopening := (opening_isInfix m).trans (hsuffix.isInfix.trans (trimAscii_isInfix l))
  rw [closedLines_unlines hnl] at hl
  simp only [printedLines, List.mem_cons, List.not_mem_nil, or_false] at hl
  rcases hl with rfl | rfl | rfl | rfl | rfl
  · have htrim : trimAscii (lit "__JJMCP_BEGIN_1_1_1__") = lit "__JJMCP_BEGIN_1_1_1__" := by decide
    rw [htrim] at hsuffix ⊢
    rcases List.suffix_cons_iff.mp hsuffix with h | h
    · exact h.symm
    · exact absurd ((opening_isInfix m).trans h.isInfix) (by decide)
  · have hmem : (95 : UInt8) ∈ List.replicate 4200 97 := hopening.subset (by decide)
    exact absurd (List.eq_of_mem_replicate hmem) (by decide)
  · exact absurd hopening (by decide)
  · exact absurd hopening (by decide)
  · exact absurd hopening (by decide)

/-- The call runs, and its notification is due. -/
def reportedActions : List StdioAction :=
  [.sentry, .serve .read, .serve .push, .serve .notify, .serve .check, .sentry, .serve .read, .serve .stop]

def reported : Reporting :=
  (run (step reportedEnv) (start reportedText installedServer) (ServeStdio.serveActions reportedActions)).get
    (by decide +kernel)

def reportedStdio : StdioState :=
  (run (ServeStdio.step reportedEnv) (ServeStdio.start reportedText installedServer) reportedActions).get
    (by decide +kernel)

theorem reports_in_order_running :
    (∃ unwritten, reportedStdio.stdout ++ unwritten = reportedStdio.serve.events.flatMap (written reportedEnv.json) ∧
      (reportedStdio.stdoutMutex = none → unwritten = [])) ∧
    (∃ ended : List ReportedJob,
      (∀ r ∈ ended, Numbered r.progress ∧ r.job ∈ jobsOf reportedEnv.json (messages reportedText)) ∧
      (reportLog reportedStdio.serve.events = ended.flatMap ReportedJob.finished ∨
        ∃ r : ReportedJob, Numbered r.progress ∧ r.job ∈ jobsOf reportedEnv.json (messages reportedText) ∧
          workerJob reportedStdio.serve.worker = [r.job] ∧
          reportLog reportedStdio.serve.events = ended.flatMap ReportedJob.finished ++ ReportedJob.events r)) ∧
    ∀ p due, reported.due = p :: due → ∃ b, (ServeStdio.isPiece b = true ∨ b = .serve (.progress p.1 p.2)) ∧
      (ServeStdio.step reportedEnv reportedStdio b).isSome = true := by
  have hprints : ∀ n, PrintsLines (reportedEnv.answers n).eval := by
    intro n micros sequence cap hcap
    obtain rfl := List.mem_singleton.mp hcap
    exact printed_once _
  have hkept : Meets (ServeStdio.step reportedEnv) ServeStdio.Kept (ServeStdio.start reportedText installedServer)
      reportedActions := by
    decide +kernel
  have hrun : run (ServeStdio.step reportedEnv) (ServeStdio.start reportedText installedServer) reportedActions =
      some reportedStdio := (Option.some_get _).symm
  have hreports : run (step reportedEnv) (start reportedText installedServer)
      (ServeStdio.serveActions reportedActions) = some reported := (Option.some_get _).symm
  exact reports_in_order hprints hkept hrun hreports

end JJMCP.ServeReports
