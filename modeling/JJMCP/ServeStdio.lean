import JJMCP.ServeProgress

namespace JJMCP

inductive ServeThread
  | reader | worker
deriving DecidableEq

/-- A frame that the thread with stdout_mutex puts into the buffer of std::cout. -/
structure FrameWrite where
  thread : ServeThread
  rest : Text

/-- The server with the two streams it shares: std::cout has one buffer for both
threads, and the input may be read by a child process. A thread that is flushing has
written the buffer out and not yet reset it. -/
structure StdioState where
  serve : ServeState
  sentry : Bool := false
  stdoutMutex : Option FrameWrite := none
  buffer : Text := []
  flushing : List ServeThread := []
  stdout : Text := []

inductive StdioAction
  | serve (a : ServeAction)
  | put (count : Nat) | flush (t : ServeThread) | reset (t : ServeThread) | unlock
  | sentry
  | childReads (ahead count : Nat)

end JJMCP

namespace JJMCP.ServeStdio

open Lib.Runs Text Mcp ServeComplete ServeProgress
open Serve hiding step start Taken

def threadOf : ServeAction → ServeThread
  | .read | .push | .notify | .handle | .readerWrite | .stop | .notifyAll | .join => .reader
  | .check | .wake | .progress _ _ | .finish | .workerWrite => .worker

def isRead : ServeAction → Bool
  | .read => true
  | _ => false

/-- The code that eval hands to the syntax check. -/
def validatedCode (c : ToolCall) : Option Text :=
  let args := Json.obj c.arguments
  match args.requireString "code", Json.value Json.readBool args (lit "force") false,
      Json.value Json.readBool args (lit "validate_syntax") true with
  | .ok code, .ok _, .ok true =>
      let transport := args.optionalString "transport" (lit "auto")
      if transport = lit "auto" ∨ transport = lit "tmux" ∨ transport = lit "socket" then some code else none
  | _, _, _ => none

/-- Without stdin_data a child gets no pipe and keeps the stdin of the server. -/
def checksOnStdin (c : ToolCall) : Bool := c.name = lit "jjmcp_eval" ∧ validatedCode c = some []

/-- The running call has a child on the server's stdin, for as long as its check lasts. -/
def childOnStdin (env : ServerEnv) (s : ServeState) : Bool :=
  match s.worker with
  | .running job => (toolCallOf env job.request s.world).any checksOnStdin
  | _ => false

/-- A thread that flushes std::cout without the mutex: the read thread in getline on
std::cin, either thread in a log line on std::cerr. Both streams are tied to std::cout. -/
def tied (s : ServeState) : ServeThread → Bool
  | .reader =>
      match s.reader with
      | .reading | .handling _ => true
      | _ => false
  | .worker =>
      match s.worker with
      | .running _ => true
      | _ => false

def locks (s : StdioState) (t : ServeThread) : Bool := s.stdoutMutex.any (·.thread = t)

def busy (s : StdioState) (t : ServeThread) : Bool := locks s t || t ∈ s.flushing

/-- The thread takes the mutex to write what its step has written. -/
def lockStdout (t : ServeThread) (frame : Text) (s : StdioState) : Option StdioState :=
  if frame = [] then some s
  else
    match s.stdoutMutex with
    | none => some { s with stdoutMutex := some ⟨t, frame⟩ }
    | some _ => none

/-- One step of a thread, or a child that takes bytes of the input the reader has not
yet. The stream library flushes a buffer that is not empty, and resets it after. -/
def step (env : ServerEnv) (s : StdioState) : StdioAction → Option StdioState
  | .serve a =>
      if busy s (threadOf a) ∨ isRead a ∧ s.sentry = false then none
      else
        match Serve.step env s.serve a with
        | none => none
        | some serve =>
            lockStdout (threadOf a) (serve.output.drop s.serve.output.length)
              { s with serve, sentry := s.sentry && !isRead a }
  | .put count =>
      match s.stdoutMutex with
      | none => none
      | some w =>
          if w.thread ∈ s.flushing ∨ count = 0 ∨ w.rest = [] then none
          else
            some { s with
              buffer := s.buffer ++ w.rest.take count
              stdoutMutex := some { w with rest := w.rest.drop count } }
  | .flush t =>
      if s.buffer = [] ∨ t ∈ s.flushing ∨ (locks s t || tied s.serve t) = false then none
      else some { s with stdout := s.stdout ++ s.buffer, flushing := t :: s.flushing }
  | .reset t =>
      if t ∈ s.flushing then some { s with buffer := [], flushing := s.flushing.erase t } else none
  | .unlock =>
      match s.stdoutMutex with
      | none => none
      | some w =>
          if w.thread ∈ s.flushing ∨ w.rest ≠ [] ∨ s.buffer ≠ [] then none else some { s with stdoutMutex := none }
  | .sentry =>
      match s.serve.reader with
      | .reading =>
          if busy s .reader ∨ s.buffer ≠ [] ∨ s.sentry = true then none else some { s with sentry := true }
      | _ => none
  | .childReads ahead count =>
      if childOnStdin env s.serve then
        let input := s.serve.input.take ahead ++ s.serve.input.drop (ahead + count)
        some { s with serve := { s.serve with input } }
      else none

def start (input : Text) (d : Dispatcher) : StdioState := { serve := Serve.start input d }

def ofChild : StdioAction → Bool
  | .childReads _ _ => true
  | _ => false

/-- A step that puts bytes into the buffer or writes it out. -/
def touches : StdioAction → Bool
  | .put _ | .flush _ => true
  | _ => false

/-- No child takes a byte of the server's stdin. -/
def OwnStdin (_ : StdioState) (a : StdioAction) : Prop := ofChild a = false

/-- Nobody touches the buffer of std::cout while another thread has written it out and
not yet reset it. -/
def Apart (s : StdioState) (a : StdioAction) : Prop := touches a = true → s.flushing = []

def Kept (s : StdioState) (a : StdioAction) : Prop := OwnStdin s a ∧ Apart s a

instance (s : StdioState) (a : StdioAction) : Decidable (OwnStdin s a) :=
  inferInstanceAs (Decidable (ofChild a = false))

instance (s : StdioState) (a : StdioAction) : Decidable (Kept s a) :=
  inferInstanceAs (Decidable (ofChild a = false ∧ (touches a = true → s.flushing = [])))

/-- What a step does, and what holds when it is taken. -/
inductive Moved (env : ServerEnv) (s : StdioState) : StdioAction → StdioState → Prop
  | quiet {a : ServeAction} {serve : ServeState} (hbusy : busy s (threadOf a) = false)
      (hread : isRead a = true → s.sentry = true) (hserve : Serve.step env s.serve a = some serve)
      (hout : serve.output = s.serve.output) :
      Moved env s (.serve a) { s with serve, sentry := s.sentry && !isRead a }
  | locked {a : ServeAction} {serve : ServeState} {frame : Text} (hbusy : busy s (threadOf a) = false)
      (hread : isRead a = true → s.sentry = true) (hserve : Serve.step env s.serve a = some serve)
      (hfree : s.stdoutMutex = none) (hframe : frame ≠ []) (hout : serve.output = s.serve.output ++ frame) :
      Moved env s (.serve a)
        { s with serve, sentry := s.sentry && !isRead a, stdoutMutex := some ⟨threadOf a, frame⟩ }
  | put {w : FrameWrite} {count : Nat} (hw : s.stdoutMutex = some w) (hcount : count ≠ 0) (hrest : w.rest ≠ []) :
      Moved env s (.put count)
        { s with buffer := s.buffer ++ w.rest.take count, stdoutMutex := some { w with rest := w.rest.drop count } }
  | flush {t : ServeThread} (hbuffer : s.buffer ≠ []) (ht : t ∉ s.flushing) :
      Moved env s (.flush t) { s with stdout := s.stdout ++ s.buffer, flushing := t :: s.flushing }
  | reset {t : ServeThread} (ht : t ∈ s.flushing) :
      Moved env s (.reset t) { s with buffer := [], flushing := s.flushing.erase t }
  | unlock {w : FrameWrite} (hw : s.stdoutMutex = some w) (hrest : w.rest = []) (hbuffer : s.buffer = []) :
      Moved env s .unlock { s with stdoutMutex := none }
  | sentry (hdue : s.sentry = false) : Moved env s .sentry { s with sentry := true }
  | childReads {ahead count : Nat} (hchild : childOnStdin env s.serve = true) :
      Moved env s (.childReads ahead count) { s with
        serve := { s.serve with input := s.serve.input.take ahead ++ s.serve.input.drop (ahead + count) } }

variable {env : ServerEnv} {input : Text} {s s' t : StdioState}

/-- A step of the server only adds to its output. -/
theorem step_output {s s' : ServeState} {a : ServeAction} (h : Serve.step env s a = some s') :
    s'.output = s.output ++ s'.output.drop s.output.length := by
  have hsame : s.output = s.output ++ s.output.drop s.output.length := by simp
  have hadds (frame : Text) : s.output ++ frame = s.output ++ (s.output ++ frame).drop s.output.length := by simp
  cases step_taken h with
  | read =>
      unfold readMessage
      split <;> exact hsame
  | notify | notifyAll =>
      unfold wakeWorker
      split <;> exact hsame
  | push | stop | join | wake => exact hsame
  | handle | readerWrite | progress | finish | workerWrite => exact hadds _
  | check =>
      unfold checkJobs
      split
      · exact hsame
      · exact hsame
      · exact hadds _

theorem step_moved {a : StdioAction} (h : step env s a = some s') : Moved env s a s' := by
  cases a with
  | serve a =>
      simp only [step] at h
      split at h
      · cases h
      next hguard =>
        rw [not_or, Bool.not_eq_true, not_and, Bool.not_eq_false] at hguard
        obtain ⟨hbusy, hread⟩ := hguard
        split at h
        · cases h
        next serve hserve =>
          have hout := step_output hserve
          unfold lockStdout at h
          split at h
          next hnone =>
            obtain rfl := Option.some.inj h
            rw [hnone, List.append_nil] at hout
            exact .quiet hbusy hread hserve hout
          next hframe =>
            split at h
            next hfree =>
              obtain rfl := Option.some.inj h
              exact .locked hbusy hread hserve hfree hframe hout
            · cases h
  | put count =>
      simp only [step] at h
      split at h
      · cases h
      next w hw =>
        split at h
        · cases h
        next hguard =>
          obtain rfl := Option.some.inj h
          rw [not_or, not_or] at hguard
          exact .put hw hguard.2.1 hguard.2.2
  | flush t =>
      simp only [step] at h
      split at h
      · cases h
      next hguard =>
        obtain rfl := Option.some.inj h
        rw [not_or, not_or] at hguard
        exact .flush hguard.1 hguard.2.1
  | reset t =>
      simp only [step] at h
      split at h
      next ht =>
        obtain rfl := Option.some.inj h
        exact .reset ht
      · cases h
  | unlock =>
      simp only [step] at h
      split at h
      · cases h
      next w hw =>
        split at h
        · cases h
        next hguard =>
          obtain rfl := Option.some.inj h
          rw [not_or, not_or, not_not, not_not] at hguard
          exact .unlock hw hguard.2.1 hguard.2.2
  | sentry =>
      simp only [step] at h
      split at h
      · split at h
        · cases h
        next hguard =>
          obtain rfl := Option.some.inj h
          rw [not_or, not_or] at hguard
          exact .sentry (Bool.eq_false_iff.mpr hguard.2.2)
      · cases h
  | childReads ahead count =>
      simp only [step] at h
      split at h
      next hchild =>
        obtain rfl := Option.some.inj h
        exact .childReads hchild
      · cases h

def serveAction? : StdioAction → Option ServeAction
  | .serve a => some a
  | _ => none

/-- The steps of the two threads in a run. -/
def serveActions (as : List StdioAction) : List ServeAction := as.filterMap serveAction?

@[simp] theorem serveActions_nil : serveActions [] = [] := rfl

@[simp] theorem serveActions_serve (a : ServeAction) (as : List StdioAction) :
    serveActions (.serve a :: as) = a :: serveActions as := rfl

theorem serveActions_other {a : StdioAction} (h : serveAction? a = none) (as : List StdioAction) :
    serveActions (a :: as) = serveActions as := List.filterMap_cons_none h

/-- Where no child reads the input, the server takes the steps it would take alone. -/
theorem run_serve {as : List StdioAction} (hown : Meets (step env) OwnStdin s as) (hrun : run (step env) s as = some t) :
    run (Serve.step env) s.serve (serveActions as) = some t.serve := by
  induction as generalizing s with
  | nil =>
      obtain rfl := Option.some.inj hrun
      rfl
  | cons a as ih =>
      obtain ⟨s', ha, hrest⟩ := run_cons_some hrun
      obtain ⟨hown', hmeets⟩ := hown
      rw [ha] at hmeets
      have hserve := ih hmeets hrest
      cases step_moved ha with
      | quiet _ _ hstep | locked _ _ hstep =>
          rw [serveActions_serve, run, hstep]
          exact hserve
      | put | flush | reset | unlock | sentry =>
          rw [serveActions_other rfl]
          exact hserve
      | childReads => cases hown'

/-- The thread has not come to its end. -/
def working (s : ServeState) : ServeThread → Prop
  | .reader => atEnd s.reader = false
  | .worker => s.worker ≠ .returned

/-- What one thread does ends no other. -/
theorem working_other {s s' : ServeState} {a : ServeAction} {u : ServeThread} (h : Serve.step env s a = some s')
    (hu : threadOf a ≠ u) (hs : working s u) : working s' u := by
  have hwake (v : ServeState) (hv : working v .worker) : working (wakeWorker v) .worker := by
    unfold wakeWorker
    split
    · simp [working]
    · exact hv
  cases u with
  | reader =>
      cases step_taken h with
      | read | push | notify | handle | readerWrite | stop | notifyAll | join => exact absurd rfl hu
      | wake | progress | finish | workerWrite => exact hs
      | check =>
          unfold checkJobs
          split <;> exact hs
  | worker =>
      cases step_taken h with
      | check | wake | progress | finish | workerWrite => exact absurd rfl hu
      | push | handle | readerWrite | stop | join => exact hs
      | notify | notifyAll => exact hwake _ hs
      | read =>
          unfold readMessage
          split <;> exact hs

/-- A thread that has something to write goes on after it. -/
theorem working_writes {s s' : ServeState} {a : ServeAction} (h : Serve.step env s a = some s')
    (hout : s'.output ≠ s.output) : working s' (threadOf a) := by
  cases step_taken h with
  | read =>
      refine absurd ?_ hout
      unfold readMessage
      split <;> rfl
  | notify | notifyAll =>
      refine absurd ?_ hout
      unfold wakeWorker
      split <;> rfl
  | push | stop | join | wake => exact absurd rfl hout
  | check =>
      refine absurd ?_ hout
      unfold checkJobs
      split
      · rfl
      · rfl
      · exact List.append_nil _
  | handle => exact (readerReplying_phase env s.world _ _).2.2.1
  | readerWrite => rfl
  | progress hw => simp [threadOf, working, writeLocked, hw]
  | finish => exact (workerReplying_phase _ _).2.2
  | workerWrite => simp [threadOf, working, writeLocked]

/-- Only a thread that goes on has the mutex, and it leaves an empty buffer. -/
structure Held (s : StdioState) : Prop where
  works : ∀ w, s.stdoutMutex = some w → working s.serve w.thread
  idle : s.stdoutMutex = none → s.buffer = []

theorem start_held (input : Text) (d : Dispatcher) : Held (start input d) := ⟨nofun, fun _ => rfl⟩

theorem step_held {a : StdioAction} (h : Held s) (hstep : step env s a = some s') : Held s' := by
  cases step_moved hstep with
  | quiet hbusy _ hserve =>
      refine ⟨fun w hw => ?_, h.idle⟩
      refine working_other hserve (fun heq => ?_) (h.works w hw)
      simp [busy, locks, heq, show s.stdoutMutex = some w from hw] at hbusy
  | locked _ _ hserve _ hframe hout =>
      refine ⟨fun w hw => ?_, nofun⟩
      obtain rfl := Option.some.inj hw
      refine working_writes hserve fun hsame => hframe ?_
      exact List.append_cancel_left (by rw [← hout, hsame, List.append_nil])
  | @put w count hw =>
      refine ⟨fun w' hw' => ?_, nofun⟩
      obtain rfl := Option.some.inj hw'
      exact h.works w hw
  | reset => exact ⟨h.works, fun _ => rfl⟩
  | unlock _ _ hbuffer => exact ⟨nofun, fun _ => hbuffer⟩
  | flush | sentry | childReads => exact ⟨h.works, h.idle⟩

/-- What is put into the buffer and not written out. -/
def pending (s : StdioState) : Text := if s.flushing = [] then s.buffer else []

/-- What is not put into the buffer yet. -/
def unput (s : StdioState) : Text := s.stdoutMutex.elim [] FrameWrite.rest

/-- Every byte that the server has written is on stdout, in the buffer or on its way
into it, once and in order. -/
structure Streamed (s : StdioState) : Prop where
  out : s.stdout ++ pending s ++ unput s = s.serve.output
  one : s.flushing.length ≤ 1

theorem start_streamed (input : Text) (d : Dispatcher) : Streamed (start input d) := ⟨rfl, Nat.zero_le _⟩

theorem step_streamed {a : StdioAction} (h : Streamed s) (hapart : Apart s a) (hstep : step env s a = some s') :
    Streamed s' := by
  obtain ⟨hout, hone⟩ := h
  cases step_moved hstep with
  | quiet _ _ _ hsame => exact ⟨hout.trans hsame.symm, hone⟩
  | locked _ _ _ hfree _ hadds =>
      refine ⟨?_, hone⟩
      rw [hadds, ← hout, show unput s = [] by rw [unput, hfree]; rfl, List.append_nil]
      rfl
  | put hw =>
      have hnone : s.flushing = [] := hapart rfl
      refine ⟨?_, hone⟩
      rw [← hout]
      simp [pending, unput, hnone, hw]
  | flush =>
      have hnone : s.flushing = [] := hapart rfl
      refine ⟨?_, by simp [hnone]⟩
      rw [← hout]
      simp [pending, unput, hnone]
  | @reset u hu =>
      have hone' : s.flushing = [u] := by
        rcases hs : s.flushing with _ | ⟨v, _ | ⟨v', vs⟩⟩
        · simp [hs] at hu
        · rw [hs, List.mem_singleton] at hu
          rw [hu]
        · simp [hs] at hone
      have hempty : pending s = [] := if_neg (by simp [hone'])
      refine ⟨?_, by simp [hone']⟩
      rw [← hout, hempty, pending, ite_self]
      rfl
  | unlock hw hrest hbuffer =>
      have hunput : unput s = [] := by rw [unput, hw, Option.elim_some, hrest]
      refine ⟨?_, hone⟩
      rw [← hout, hunput]
      rfl
  | sentry => exact ⟨hout, hone⟩
  | childReads => exact ⟨hout, hone⟩

theorem run_streamed {as : List StdioAction} (hs : Streamed s) (hapart : Meets (step env) Apart s as)
    (hrun : run (step env) s as = some t) : Streamed t := by
  have hstep : ∀ s a s', Streamed s → Apart s a → step env s a = some s' → Streamed s' :=
    fun _ _ _ h ha hs => step_streamed h ha hs
  exact run_invariant hstep hs hapart hrun

theorem run_held {as : List StdioAction} (hs : Held s) (hrun : run (step env) s as = some t) : Held t := by
  have hstep : ∀ s a s', Held s → step env s a = some s' → Held s' := fun _ _ _ h hs => step_held h hs
  exact run_preserves hstep hs hrun

/-- A step of a write to std::cout. -/
def isPiece : StdioAction → Bool
  | .put _ | .flush _ | .reset _ | .unlock => true
  | _ => false

/-- The pieces in which what is begun can still be written: each byte may be put alone,
and both threads may write out each of these. -/
def pieceWeight (s : StdioState) : Nat :=
  5 * (unput s).length + (if s.buffer = [] then s.flushing.length else 4 - s.flushing.length) + s.stdoutMutex.isSome.toNat

theorem threads_two {ts : List ServeThread} (h : ts.Nodup) : ts.length ≤ 2 := by
  rcases ts with _ | ⟨t1, _ | ⟨t2, _ | ⟨t3, ts⟩⟩⟩
  · simp
  · simp
  · simp
  · simp only [List.nodup_cons, List.mem_cons, not_or] at h
    cases t1 <;> cases t2 <;> cases t3 <;> simp_all

theorem step_pieces {a : StdioAction} (hnodup : s.flushing.Nodup) (hstep : step env s a = some s') :
    s'.flushing.Nodup ∧ pieceWeight s' + (isPiece a).toNat + 6 * s.serve.output.length ≤
      pieceWeight s + 6 * s'.serve.output.length := by
  have htwo := threads_two hnodup
  cases step_moved hstep with
  | quiet _ _ _ hout => exact ⟨hnodup, by rw [hout]; exact Nat.le_refl _⟩
  | @locked a serve frame _ _ _ hfree hframe hout =>
      have hpos := List.length_pos_of_ne_nil hframe
      refine ⟨hnodup, ?_⟩
      simp only [pieceWeight, unput, hfree, hout, isPiece, Option.elim_some, Option.elim_none, List.length_append,
        List.length_nil, Option.isSome_some, Option.isSome_none, Bool.toNat_true, Bool.toNat_false]
      omega
  | @put w count hw hcount hrest =>
      have hpos := List.length_pos_of_ne_nil hrest
      have hnil : s.buffer ++ w.rest.take count ≠ [] := by simp [hcount, hrest]
      refine ⟨hnodup, ?_⟩
      simp only [pieceWeight, unput, hw, if_neg hnil, isPiece, Option.elim_some, List.length_drop, Option.isSome_some,
        Bool.toNat_true]
      split <;> omega
  | flush hbuffer ht =>
      have htwo' := threads_two (List.nodup_cons.mpr ⟨ht, hnodup⟩)
      refine ⟨List.nodup_cons.mpr ⟨ht, hnodup⟩, ?_⟩
      simp only [pieceWeight, unput, if_neg hbuffer, isPiece, List.length_cons, Bool.toNat_true] at htwo' ⊢
      omega
  | reset ht =>
      have hpos := List.length_pos_of_mem ht
      refine ⟨hnodup.erase _, ?_⟩
      simp only [pieceWeight, unput, isPiece, List.length_erase_of_mem ht, if_true, Bool.toNat_true]
      split <;> omega
  | unlock hw hrest hbuffer =>
      refine ⟨hnodup, ?_⟩
      simp only [pieceWeight, unput, hw, hrest, hbuffer, isPiece, Option.elim_some, Option.elim_none, List.length_nil,
        Option.isSome_some, Option.isSome_none, if_true, Bool.toNat_true, Bool.toNat_false]
      omega
  | sentry => exact ⟨hnodup, Nat.le_refl _⟩
  | childReads => exact ⟨hnodup, Nat.le_refl _⟩

/-- The writes come to an end: in no more pieces than six for each byte. -/
theorem pieces_bounded {as : List StdioAction} {d : Dispatcher} (hrun : run (step env) (start input d) as = some s) :
    as.countP isPiece ≤ 6 * s.serve.output.length := by
  let inv := fun (as : List StdioAction) (s : StdioState) =>
    s.flushing.Nodup ∧ as.countP isPiece + pieceWeight s ≤ 6 * s.serve.output.length
  have hstep : ∀ as s a s', inv as s → step env s a = some s' → inv (as ++ [a]) s' := by
    rintro as s a s' ⟨hnodup, hle⟩ hstep
    obtain ⟨hnodup', hle'⟩ := step_pieces hnodup hstep
    refine ⟨hnodup', ?_⟩
    rw [List.countP_append, List.countP_singleton]
    cases hp : isPiece a <;> simp [hp] at hle' ⊢ <;> omega
  have hend : inv as s := run_history ⟨List.nodup_nil, Nat.le_refl _⟩ hstep hrun
  exact (Nat.le_add_right _ _).trans hend.2

def isSentry : StdioAction → Bool
  | .sentry => true
  | _ => false

theorem step_sentry {a : StdioAction} (hstep : step env s a = some s') :
    s'.sentry.toNat + (serveActions [a]).countP isRead = s.sentry.toNat + (isSentry a).toNat := by
  cases step_moved hstep with
  | @quiet a _ _ hread | @locked a _ _ _ hread =>
      cases hr : isRead a
      · simp [hr, isSentry]
      · simp [hr, isSentry, hread hr]
  | sentry hdue => simp [hdue, serveActions, serveAction?, isSentry]
  | put | flush | reset | unlock | childReads => rfl

/-- Each read has one flush of its own before it. -/
theorem sentries_bounded {as : List StdioAction} {d : Dispatcher} (hrun : run (step env) (start input d) as = some s) :
    as.countP isSentry ≤ (serveActions as).countP isRead + 1 := by
  let inv := fun (as : List StdioAction) (s : StdioState) =>
    as.countP isSentry = (serveActions as).countP isRead + s.sentry.toNat
  have hstep : ∀ as s a s', inv as s → step env s a = some s' → inv (as ++ [a]) s' := by
    intro as s a s' hcount hstep
    have hadds : serveActions (as ++ [a]) = serveActions as ++ serveActions [a] := List.filterMap_append
    have hone := step_sentry hstep
    simp only [inv, hadds, List.countP_append, List.countP_singleton] at hcount ⊢
    cases hs : isSentry a <;> simp [hs] at hone ⊢ <;> omega
  have hend : inv as s := run_history rfl hstep hrun
  exact hend.le.trans (Nat.add_le_add_left s.sentry.toNat_le _)

/-- Where a thread can take its step, it can with the streams too: once what is being
written is written, and the flush before a read is done. -/
theorem takes_step (hheld : Held s) {a : ServeAction} (ha : (Serve.step env s.serve a).isSome = true) :
    ∃ b, (isPiece b = true ∨ isRead a = true ∧ b = .sentry ∨ b = .serve a) ∧ (step env s b).isSome = true := by
  rcases hflush : s.flushing with _ | ⟨u, us⟩
  · cases hw : s.stdoutMutex with
    | some w =>
        by_cases hrest : w.rest = []
        · by_cases hbuffer : s.buffer = []
          · exact ⟨.unlock, .inl rfl, by simp [step, hw, hflush, hrest, hbuffer]⟩
          · exact ⟨.flush w.thread, .inl rfl, by simp [step, hflush, hbuffer, locks, hw]⟩
        · exact ⟨.put 1, .inl rfl, by simp [step, hw, hflush, hrest]⟩
    | none =>
        have hbusy (u : ServeThread) : busy s u = false := by simp [busy, locks, hw, hflush]
        by_cases hdue : isRead a = true ∧ s.sentry = false
        · obtain ⟨hread, hsentry⟩ := hdue
          refine ⟨.sentry, .inr (.inl ⟨hread, rfl⟩), ?_⟩
          cases a <;> try cases hread
          cases hr : s.serve.reader <;> simp [Serve.step, hr] at ha
          simp [step, hr, hbusy, hheld.idle hw, hsentry]
        · obtain ⟨serve, hserve⟩ := Option.isSome_iff_exists.mp ha
          refine ⟨.serve a, .inr (.inr rfl), ?_⟩
          rw [step, if_neg (by simpa [hbusy] using hdue), hserve]
          dsimp only [lockStdout]
          rw [hw]
          split <;> rfl
  · exact ⟨.reset u, .inl rfl, by simp [step, hflush]⟩

/-- A step that the threads take by themselves. -/
def isOwnStep : StdioAction → Bool
  | .serve a => isOwn a
  | .childReads _ _ => false
  | _ => true

/-- What is on stdout once the server has exited: the responses of the server with one
thread, at most one for each message, those of the worker in the order of its messages,
and the worker did one job after another. -/
def Complete (env : ServerEnv) (input : Text) (d : Dispatcher) (s : StdioState) : Prop :=
  ∃ frames, sequential env { dispatcher := d } 0 (messages input) = some frames ∧
    frames.Pairwise (·.line < ·.line) ∧
    (responses s.serve.events).Perm frames ∧
    (responses s.serve.events).filter (·.queued) = frames.filter (·.queued) ∧
    callLog s.serve.events =
      (jobsOf env.json (messages input)).flatMap (fun job => [.began job.line, .ended job.line]) ∧
    s.stdout = s.serve.events.flatMap (written env.json)

/-- What is on stdout is what the server has written so far, but for the frame that is
being written. -/
theorem Streamed.stdout (h : Streamed s) (hheld : Held s) :
    ∃ unwritten, s.stdout ++ unwritten = s.serve.output ∧ (s.stdoutMutex = none → unwritten = []) := by
  refine ⟨pending s ++ unput s, by rw [← List.append_assoc, h.out], fun hfree => ?_⟩
  simp [pending, unput, hfree, hheld.idle hfree]

/-- However the two threads interleave and in whatever pieces a frame is written: where
the streams are kept, the server that has exited has written the whole response to each
message to stdout, once. -/
theorem serve_complete {d : Dispatcher} {as : List StdioAction} (hkept : Meets (step env) Kept (start input d) as)
    (hrun : run (step env) (start input d) as = some s) (hexited : s.serve.reader = .exited) :
    Complete env input d s := by
  have hserve : run (Serve.step env) (Serve.start input d) (serveActions as) = some s.serve :=
    run_serve (hkept.mono fun _ _ h => h.1) hrun
  have hstreamed := run_streamed (start_streamed input d) (hkept.mono fun _ _ h => h.2) hrun
  have hheld := run_held (start_held input d) hrun
  obtain ⟨done, hinv⟩ := run_inv hserve
  have hfree : s.stdoutMutex = none := by
    by_contra hlocked
    obtain ⟨w, hw⟩ := Option.ne_none_iff_exists'.mp hlocked
    have hworking := hheld.works w hw
    cases ht : w.thread with
    | reader => simp [working, ht, hexited, atEnd] at hworking
    | worker => simp [working, ht, hinv.exited hexited] at hworking
  obtain ⟨frames, hframes, hpair, hperm, hqueued, hcalls, hout⟩ := run_complete env input d _ _ hserve hexited
  obtain ⟨unwritten, hstdout, hnil⟩ := hstreamed.stdout hheld
  rw [hnil hfree, List.append_nil] at hstdout
  exact ⟨frames, hframes, hpair, hperm, hqueued, hcalls, hstdout.trans hout⟩

def pingRequest : Json :=
  .obj [(lit "id", .int 1), (lit "jsonrpc", .str (lit "2.0")), (lit "method", .str (lit "ping"))]

def resourcesRequest : Json :=
  .obj [(lit "id", .int 2), (lit "jsonrpc", .str (lit "2.0")), (lit "method", .str (lit "resources/list"))]

def pingText : Text := lit "\x7b\"id\":1,\"jsonrpc\":\"2.0\",\"method\":\"ping\"\x7d"

def resourcesText : Text := lit "\x7b\"id\":2,\"jsonrpc\":\"2.0\",\"method\":\"resources/list\"\x7d"

def braceError : Text :=
  lit "[json.exception.parse_error.101] parse error at line 1, column 2: " ++
    lit "syntax error while parsing object key - unexpected end of input; expected string literal"

def sampleParse (body : Text) : Except Text Json :=
  if body = pingText then .ok pingRequest
  else if body = resourcesText then .ok resourcesRequest
  else .error braceError

def sampleDump (frame : Json) : Text :=
  match frame.get? (lit "id") with
  | some (.int 1) => lit "\x7b\"id\":1,\"jsonrpc\":\"2.0\",\"result\":\x7b\x7d\x7d"
  | some (.int _) => lit "\x7b\"id\":2,\"jsonrpc\":\"2.0\",\"result\":\x7b\"resources\":[]\x7d\x7d"
  | _ =>
      lit "\x7b\"error\":\x7b\"code\":-32700,\"message\":\"Parse error: " ++ braceError ++
        lit "\"\x7d,\"id\":null,\"jsonrpc\":\"2.0\"\x7d"

def sampleEnv : ServerEnv where
  json := { parse := sampleParse, dump := sampleDump }
  cwd := ⟨true, []⟩
  toolTable := fun _ => .arr []
  answers := fun _ => { eval := { paneInfo := .error [] }, paneInfo := .error [] }
  fileExists := fun _ _ => false
  fileText := fun _ _ => []

def idleServer : Dispatcher := { session := { server := { configPath := ⟨true, []⟩ } } }

/-- The ping is answered while the worker holds an earlier request, the read thread
flushes half a frame of the worker, and the last line has no end. -/
def pingFirst : List StdioAction :=
  [.sentry, .serve .read, .serve .push, .serve .notify, .serve .check, .sentry, .serve .read, .serve .handle,
   .serve .readerWrite, .put 20, .flush .reader, .serve .finish, .reset .reader, .put 200, .flush .reader,
   .reset .reader, .unlock, .serve .workerWrite, .put 7, .flush .reader, .reset .reader, .sentry, .put 200,
   .flush .worker, .reset .worker, .unlock, .serve .check, .serve .read, .serve .readerWrite, .put 400,
   .flush .reader, .reset .reader, .unlock, .sentry, .serve .read, .serve .stop, .serve .notifyAll, .serve .check,
   .serve .join]

theorem serve_complete_ping_first :
    let input := resourcesText ++ [cr, nl, nl] ++ pingText ++ [nl] ++ lit "\x7b"
    ∃ s, run (step sampleEnv) (start input idleServer) pingFirst = some s ∧ Complete sampleEnv input idleServer s := by
  intro input
  have hkept : Meets (step sampleEnv) Kept (start input idleServer) pingFirst := by decide +kernel
  have hany : (run (step sampleEnv) (start input idleServer) pingFirst).any (fun s => isExited s.serve.reader) = true := by
    decide +kernel
  obtain ⟨s, hs, hexited⟩ := (Option.any_eq_true _ _).mp hany
  exact ⟨s, hs, serve_complete hkept hs ((isExited_iff _).mp hexited)⟩

/-- The read thread has written the worker's frame out when the worker writes it. -/
def writtenTwice : List StdioAction :=
  [.sentry, .serve .read, .serve .push, .serve .notify, .serve .check, .serve .finish, .serve .workerWrite, .put 200,
   .flush .reader, .flush .worker, .reset .reader, .reset .worker, .unlock, .sentry, .serve .read, .serve .stop,
   .serve .notifyAll, .serve .check, .serve .join]

def emptyEvalText : Text :=
  lit "\x7b\"id\":1,\"jsonrpc\":\"2.0\",\"method\":\"tools/call\",\"params\":" ++
    lit "\x7b\"arguments\":\x7b\"code\":\"\"\x7d,\"name\":\"jjmcp_eval\"\x7d\x7d"

def emptyEvalRequest : Json :=
  .obj [(lit "id", .int 1), (lit "jsonrpc", .str (lit "2.0")), (lit "method", .str (lit "tools/call")),
    (lit "params", .obj [(lit "arguments", .obj [(lit "code", .str [])]), (lit "name", .str (lit "jjmcp_eval"))])]

def eatenEnv : ServerEnv :=
  { sampleEnv with
    json := { sampleEnv.json with parse := fun body => if body = emptyEvalText then .ok emptyEvalRequest else sampleParse body } }

def eatenInput : Text := emptyEvalText ++ [nl] ++ pingText ++ [nl]

/-- The ping's line goes to the child that checks the empty code. -/
def lineEaten : List StdioAction :=
  [.sentry, .serve .read, .serve .push, .serve .notify, .serve .check, .childReads 0 (pingText.length + 1),
   .serve .finish, .serve .workerWrite, .put 400, .flush .worker, .reset .worker, .unlock, .sentry, .serve .read,
   .serve .stop, .serve .notifyAll, .serve .check, .serve .join]

/-- The one response is on stdout twice, and the ping gets none. -/
theorem not_serve_complete :
    (∃ s, run (step sampleEnv) (start (resourcesText ++ [nl]) idleServer) writtenTwice = some s ∧
      s.serve.reader = .exited ∧ s.stdout = s.serve.output ++ s.serve.output ∧
      ¬Complete sampleEnv (resourcesText ++ [nl]) idleServer s) ∧
    ∃ s, run (step eatenEnv) (start eatenInput idleServer) lineEaten = some s ∧ s.serve.reader = .exited ∧
      (responses s.serve.events).length = 1 ∧ ¬Complete eatenEnv eatenInput idleServer s := by
  constructor
  · have hany : (run (step sampleEnv) (start (resourcesText ++ [nl]) idleServer) writtenTwice).any (fun s =>
        isExited s.serve.reader && s.stdout == s.serve.output ++ s.serve.output &&
          s.stdout != s.serve.events.flatMap (written sampleEnv.json)) = true := by
      decide +kernel
    obtain ⟨s, hs, hall⟩ := (Option.any_eq_true _ _).mp hany
    simp only [Bool.and_eq_true, beq_iff_eq, bne_iff_ne] at hall
    obtain ⟨⟨hexited, htwice⟩, hne⟩ := hall
    exact ⟨s, hs, (isExited_iff _).mp hexited, htwice, fun ⟨_, _, _, _, _, _, hout⟩ => hne hout⟩
  · have hany : (run (step eatenEnv) (start eatenInput idleServer) lineEaten).any (fun s =>
        isExited s.serve.reader && (responses s.serve.events).length == 1) = true := by
      decide +kernel
    have htwo : (sequential eatenEnv { dispatcher := idleServer } 0 (messages eatenInput)).map List.length = some 2 := by
      decide +kernel
    obtain ⟨s, hs, hall⟩ := (Option.any_eq_true _ _).mp hany
    simp only [Bool.and_eq_true, beq_iff_eq] at hall
    refine ⟨s, hs, (isExited_iff _).mp hall.1, hall.2, fun ⟨frames, hframes, _, hperm, _⟩ => ?_⟩
    rw [hframes, Option.map_some, Option.some.injEq, ← hperm.length_eq, hall.2] at htwo
    cases htwo

end JJMCP.ServeStdio
