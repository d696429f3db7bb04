import JJMCP.ServeComplete

namespace JJMCP.ServeProgress

open Lib.Runs Text Mcp Serve ServeComplete

/-- The read thread has set the flag and not yet come back from the join. -/
def stopped : ReaderPhase → Bool
  | .notifyingAll | .joining => true
  | _ => false

/-- No notification is lost: a waiting worker is about to be notified when it has
a reason to go on. -/
structure Alert (s : ServeState) : Prop where
  jobs : s.worker = .waiting → s.jobs = [] ∨ s.reader = .notifying
  flag : s.worker = .waiting → s.shuttingDown = true → s.reader = .notifyingAll
  stopped : stopped s.reader = true → s.shuttingDown = true

/-- A step that the threads take by themselves, and not the system around them. -/
def isOwn : ServeAction → Bool
  | .wake | .progress _ _ => false
  | _ => true

variable {env : ServerEnv} {w₀ : World} {input : Text} {done : List Job} {s s' t : ServeState}

theorem start_alert (input : Text) (d : Dispatcher) : Alert (start input d) where
  jobs := fun _ => .inl rfl
  flag := by simp [start]
  stopped := by simp [start, stopped]

theorem wakeWorker_worker (s : ServeState) : (wakeWorker s).worker ≠ .waiting := by
  unfold wakeWorker
  split
  · simp
  · assumption

theorem wakeWorker_alert (hs : stopped s.reader = true → s.shuttingDown = true) : Alert (wakeWorker s) where
  jobs := fun hw => absurd hw (wakeWorker_worker s)
  flag := fun hw => absurd hw (wakeWorker_worker s)
  stopped := by
    unfold wakeWorker
    split <;> exact hs

/-- A step of the read thread between two of its notifications. -/
theorem Alert.reader (h : Alert s) (hr : s.reader ≠ .notifying) {reader : ReaderPhase}
    (hflag : s.shuttingDown = false) (hs : ServeProgress.stopped reader = false) {input output : Text} {seen : List Text}
    {world : World} {events : List ServeEvent} :
    Alert { s with input, seen, reader, world, output, events } where
  jobs := fun hw => (h.jobs hw).imp_right fun he => absurd he hr
  flag := fun _ hf => by simp [hflag] at hf
  stopped := by simp [hs]

theorem Alert.worker (h : Alert s) {worker : WorkerPhase} (hw : worker ≠ .waiting) {jobs : List Job}
    {world : World} {output : Text} {events : List ServeEvent} :
    Alert { s with worker, jobs, world, output, events } where
  jobs := fun he => absurd he hw
  flag := fun he => absurd he hw
  stopped := h.stopped

theorem step_alert (hi : Inv env w₀ input done s) (h : Alert s) {a : ServeAction} (hstep : step env s a = some s') :
    Alert s' := by
  cases step_taken hstep with
  | read hr =>
      obtain ⟨hflag, _⟩ := hi.running (by simp [hr, atEnd])
      unfold readMessage
      split
      · exact h.reader (by simp [hr]) hflag rfl
      · refine h.reader (by simp [hr]) hflag ?_
        cases incoming env.json _ <;> rfl
  | push hr =>
      obtain ⟨hflag, _⟩ := hi.running (by simp [hr, atEnd])
      exact { jobs := fun _ => .inr rfl, flag := fun _ hf => by simp [hflag] at hf, stopped := by simp [stopped] }
  | notify => exact wakeWorker_alert (by simp [stopped])
  | @handle job world handled hr hone =>
      obtain ⟨hflag, _⟩ := hi.running (by simp [hr, atEnd])
      refine h.reader (by simp [hr]) hflag ?_
      cases handled.response <;> rfl
  | readerWrite hr =>
      obtain ⟨hflag, _⟩ := hi.running (by simp [hr, atEnd])
      exact h.reader (by simp [hr]) hflag rfl
  | stop hr =>
      exact { jobs := fun hw => (h.jobs hw).imp_right fun he => by simp [hr] at he
              flag := fun _ _ => rfl
              stopped := fun _ => rfl }
  | notifyAll hr => exact wakeWorker_alert fun _ => h.stopped (by simp [hr, stopped])
  | join hr hw => exact { jobs := by simp [hw], flag := by simp [hw], stopped := by simp [stopped] }
  | check hw =>
      unfold checkJobs
      split
      next => exact h.worker (by simp)
      next hjobs hflag =>
        exact { jobs := fun _ => .inl hjobs, flag := fun _ hf => by simp [hflag] at hf, stopped := h.stopped }
      next => exact h.worker (by simp)
  | wake => exact h.worker (by simp)
  | progress hw =>
      exact { jobs := by simp [writeLocked, hw], flag := by simp [writeLocked, hw], stopped := h.stopped }
  | @finish job world handled hw hone =>
      refine h.worker ?_
      cases handled.response <;> simp
  | workerWrite => exact h.worker (by simp)

theorem run_alert {as : List ServeAction} {d : Dispatcher} (hrun : run (step env) (start input d) as = some s) :
    (∃ done, Inv env { dispatcher := d } input done s) ∧ Alert s := by
  have hpreserves : ∀ s a s', ((∃ done, Inv env { dispatcher := d } input done s) ∧ Alert s) →
      step env s a = some s' → (∃ done, Inv env { dispatcher := d } input done s') ∧ Alert s' :=
    fun _ _ _ ⟨⟨_, hi⟩, h⟩ hstep => ⟨step_inv hi hstep, step_alert hi h hstep⟩
  exact run_preserves hpreserves ⟨⟨[], start_inv env input d⟩, start_alert input d⟩ hrun

/-- The server stands still only when it has exited or a tool call does not come back. -/
theorem goes_on (hi : Inv env w₀ input done s) (h : Alert s) (hexited : s.reader ≠ .exited)
    (hcall : ∀ job, s.worker = .running job → (handleRequest env job.request s.world).2.isSome) :
    ∃ a, isOwn a = true ∧ (step env s a).isSome := by
  cases hr : s.reader with
  | reading => exact ⟨.read, rfl, by simp [step, hr]⟩
  | pushing job => exact ⟨.push, rfl, by simp [step, hr]⟩
  | notifying => exact ⟨.notify, rfl, by simp [step, hr]⟩
  | handling job =>
      obtain ⟨handled, hone⟩ := handleRequest_inline env (hi.handling job hr)
      exact ⟨.handle, rfl, by simp [step, hr, hone]⟩
  | replying line frame => exact ⟨.readerWrite, rfl, by simp [step, hr]⟩
  | stopping => exact ⟨.stop, rfl, by simp [step, hr]⟩
  | notifyingAll => exact ⟨.notifyAll, rfl, by simp [step, hr]⟩
  | exited => exact absurd hr hexited
  | joining =>
      cases hw : s.worker with
      | ready => exact ⟨.check, rfl, by simp [step, hw]⟩
      | waiting =>
          have hflag := h.flag hw (h.stopped (by simp [hr, stopped]))
          simp [hr] at hflag
      | running job =>
          obtain ⟨handled, hsome⟩ := Option.isSome_iff_exists.mp (hcall job hw)
          have hone : handleRequest env job.request s.world =
              ((handleRequest env job.request s.world).1, some handled) := Prod.ext rfl hsome
          refine ⟨.finish, rfl, ?_⟩
          simp only [step, hw]
          rw [hone]
          rfl
      | replying line frame => exact ⟨.workerWrite, rfl, by simp [step, hw]⟩
      | returned => exact ⟨.join, rfl, by simp [step, hr, hw]⟩

def readerWeight : ReaderPhase → Nat
  | .pushing _ => 11
  | .notifying | .handling _ => 7
  | .replying _ _ => 6
  | .reading => 5
  | .stopping => 4
  | .notifyingAll => 3
  | .joining => 1
  | .exited => 0

def workerWeight : WorkerPhase → Nat
  | .running _ => 3
  | .replying _ _ => 2
  | .ready => 1
  | .waiting | .returned => 0

/-- What is left to do: a wake-up of the worker weighs less than the notification. -/
def weight (s : ServeState) : Nat :=
  7 * (messages s.input).length + readerWeight s.reader + 3 * s.jobs.length + workerWeight s.worker

def isWake : ServeAction → Bool
  | .wake => true
  | _ => false

theorem wakeWorker_weight (s : ServeState) : weight (wakeWorker s) ≤ weight s + 1 := by
  unfold wakeWorker
  split
  next hw => simp [weight, hw, workerWeight]
  next => exact Nat.le_succ _

theorem readMessage_weight (hr : s.reader = .reading) : weight (readMessage env s) < weight s := by
  have hmessages := readMcpMessage_messages s.input
  unfold readMessage
  cases hread : readMcpMessage s.input with
  | none => simp [weight, hr, readerWeight]
  | some p =>
      obtain ⟨body, rest⟩ := p
      have hreceived : readerWeight (received s.seen.length (incoming env.json body)) ≤ 11 := by
        cases incoming env.json body <;> simp [received, readerWeight]
      have hreading : readerWeight .reading = 5 := rfl
      rw [hread] at hmessages
      simp only [weight, hr, hmessages, List.length_cons, hreading]
      omega

theorem checkJobs_weight (hw : s.worker = .ready) : weight (checkJobs env s) < weight s := by
  unfold checkJobs
  split
  next hjobs _ => simp [weight, hw, workerWeight]
  next hjobs _ => simp [weight, hw, workerWeight]
  next job jobs hjobs =>
    simp only [weight, writeLocked, hw, hjobs, workerWeight, List.length_cons]
    omega

theorem step_weight {a : ServeAction} (hstep : step env s a = some s') :
    weight s' + (isOwn a).toNat ≤ weight s + (isWake a).toNat := by
  cases step_taken hstep with
  | read hr => exact readMessage_weight hr
  | push hr =>
      simp only [weight, hr, readerWeight, List.length_append, List.length_singleton, isOwn, isWake, Bool.toNat_true,
        Bool.toNat_false]
      omega
  | notify hr =>
      have hwake := wakeWorker_weight { s with reader := .reading }
      simp only [weight, hr, readerWeight, isOwn, isWake, Bool.toNat_true, Bool.toNat_false] at hwake ⊢
      omega
  | @handle job world handled hr hone =>
      have hreader : readerWeight (handled.response.elim .reading (.replying job.line)) ≤ 6 := by
        cases handled.response <;> simp [readerWeight]
      have hhandling : readerWeight (.handling job) = 7 := rfl
      simp only [weight, writeLocked, hr, hhandling, isOwn, isWake, Bool.toNat_true, Bool.toNat_false]
      omega
  | readerWrite hr =>
      simp only [weight, writeLocked, hr, readerWeight, isOwn, isWake, Bool.toNat_true, Bool.toNat_false]
      omega
  | stop hr =>
      simp only [weight, hr, readerWeight, isOwn, isWake, Bool.toNat_true, Bool.toNat_false]
      omega
  | notifyAll hr =>
      have hwake := wakeWorker_weight { s with reader := .joining }
      simp only [weight, hr, readerWeight, isOwn, isWake, Bool.toNat_true, Bool.toNat_false] at hwake ⊢
      omega
  | join hr hw =>
      simp only [weight, hr, readerWeight, isOwn, isWake, Bool.toNat_true, Bool.toNat_false]
      omega
  | check hw => exact checkJobs_weight hw
  | wake hw =>
      simp only [weight, hw, workerWeight, isOwn, isWake, Bool.toNat_true, Bool.toNat_false]
      omega
  | progress => exact Nat.le_refl _
  | @finish job world handled hw hone =>
      have hworker : workerWeight (handled.response.elim .ready (.replying job.line)) ≤ 2 := by
        cases handled.response <;> simp [workerWeight]
      have hrunning : workerWeight (.running job) = 3 := rfl
      simp only [weight, writeLocked, hw, hrunning, isOwn, isWake, Bool.toNat_true, Bool.toNat_false]
      omega
  | workerWrite hw =>
      simp only [weight, writeLocked, hw, workerWeight, isOwn, isWake, Bool.toNat_true, Bool.toNat_false]
      omega

/-- The threads take a bounded number of steps; only a spurious wake-up adds one. -/
theorem serve_bounded {as : List ServeAction} {d : Dispatcher} (hrun : run (step env) (start input d) as = some s) :
    as.countP isOwn ≤ 7 * (messages input).length + 6 + as.countP isWake := by
  have hstep : ∀ s a s', step env s a = some s' →
      weight s' + (isOwn a).toNat ≤ weight s + (isWake a).toNat := fun _ _ _ => step_weight
  have h := run_bounded hstep hrun
  simp only [weight, start, readerWeight, workerWeight, List.length_nil] at h
  omega

/-- When every tool call comes back, a server that can take no step has exited. -/
theorem serve_exits {as : List ServeAction} {d : Dispatcher} (hrun : run (step env) (start input d) as = some s)
    (hcalls : ∀ request w, (handleRequest env request w).2.isSome)
    (hstill : ∀ a, isOwn a = true → step env s a = none) : s.reader = .exited := by
  obtain ⟨⟨done, hi⟩, h⟩ := run_alert hrun
  by_contra hexited
  obtain ⟨a, hown, hsome⟩ := goes_on hi h hexited fun job _ => hcalls job.request s.world
  simp [hstill a hown] at hsome

end JJMCP.ServeProgress
