import JJMCP.Mcp
import JJMCP.Lib.Runs

namespace JJMCP

/-- A request, with its line among those of the input that are not blank. -/
structure Job where
  line : Nat
  request : Json

/-- A response frame; queued when the worker wrote it. -/
structure Response where
  line : Nat
  queued : Bool
  frame : Json

inductive Incoming
  | parseError (frame : Json)
  | queued (request : Json)
  | inline (request : Json)

inductive ReaderPhase
  | reading
  | pushing (job : Job)
  | notifying
  | handling (job : Job)
  | replying (line : Nat) (frame : Json)
  | stopping | notifyingAll | joining | exited

/-- The worker thread. A waiting worker has released the mutex. -/
inductive WorkerPhase
  | ready | waiting
  | running (job : Job)
  | replying (line : Nat) (frame : Json)
  | returned

inductive ServeEvent
  | began (line : Nat)
  | ended (line : Nat)
  | response (r : Response)
  | notification (frame : Json)

structure ServeState where
  input : Text
  seen : List Text := []
  reader : ReaderPhase := .reading
  worker : WorkerPhase := .ready
  jobs : List Job := []
  shuttingDown : Bool := false
  world : World
  output : Text := []
  events : List ServeEvent := []

inductive ServeAction
  | read | push | notify | handle | readerWrite | stop | notifyAll | join
  | check | wake | progress (count : Nat) (message : Text) | finish | workerWrite

end JJMCP

namespace JJMCP.Serve

open Lib.Runs Text Mcp

def incoming (json : JsonLib) (body : Text) : Incoming :=
  match json.parse body with
  | .error what => .parseError (makeJsonrpcError .null (-32700) (lit "Parse error: " ++ what))
  | .ok request => if needsWorker (methodOf request) then .queued request else .inline request

def written (json : JsonLib) : ServeEvent → Text
  | .began _ | .ended _ => []
  | .response r => writeMcpMessage json r.frame
  | .notification frame => writeMcpMessage json frame

def writeLocked (env : ServerEnv) (events : List ServeEvent) (s : ServeState) : ServeState :=
  { s with output := s.output ++ events.flatMap (written env.json), events := s.events ++ events }

def received (line : Nat) : Incoming → ReaderPhase
  | .parseError frame => .replying line frame
  | .queued request => .pushing { line, request }
  | .inline request => .handling { line, request }

def readMessage (env : ServerEnv) (s : ServeState) : ServeState :=
  match readMcpMessage s.input with
  | none => { s with reader := .stopping }
  | some (body, rest) =>
      { s with
        input := rest
        seen := s.seen ++ [body]
        reader := received s.seen.length (incoming env.json body) }

/-- The worker with the mutex: it takes a job, returns or goes to wait. -/
def checkJobs (env : ServerEnv) (s : ServeState) : ServeState :=
  match s.jobs, s.shuttingDown with
  | [], true => { s with worker := .returned }
  | [], false => { s with worker := .waiting }
  | job :: jobs, _ => writeLocked env [.began job.line] { s with jobs, worker := .running job }

def wakeWorker (s : ServeState) : ServeState :=
  match s.worker with
  | .waiting => { s with worker := .ready }
  | _ => s

def requestToken (request : Json) : Json :=
  if methodOf request = lit "tools/call" then progressToken ((request.get? (lit "params")).getD .null) else .null

/-- One step of the read thread or of the worker. A waiting worker may also wake
on its own, and a tool call that waits forever never finishes. -/
def step (env : ServerEnv) (s : ServeState) : ServeAction → Option ServeState
  | .read =>
      match s.reader with
      | .reading => some (readMessage env s)
      | _ => none
  | .push =>
      match s.reader with
      | .pushing job => some { s with jobs := s.jobs ++ [job], reader := .notifying }
      | _ => none
  | .notify =>
      match s.reader with
      | .notifying => some (wakeWorker { s with reader := .reading })
      | _ => none
  | .handle =>
      match s.reader with
      | .handling job =>
          match handleRequest env job.request s.world with
          | (world, some handled) =>
              let reader := handled.response.elim ReaderPhase.reading (.replying job.line)
              some (writeLocked env (handled.notifications.map .notification) { s with world, reader })
          | (_, none) => none
      | _ => none
  | .readerWrite =>
      match s.reader with
      | .replying line frame =>
          some (writeLocked env [.response { line, queued := false, frame }] { s with reader := .reading })
      | _ => none
  | .stop =>
      match s.reader with
      | .stopping => some { s with shuttingDown := true, reader := .notifyingAll }
      | _ => none
  | .notifyAll =>
      match s.reader with
      | .notifyingAll => some (wakeWorker { s with reader := .joining })
      | _ => none
  | .join =>
      match s.reader, s.worker with
      | .joining, .returned => some { s with reader := .exited }
      | _, _ => none
  | .check =>
      match s.worker with
      | .ready => some (checkJobs env s)
      | _ => none
  | .wake =>
      match s.worker with
      | .waiting => some { s with worker := .ready }
      | _ => none
  | .progress count message =>
      match s.worker with
      | .running job =>
          let token := requestToken job.request
          if token.isNull then none
          else some (writeLocked env [.notification (progressFrame token count message)] s)
      | _ => none
  | .finish =>
      match s.worker with
      | .running job =>
          match handleRequest env job.request s.world with
          | (world, some handled) =>
              let worker := handled.response.elim WorkerPhase.ready (.replying job.line)
              some (writeLocked env (handled.notifications.map .notification ++ [.ended job.line])
                { s with world, worker })
          | (_, none) => none
      | _ => none
  | .workerWrite =>
      match s.worker with
      | .replying line frame =>
          some (writeLocked env [.response { line, queued := true, frame }] { s with worker := .ready })
      | _ => none

/-- What a step does, and in which phase of its thread it is taken. -/
inductive Taken (env : ServerEnv) (s : ServeState) : ServeAction → ServeState → Prop
  | read (hr : s.reader = .reading) : Taken env s .read (readMessage env s)
  | push {job : Job} (hr : s.reader = .pushing job) :
      Taken env s .push { s with jobs := s.jobs ++ [job], reader := .notifying }
  | notify (hr : s.reader = .notifying) : Taken env s .notify (wakeWorker { s with reader := .reading })
  | handle {job : Job} {world : World} {handled : Handled} (hr : s.reader = .handling job)
      (hone : handleRequest env job.request s.world = (world, some handled)) :
      Taken env s .handle (writeLocked env (handled.notifications.map .notification)
        { s with world, reader := handled.response.elim .reading (.replying job.line) })
  | readerWrite {line : Nat} {frame : Json} (hr : s.reader = .replying line frame) :
      Taken env s .readerWrite (writeLocked env [.response { line, queued := false, frame }]
        { s with reader := .reading })
  | stop (hr : s.reader = .stopping) : Taken env s .stop { s with shuttingDown := true, reader := .notifyingAll }
  | notifyAll (hr : s.reader = .notifyingAll) : Taken env s .notifyAll (wakeWorker { s with reader := .joining })
  | join (hr : s.reader = .joining) (hw : s.worker = .returned) : Taken env s .join { s with reader := .exited }
  | check (hw : s.worker = .ready) : Taken env s .check (checkJobs env s)
  | wake (hw : s.worker = .waiting) : Taken env s .wake { s with worker := .ready }
  | progress {job : Job} {count : Nat} {message : Text} (hw : s.worker = .running job)
      (htoken : (requestToken job.request).isNull = false) :
      Taken env s (.progress count message)
        (writeLocked env [.notification (progressFrame (requestToken job.request) count message)] s)
  | finish {job : Job} {world : World} {handled : Handled} (hw : s.worker = .running job)
      (hone : handleRequest env job.request s.world = (world, some handled)) :
      Taken env s .finish (writeLocked env (handled.notifications.map .notification ++ [.ended job.line])
        { s with world, worker := handled.response.elim .ready (.replying job.line) })
  | workerWrite {line : Nat} {frame : Json} (hw : s.worker = .replying line frame) :
      Taken env s .workerWrite (writeLocked env [.response { line, queued := true, frame }]
        { s with worker := .ready })

theorem step_taken {env : ServerEnv} {s s' : ServeState} {a : ServeAction} (h : step env s a = some s') :
    Taken env s a s' := by
  cases a with
  | read =>
      simp only [step] at h
      split at h <;> cases h
      exact .read ‹_›
  | push =>
      simp only [step] at h
      split at h <;> cases h
      exact .push ‹_›
  | notify =>
      simp only [step] at h
      split at h <;> cases h
      exact .notify ‹_›
  | handle =>
      simp only [step] at h
      split at h <;> try cases h
      split at h <;> cases h
      exact .handle ‹_› ‹_›
  | readerWrite =>
      simp only [step] at h
      split at h <;> cases h
      exact .readerWrite ‹_›
  | stop =>
      simp only [step] at h
      split at h <;> cases h
      exact .stop ‹_›
  | notifyAll =>
      simp only [step] at h
      split at h <;> cases h
      exact .notifyAll ‹_›
  | join =>
      simp only [step] at h
      split at h <;> cases h
      exact .join ‹_› ‹_›
  | check =>
      simp only [step] at h
      split at h <;> cases h
      exact .check ‹_›
  | wake =>
      simp only [step] at h
      split at h <;> cases h
      exact .wake ‹_›
  | progress count message =>
      simp only [step] at h
      split at h <;> try cases h
      split at h <;> cases h
      exact .progress ‹_› (Bool.eq_false_iff.mpr ‹_›)
  | finish =>
      simp only [step] at h
      split at h <;> try cases h
      split at h <;> cases h
      exact .finish ‹_› ‹_›
  | workerWrite =>
      simp only [step] at h
      split at h <;> cases h
      exact .workerWrite ‹_›

def start (input : Text) (d : Dispatcher) : ServeState := { input, world := { dispatcher := d } }

def response? : ServeEvent → Option Response
  | .response r => some r
  | _ => none

def isCall : ServeEvent → Bool
  | .began _ | .ended _ => true
  | _ => false

def responses (events : List ServeEvent) : List Response := events.filterMap response?

def callLog (events : List ServeEvent) : List ServeEvent := events.filter isCall

end JJMCP.Serve
