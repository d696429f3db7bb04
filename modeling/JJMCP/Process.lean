import JJMCP.Text
import JJMCP.Lib.Runs

namespace JJMCP

structure RunSpec where
  argv : List Text
  stdinData : Text
  timeout : Nat := 5000

/-- What waitpid stores in status. -/
inductive WaitStatus
  | exited (code : Nat) | signaled (number : Nat)
deriving DecidableEq

structure ProcessResult where
  exitCode : Int := -1
  signaled : Bool := false
  signalNumber : Nat := 0
  timedOut : Bool := false
  stdoutText : Text := []
  stderrText : Text := []
deriving DecidableEq

/-- The system call that run makes next. -/
inductive Call
  | write (rest : Text)
  | startClock
  | waitNoHang | clock
  | kill | waitKilled | drainOut | drainErr
  | poll | readOut (errReady : Bool) | readErr
  | waitLast
  | returned
deriving DecidableEq

def Call.starting : Call → Bool
  | .write _ | .startClock => true
  | _ => false

def Call.polls : Call → Bool
  | .poll | .readOut _ | .readErr => true
  | _ => false

def Call.drains : Call → Bool
  | .drainOut | .drainErr => true
  | _ => false

inductive Answer
  | wrote (n : Nat)
  | now (time : Nat)
  | running | reaped (status : WaitStatus)
  | killed
  | polled (out err : Bool)
  | data (chunk : Text) | endOfFile | wouldBlock
  | interrupted | failed
deriving DecidableEq

def Answer.time : Answer → Option Nat
  | .now t => some t
  | _ => none

/-- The variables of run. The deadline is set when the input has been written. -/
structure ProcessRun where
  call : Call
  timeout : Nat
  deadline : Nat := 0
  stdoutOpen : Bool := true
  stderrOpen : Bool := true
  childDone : Bool := false
  timedOut : Bool := false
  status : WaitStatus := .exited 0
  stdoutText : Text := []
  stderrText : Text := []
deriving DecidableEq

end JJMCP

namespace JJMCP.Process

open Lib.Runs Text

/-- The parent after the fork. A child without input data gets no stdin pipe. -/
def start (spec : RunSpec) : ProcessRun :=
  { call := if spec.stdinData = [] then .startClock else .write spec.stdinData
    timeout := spec.timeout }

def leaveLoop (s : ProcessRun) : ProcessRun :=
  { s with call := if s.childDone then .returned else .waitLast }

def checkEnded (s : ProcessRun) : ProcessRun :=
  if !s.stdoutOpen && !s.stderrOpen && s.childDone then leaveLoop s else { s with call := .clock }

/-- The head of the collect loop. -/
def turn (s : ProcessRun) : ProcessRun :=
  if s.stdoutOpen || s.stderrOpen || !s.childDone then
    if s.childDone then checkEnded s else { s with call := .waitNoHang }
  else leaveLoop s

/-- With both pipes closed nothing is polled and the loop turns at once. -/
def pollOpen (s : ProcessRun) : ProcessRun :=
  if s.stdoutOpen || s.stderrOpen then { s with call := .poll } else turn s

def afterOut (errReady : Bool) (s : ProcessRun) : ProcessRun :=
  if s.stderrOpen && errReady then { s with call := .readErr } else turn s

def afterPoll (outReady errReady : Bool) (s : ProcessRun) : ProcessRun :=
  if s.stdoutOpen && outReady then { s with call := .readOut errReady } else afterOut errReady s

/-- One read of append_available: the output, whether the pipe is open still and
whether it reads again. -/
def appendAvailable (output : Text) (isOpen : Bool) : Answer → Option (Text × Bool × Bool)
  | .data chunk => some (output ++ chunk, isOpen, true)
  | .wouldBlock => some (output, isOpen, false)
  | .endOfFile | .interrupted | .failed => some (output, false, false)
  | _ => none

def readStdout (next : ProcessRun → ProcessRun) (s : ProcessRun) (a : Answer) : Option ProcessRun :=
  (appendAvailable s.stdoutText s.stdoutOpen a).map fun (stdoutText, stdoutOpen, again) =>
    let s' := { s with stdoutText, stdoutOpen }
    if again then s' else next s'

def readStderr (next : ProcessRun → ProcessRun) (s : ProcessRun) (a : Answer) : Option ProcessRun :=
  (appendAvailable s.stderrText s.stderrOpen a).map fun (stderrText, stderrOpen, again) =>
    let s' := { s with stderrText, stderrOpen }
    if again then s' else next s'

def onWrite (s : ProcessRun) (rest : Text) : Answer → Option ProcessRun
  | .wrote n =>
      if n ≤ rest.length then
        some { s with call := if rest.drop n = [] then .startClock else .write (rest.drop n) }
      else none
  | .interrupted => some s
  | .failed => some { s with call := .startClock }
  | _ => none

def onStartClock (s : ProcessRun) : Answer → Option ProcessRun
  | .now t => some (turn { s with deadline := t + s.timeout })
  | _ => none

def onWaitNoHang (s : ProcessRun) : Answer → Option ProcessRun
  | .reaped status => some (checkEnded { s with childDone := true, status })
  | .running | .failed => some (checkEnded s)
  | _ => none

def onClock (s : ProcessRun) : Answer → Option ProcessRun
  | .now t => some (if s.deadline ≤ t then { s with timedOut := true, call := .kill } else pollOpen s)
  | _ => none

def onKill (s : ProcessRun) : Answer → Option ProcessRun
  | .killed | .failed => some { s with call := .waitKilled }
  | _ => none

/-- The flag is set whatever waitpid answers. -/
def onWaitKilled (s : ProcessRun) : Answer → Option ProcessRun
  | .reaped status => some { s with childDone := true, status, call := .drainOut }
  | .interrupted | .failed => some { s with childDone := true, call := .drainOut }
  | _ => none

def onPoll (s : ProcessRun) : Answer → Option ProcessRun
  | .polled outReady errReady => some (afterPoll outReady errReady s)
  | .interrupted => some (afterPoll false false s)
  | .failed => some (leaveLoop s)
  | _ => none

def onWaitLast (s : ProcessRun) : Answer → Option ProcessRun
  | .reaped status => some { s with status, call := .returned }
  | .interrupted | .failed => some { s with call := .returned }
  | _ => none

/-- What run does with the answer of the call it made. -/
def step (s : ProcessRun) (a : Answer) : Option ProcessRun :=
  match s.call with
  | .write rest => onWrite s rest a
  | .startClock => onStartClock s a
  | .waitNoHang => onWaitNoHang s a
  | .clock => onClock s a
  | .kill => onKill s a
  | .waitKilled => onWaitKilled s a
  | .drainOut => readStdout (fun s => { s with call := .drainErr }) s a
  | .drainErr => readStderr leaveLoop s a
  | .poll => onPoll s a
  | .readOut errReady => readStdout (afterOut errReady) s a
  | .readErr => readStderr turn s a
  | .waitLast => onWaitLast s a
  | .returned => none

def result (s : ProcessRun) : ProcessResult :=
  let r : ProcessResult := { timedOut := s.timedOut, stdoutText := s.stdoutText, stderrText := s.stderrText }
  match s.status with
  | .exited code => { r with exitCode := code }
  | .signaled number => { r with signaled := true, signalNumber := number, exitCode := 128 + number }

/-- The call the loop goes on to. -/
inductive Onward (s : ProcessRun) : Call → Prop
  | wait (h : s.childDone = false) : Onward s .waitNoHang
  | clock : Onward s .clock
  | ended (h : s.childDone = true) : Onward s .returned

theorem checkEnded_eq (s : ProcessRun) :
    ∃ c, (c = .clock ∨ c = .returned ∧ s.childDone = true) ∧ checkEnded s = { s with call := c } := by
  by_cases h : (!s.stdoutOpen && !s.stderrOpen && s.childDone) = true
  · have hdone : s.childDone = true := by simp only [Bool.and_eq_true] at h; exact h.2
    exact ⟨.returned, .inr ⟨rfl, hdone⟩, by rw [checkEnded, if_pos h, leaveLoop, if_pos hdone]⟩
  · exact ⟨.clock, .inl rfl, by rw [checkEnded, if_neg h]⟩

theorem checkEnded_onward (s : ProcessRun) : ∃ c, Onward s c ∧ checkEnded s = { s with call := c } := by
  obtain ⟨c, rfl | ⟨rfl, hdone⟩, h⟩ := checkEnded_eq s
  · exact ⟨.clock, .clock, h⟩
  · exact ⟨.returned, .ended hdone, h⟩

theorem turn_onward (s : ProcessRun) : ∃ c, Onward s c ∧ turn s = { s with call := c } := by
  cases hdone : s.childDone with
  | false => exact ⟨.waitNoHang, .wait hdone, by simp [turn, hdone]⟩
  | true =>
      by_cases hopen : (s.stdoutOpen || s.stderrOpen) = true
      · obtain ⟨c, hc, h⟩ := checkEnded_onward s
        exact ⟨c, hc, by simpa [turn, hdone, hopen] using h⟩
      · exact ⟨.returned, .ended hdone, by simp_all [turn, leaveLoop]⟩

theorem afterOut_onward (errReady : Bool) (s : ProcessRun) :
    ∃ c, (c = .readErr ∨ Onward s c) ∧ afterOut errReady s = { s with call := c } := by
  by_cases h : (s.stderrOpen && errReady) = true
  · exact ⟨.readErr, .inl rfl, by rw [afterOut, if_pos h]⟩
  · obtain ⟨c, hc, ht⟩ := turn_onward s
    exact ⟨c, .inr hc, by rw [afterOut, if_neg h, ht]⟩

theorem afterPoll_onward (outReady errReady : Bool) (s : ProcessRun) :
    ∃ c, (c = .readOut errReady ∨ c = .readErr ∨ Onward s c) ∧
      afterPoll outReady errReady s = { s with call := c } := by
  by_cases h : (s.stdoutOpen && outReady) = true
  · exact ⟨.readOut errReady, .inl rfl, by rw [afterPoll, if_pos h]⟩
  · obtain ⟨c, hc, ht⟩ := afterOut_onward errReady s
    exact ⟨c, .inr hc, by rw [afterPoll, if_neg h, ht]⟩

theorem pollOpen_onward (s : ProcessRun) :
    ∃ c, (c = .poll ∨ Onward s c) ∧ pollOpen s = { s with call := c } := by
  by_cases h : (s.stdoutOpen || s.stderrOpen) = true
  · exact ⟨.poll, .inl rfl, by rw [pollOpen, if_pos h]⟩
  · obtain ⟨c, hc, ht⟩ := turn_onward s
    exact ⟨c, .inr hc, by rw [pollOpen, if_neg h, ht]⟩

/-- What one read leaves alone. -/
structure ReadOnly (s t : ProcessRun) : Prop where
  call : t.call = s.call
  timeout : t.timeout = s.timeout
  deadline : t.deadline = s.deadline
  childDone : t.childDone = s.childDone
  timedOut : t.timedOut = s.timedOut

theorem ReadOnly.refl (s : ProcessRun) : ReadOnly s s := ⟨rfl, rfl, rfl, rfl, rfl⟩

theorem appendAvailable_answer {output : Text} {isOpen : Bool} {a : Answer} {r : Text × Bool × Bool}
    (h : appendAvailable output isOpen a = some r) : a.time = none ∧ ∀ status, a ≠ .reaped status := by
  cases a <;> simp_all [appendAvailable, Answer.time]

theorem readStdout_cases {next : ProcessRun → ProcessRun} {s t : ProcessRun} {a : Answer}
    (h : readStdout next s a = some t) :
    (a.time = none ∧ ∀ status, a ≠ .reaped status) ∧ ∃ s', ReadOnly s s' ∧ (t = s' ∨ t = next s') := by
  obtain ⟨⟨stdoutText, stdoutOpen, again⟩, hr, rfl⟩ := Option.map_eq_some_iff.mp h
  refine ⟨appendAvailable_answer hr, { s with stdoutText, stdoutOpen }, ⟨rfl, rfl, rfl, rfl, rfl⟩, ?_⟩
  cases again
  · exact .inr rfl
  · exact .inl rfl

theorem readStderr_cases {next : ProcessRun → ProcessRun} {s t : ProcessRun} {a : Answer}
    (h : readStderr next s a = some t) :
    (a.time = none ∧ ∀ status, a ≠ .reaped status) ∧ ∃ s', ReadOnly s s' ∧ (t = s' ∨ t = next s') := by
  obtain ⟨⟨stderrText, stderrOpen, again⟩, hr, rfl⟩ := Option.map_eq_some_iff.mp h
  refine ⟨appendAvailable_answer hr, { s with stderrText, stderrOpen }, ⟨rfl, rfl, rfl, rfl, rfl⟩, ?_⟩
  cases again
  · exact .inr rfl
  · exact .inl rfl

end JJMCP.Process
