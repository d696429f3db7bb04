import JJMCP.Lib.Pipe
import JJMCP.Process

namespace JJMCP

open Lib

inductive OutStream
  | stdout | stderr
deriving DecidableEq

/-- The last act is an exit with a code or a signal that ends the child, its own or
from outside run. -/
inductive ChildAct
  | read (n : Nat)
  | write (stream : OutStream) (bytes : Text)
  | exit (status : WaitStatus)

/-- A running child has done its first acts, and so many bytes of a write. -/
inductive Child
  | running (act written : Nat)
  | zombie (status : WaitStatus)
  | gone
deriving DecidableEq

def Child.isRunning : Child → Bool
  | .running _ _ => true
  | _ => false

/-- The sizes of the three pipes, and whether poll itself may fail. -/
structure Host where
  stdin : ℕ+
  stdout : ℕ+
  stderr : ℕ+
  pollMayFail : Bool := false

/-- The parent, its child, the pipes between them and the clock. -/
structure System where
  parent : ProcessRun
  child : Child := .running 0 0
  stdin : Pipe UInt8
  stdout : Pipe UInt8
  stderr : Pipe UInt8
  time : Nat := 0

inductive ProcessMove
  | parent (a : Answer)
  | child (count : Nat)

end JJMCP

namespace JJMCP.Process

open Lib Lib.Runs Text

def initial (host : Host) (spec : RunSpec) : System where
  parent := start spec
  stdin := { capacity := host.stdin }
  stdout := { capacity := host.stdout }
  stderr := { capacity := host.stderr }

def writeAnswer (s : System) (rest : Text) : Answer → Option System
  | .wrote n =>
      if s.child.isRunning ∧ 0 < n ∧ n ≤ rest.length then
        (s.stdin.push (rest.take n)).map fun stdin => { s with stdin }
      else none
  | .interrupted => some s
  | .failed => if s.child.isRunning then none else some s
  | _ => none

def clockAnswer (s : System) : Answer → Option System
  | .now t => if s.time ≤ t then some { s with time := t } else none
  | _ => none

/-- A waitpid that may block answers only for a child that has ended. -/
def waitAnswer (mayBlock : Bool) (s : System) : Answer → Option System
  | .running => if s.child.isRunning ∧ mayBlock = false then some s else none
  | .reaped status => if s.child = .zombie status then some { s with child := .gone } else none
  | .failed => if s.child = .gone then some s else none
  | .interrupted => if mayBlock then some s else none
  | _ => none

def killAnswer (s : System) : Answer → Option System
  | .killed =>
      match s.child with
      | .running _ _ => some { s with child := .zombie (.signaled 9) }
      | .zombie _ => some s
      | .gone => none
  | .failed => if s.child = .gone then some s else none
  | _ => none

def readable (s : System) (pipe : Pipe UInt8) : Bool := !pipe.queue.isEmpty || !s.child.isRunning

def pollAnswer (host : Host) (s : System) : Answer → Option System
  | .polled outReady errReady =>
      if outReady = readable s s.stdout ∧ errReady = readable s s.stderr then some s else none
  | .interrupted => some s
  | .failed => if host.pollMayFail then some s else none
  | _ => none

/-- A read of at most 4096 bytes. The child holds the only write end: this is a child that
leaves its pipes to no process that outlives it. -/
def readAnswer (s : System) (pipe : Pipe UInt8) (put : Pipe UInt8 → System) : Answer → Option System
  | .data chunk =>
      if chunk ≠ [] ∧ chunk = pipe.queue.take 4096 then some (put (pipe.drop 4096)) else none
  | .wouldBlock => if pipe.queue = [] ∧ s.child.isRunning then some s else none
  | .endOfFile => if pipe.queue = [] ∧ s.child.isRunning = false then some s else none
  | _ => none

/-- The answers the parent's call can get now, and what they change around it. -/
def kernel (host : Host) (s : System) (a : Answer) : Option System :=
  match s.parent.call with
  | .write rest => writeAnswer s rest a
  | .startClock | .clock => clockAnswer s a
  | .waitNoHang => waitAnswer false s a
  | .waitKilled | .waitLast => waitAnswer true s a
  | .kill => killAnswer s a
  | .poll => pollAnswer host s a
  | .drainOut | .readOut _ => readAnswer s s.stdout (fun stdout => { s with stdout }) a
  | .drainErr | .readErr => readAnswer s s.stderr (fun stderr => { s with stderr }) a
  | .returned => none

def inputClosed (s : System) : Bool :=
  match s.parent.call with
  | .write _ => false
  | _ => true

def childRead (s : System) (act n count : Nat) : Option System :=
  if 0 < count ∧ count ≤ n ∧ count ≤ s.stdin.queue.length then
    some { s with stdin := s.stdin.drop count, child := .running (act + 1) 0 }
  else if n = 0 ∨ s.stdin.queue = [] ∧ inputClosed s then
    some { s with child := .running (act + 1) 0 }
  else none

def pipeOf (s : System) : OutStream → Pipe UInt8
  | .stdout => s.stdout
  | .stderr => s.stderr

def putPipe (s : System) (pipe : Pipe UInt8) : OutStream → System
  | .stdout => { s with stdout := pipe }
  | .stderr => { s with stderr := pipe }

def childWrite (s : System) (act written : Nat) (stream : OutStream) (bytes : Text) (count : Nat) :
    Option System :=
  if bytes.length ≤ written then some { s with child := .running (act + 1) 0 }
  else if 0 < count ∧ written + count ≤ bytes.length then
    ((pipeOf s stream).push ((bytes.drop written).take count)).map fun pipe =>
      { putPipe s pipe stream with child := .running act (written + count) }
  else none

def childMove (program : Nat → ChildAct) (s : System) (count : Nat) : Option System :=
  match s.child with
  | .running act written =>
      match program act with
      | .read n => childRead s act n count
      | .write stream bytes => childWrite s act written stream bytes count
      | .exit status => some { s with child := .zombie status }
  | _ => none

def move (host : Host) (program : Nat → ChildAct) (s : System) : ProcessMove → Option System
  | .parent a => do
      let s' ← kernel host s a
      let parent ← step s.parent a
      some { s' with parent }
  | .child count => childMove program s count

end JJMCP.Process
