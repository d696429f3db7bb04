import JJMCP.ProcessHang

namespace JJMCP.Process

open Lib Lib.Runs Text

variable {host : Host} {program : Nat → ChildAct} {spec : RunSpec} {s t : System}

/-- What an act has put out on a stream when so many bytes of it are written. -/
def putPart (stream : OutStream) (written : Nat) : ChildAct → Text
  | .write target bytes => if target = stream then bytes.take written else []
  | _ => []

def putAll (stream : OutStream) : ChildAct → Text
  | .write target bytes => if target = stream then bytes else []
  | _ => []

/-- What the child has put out on a stream after its first acts and so many bytes
of the next one. -/
def emitted (program : Nat → ChildAct) (act written : Nat) (stream : OutStream) : Text :=
  (List.range act).flatMap (fun i => putAll stream (program i)) ++ putPart stream written (program act)

def textOf (p : ProcessRun) : OutStream → Text
  | .stdout => p.stdoutText
  | .stderr => p.stderrText

def openOf (p : ProcessRun) : OutStream → Bool
  | .stdout => p.stdoutOpen
  | .stderr => p.stderrOpen

def setRead (p : ProcessRun) (text : Text) (isOpen : Bool) : OutStream → ProcessRun
  | .stdout => { p with stdoutText := text, stdoutOpen := isOpen }
  | .stderr => { p with stderrText := text, stderrOpen := isOpen }

abbrev collected (s : System) (stream : OutStream) : Text := textOf s.parent stream

/-- What the parent has collected and what waits for it in the pipe. -/
def writtenBy (s : System) (stream : OutStream) : Text := collected s stream ++ (pipeOf s stream).queue

/-- The child is at this point of its program, or has ended there. -/
def At (program : Nat → ChildAct) (s : System) (act written : Nat) : Prop :=
  match s.child with
  | .running a w => a = act ∧ w = written
  | .zombie status => s.parent.timedOut = false → program act = .exit status ∧ written = 0
  | .gone => s.parent.timedOut = false → program act = .exit s.parent.status ∧ written = 0

@[simp] theorem putPart_zero (stream : OutStream) (a : ChildAct) : putPart stream 0 a = [] := by
  cases a <;> simp [putPart]

/-- A finished act counts as a whole. -/
theorem emitted_next {act written : Nat} {stream : OutStream}
    (h : putPart stream written (program act) = putAll stream (program act)) :
    emitted program (act + 1) 0 stream = emitted program act written stream := by
  rw [emitted, emitted, List.range_succ, List.flatMap_append, putPart_zero, h]
  simp

theorem childWrite_written {act written count : Nat} {target : OutStream} {bytes : Text} {pipe : Pipe UInt8}
    (hact : program act = .write target bytes)
    (hpush : (pipeOf s target).push ((bytes.drop written).take count) = some pipe)
    (h : ∀ stream, writtenBy s stream = emitted program act written stream) (stream : OutStream) :
    let t := { putPipe s pipe target with child := .running act (written + count) }
    writtenBy t stream = emitted program act (written + count) stream ∧ writtenBy s stream <+: writtenBy t stream := by
  intro t
  obtain ⟨-, hqueue⟩ := Pipe.push_eq_some hpush
  have hgrown : writtenBy t stream = writtenBy s stream ++ if target = stream then (bytes.drop written).take count else [] := by
    cases target <;> cases stream <;>
      simp only [writtenBy, t, putPipe, pipeOf, collected, textOf, hqueue, if_true, reduceCtorEq, if_false, List.append_nil,
        List.append_assoc]
  refine ⟨?_, hgrown ▸ List.prefix_append _ _⟩
  rw [hgrown, h stream, emitted, emitted, hact, putPart, putPart]
  split
  · rw [List.append_assoc, List.take_add]
  · simp

theorem writtenBy_congr {stream : OutStream} (hcollected : collected t stream = collected s stream)
    (hpipe : pipeOf t stream = pipeOf s stream) : writtenBy t stream = writtenBy s stream := by
  rw [writtenBy, writtenBy, hcollected, hpipe]

/-- What a move of the child does: it stays at a point of its program with all it
has put out up to there, and nothing of that goes. -/
structure ChildMoved (program : Nat → ChildAct) (s t : System) : Prop where
  parent : t.parent = s.parent
  point : ∃ act written, At program t act written ∧ ∀ stream, writtenBy t stream = emitted program act written stream
  grown : ∀ stream, writtenBy s stream <+: writtenBy t stream
  notGone : t.child ≠ .gone

theorem ChildMoved.still {act written act' : Nat} (hparent : t.parent = s.parent)
    (h : ∀ stream, writtenBy s stream = emitted program act written stream)
    (hpipes : ∀ stream, pipeOf t stream = pipeOf s stream) (hat : At program t act' 0) (hgone : t.child ≠ .gone)
    (hsame : ∀ stream, emitted program act' 0 stream = emitted program act written stream) :
    ChildMoved program s t := by
  have hw : ∀ stream, writtenBy t stream = writtenBy s stream := fun stream =>
    writtenBy_congr (by rw [collected, hparent]) (hpipes stream)
  exact ⟨hparent, ⟨act', 0, hat, fun stream => by rw [hw, h, hsame]⟩, fun stream => hw stream ▸ List.prefix_rfl, hgone⟩

theorem childMove_moved {count act written : Nat} (hchild : s.child = .running act written)
    (h : ∀ stream, writtenBy s stream = emitted program act written stream)
    (hmove : childMove program s count = some t) : ChildMoved program s t := by
  simp only [childMove, hchild] at hmove
  cases hact : program act with
  | read n =>
      have hnext : ∀ stream, emitted program (act + 1) 0 stream = emitted program act written stream :=
        fun stream => emitted_next (by simp [hact, putPart, putAll])
      simp only [hact, childRead] at hmove
      split_ifs at hmove
      · obtain rfl := Option.some.inj hmove
        exact .still rfl h (fun stream => by cases stream <;> rfl) ⟨rfl, rfl⟩ (by simp) hnext
      · obtain rfl := Option.some.inj hmove
        exact .still rfl h (fun stream => by cases stream <;> rfl) ⟨rfl, rfl⟩ (by simp) hnext
  | write target bytes =>
      simp only [hact, childWrite] at hmove
      split_ifs at hmove with hdone
      · obtain rfl := Option.some.inj hmove
        have hnext : ∀ stream, emitted program (act + 1) 0 stream = emitted program act written stream :=
          fun stream => emitted_next (by simp [hact, putPart, putAll, List.take_of_length_le hdone])
        exact .still rfl h (fun stream => by cases stream <;> rfl) ⟨rfl, rfl⟩ (by simp) hnext
      · obtain ⟨pipe, hpush, rfl⟩ := Option.map_eq_some_iff.mp hmove
        have hall := childWrite_written hact hpush h
        refine ⟨?_, ⟨act, written + count, ⟨rfl, rfl⟩, fun stream => (hall stream).1⟩, fun stream => (hall stream).2, by simp⟩
        cases target <;> rfl
  | exit status =>
      simp only [hact] at hmove
      obtain rfl := Option.some.inj hmove
      refine .still rfl h (fun stream => by cases stream <;> rfl) (fun _ => ⟨hact, rfl⟩) (by simp) fun stream => ?_
      simp [emitted, hact, putPart]

/-- What calls only an overdue child brings about. -/
def late : Call → Bool
  | .kill | .waitKilled | .drainOut | .drainErr => true
  | _ => false

/-- A call inside the loop, or the return with both pipes at their end and the child waited for. -/
structure Calm (p : ProcessRun) (c : Call) : Prop where
  early : late c = false
  notLast : c ≠ .waitLast
  returned : c = .returned → (∀ stream, openOf p stream = false) ∧ p.childDone = true

theorem openOf_false {p : ProcessRun} (hout : p.stdoutOpen = false) (herr : p.stderrOpen = false) (stream : OutStream) :
    openOf p stream = false := by
  cases stream
  · exact hout
  · exact herr

theorem calm_checkEnded (p : ProcessRun) : ∃ c, Calm p c ∧ checkEnded p = { p with call := c } := by
  by_cases h : (!p.stdoutOpen && !p.stderrOpen && p.childDone) = true
  · rw [checkEnded, if_pos h]
    simp only [Bool.and_eq_true, Bool.not_eq_true'] at h
    refine ⟨.returned, ⟨rfl, by simp, fun _ => ⟨openOf_false h.1.1 h.1.2, h.2⟩⟩, ?_⟩
    rw [leaveLoop, if_pos h.2]
  · rw [checkEnded, if_neg h]
    exact ⟨.clock, ⟨rfl, by simp, by simp⟩, rfl⟩

theorem calm_turn (p : ProcessRun) : ∃ c, Calm p c ∧ turn p = { p with call := c } := by
  rw [turn]
  split
  · split
    · exact calm_checkEnded p
    · exact ⟨.waitNoHang, ⟨rfl, by simp, by simp⟩, rfl⟩
  next h =>
    simp only [Bool.or_eq_true, Bool.not_eq_true', not_or, Bool.not_eq_true, Bool.not_eq_false] at h
    refine ⟨.returned, ⟨rfl, by simp, fun _ => ⟨openOf_false h.1.1 h.1.2, h.2⟩⟩, ?_⟩
    rw [leaveLoop, if_pos h.2]

theorem calm_afterOut (errReady : Bool) (p : ProcessRun) : ∃ c, Calm p c ∧ afterOut errReady p = { p with call := c } := by
  rw [afterOut]
  split
  · exact ⟨.readErr, ⟨rfl, by simp, by simp⟩, rfl⟩
  · exact calm_turn p

theorem calm_afterPoll (outReady errReady : Bool) (p : ProcessRun) :
    ∃ c, Calm p c ∧ afterPoll outReady errReady p = { p with call := c } := by
  rw [afterPoll]
  split
  · exact ⟨.readOut errReady, ⟨rfl, by simp, by simp⟩, rfl⟩
  · exact calm_afterOut errReady p

theorem calm_pollOpen (p : ProcessRun) : ∃ c, Calm p c ∧ pollOpen p = { p with call := c } := by
  rw [pollOpen]
  split
  · exact ⟨.poll, ⟨rfl, by simp, by simp⟩, rfl⟩
  · exact calm_turn p

/-- What the parent has collected and what waits in the pipes is what the child has
put out, a pipe is at its end only when nothing can come any more, and the status
is the child's unless it was overdue. -/
structure Tracked (program : Nat → ChildAct) (s : System) : Prop where
  point : ∃ act written, At program s act written ∧ ∀ stream, writtenBy s stream = emitted program act written stream
  closed : ∀ stream, openOf s.parent stream = false → s.child.isRunning = false ∧ (pipeOf s stream).queue = []
  notLast : s.parent.call ≠ .waitLast
  returned : s.parent.call = .returned → (∀ stream, openOf s.parent stream = false) ∧ s.parent.childDone = true
  drainErr : s.parent.call = .drainErr → s.parent.stdoutOpen = false
  overdue : late s.parent.call = true → s.parent.timedOut = true
  killed : late s.parent.call = true → s.parent.call ≠ .kill → s.child.isRunning = false
  drained : s.parent.call = .drainOut ∨ s.parent.call = .drainErr → s.parent.childDone = true
  done : s.parent.timedOut = false → s.parent.childDone = true → s.child = .gone

theorem tracked_initial (program : Nat → ChildAct) (host : Host) (spec : RunSpec) :
    Tracked program (initial host spec) := by
  have hcall : (initial host spec).parent.call = .startClock ∨ ∃ rest, (initial host spec).parent.call = .write rest := by
    by_cases h : spec.stdinData = []
    · exact .inl (by simp [initial, start, h])
    · exact .inr ⟨spec.stdinData, by simp [initial, start, h]⟩
  refine ⟨⟨0, 0, ⟨rfl, rfl⟩, fun stream => ?_⟩, fun stream => ?_, ?_, ?_, ?_, ?_, ?_, ?_, by simp [initial, start]⟩
  · cases stream <;> simp [writtenBy, textOf, pipeOf, emitted, initial, start]
  · cases stream <;> simp [openOf, initial, start]
  all_goals rcases hcall with h | ⟨rest, h⟩ <;> simp [h, late]

theorem Tracked.recall (h : Tracked program s) {c : Call} (hc : Calm s.parent c) :
    Tracked program { s with parent := { s.parent with call := c } } where
  point := h.point
  closed := h.closed
  notLast := hc.notLast
  returned := hc.returned
  drainErr := fun he => absurd hc.early (by simp [show c = .drainErr from he, late])
  overdue := fun hl => absurd hc.early (by simp [show late c = true from hl])
  killed := fun hl => absurd hc.early (by simp [show late c = true from hl])
  drained := fun hd => absurd hc.early (by
    rcases hd with hd | hd
    · simp [show c = .drainOut from hd, late]
    · simp [show c = .drainErr from hd, late])
  done := h.done

theorem Tracked.child (h : Tracked program s) {count : Nat} (hmove : childMove program s count = some t) :
    Tracked program t ∧ ∀ stream, writtenBy s stream <+: writtenBy t stream := by
  obtain ⟨act, written, hat, hw⟩ := h.point
  cases hchild : s.child with
  | running a w =>
      rw [At, hchild] at hat
      obtain ⟨rfl, rfl⟩ := hat
      obtain ⟨hparent, hpoint, hgrown, hgone⟩ := childMove_moved hchild hw hmove
      have hrun : s.child.isRunning = true := by simp [hchild, Child.isRunning]
      refine ⟨⟨hpoint, ?_, ?_, ?_, ?_, ?_, ?_, ?_, ?_⟩, hgrown⟩
      · rw [hparent]
        exact fun stream hc => absurd (h.closed stream hc).1 (by simp [hrun])
      · rw [hparent]
        exact h.notLast
      · rw [hparent]
        exact h.returned
      · rw [hparent]
        exact h.drainErr
      · rw [hparent]
        exact h.overdue
      · rw [hparent]
        exact fun hl hk => absurd (h.killed hl hk) (by simp [hrun])
      · rw [hparent]
        exact h.drained
      · rw [hparent]
        exact fun ht hd => absurd (h.done ht hd) (by simp [hchild])
  | zombie | gone => simp [childMove, hchild] at hmove

theorem writtenBy_read {stream : OutStream} {chunk : Text} {n : Nat} (hchunk : chunk = (pipeOf s stream).queue.take n)
    (isOpen : Bool) (other : OutStream) :
    writtenBy { putPipe s ((pipeOf s stream).drop n) stream with
      parent := setRead s.parent (textOf s.parent stream ++ chunk) isOpen stream } other = writtenBy s other := by
  cases stream <;> cases other <;>
    simp [writtenBy, textOf, setRead, pipeOf, putPipe, hchunk, List.append_assoc]

/-- A read that loses nothing and closes a pipe only at its end. -/
theorem Tracked.put (h : Tracked program s) {stream : OutStream} {pipe : Pipe UInt8} {text : Text} {isOpen : Bool}
    (hw : ∀ other, writtenBy { putPipe s pipe stream with parent := setRead s.parent text isOpen stream } other =
      writtenBy s other)
    (hclosed : isOpen = false → s.child.isRunning = false ∧ pipe.queue = [])
    (hopen : isOpen = true → openOf s.parent stream = true) :
    Tracked program { putPipe s pipe stream with parent := setRead s.parent text isOpen stream } := by
  obtain ⟨act, written, hat, hs⟩ := h.point
  have hsets : ∀ other, openOf (Process.setRead s.parent text isOpen stream) other = false →
      openOf s.parent other = false ∨ (other = stream ∧ isOpen = false) := by
    intro other hother
    cases stream <;> cases other <;> first | exact .inl hother | exact .inr ⟨rfl, hother⟩
  have hkept : ∀ other, openOf s.parent other = false → openOf (Process.setRead s.parent text isOpen stream) other = false := by
    intro other hother
    cases isOpen with
    | false => cases stream <;> cases other <;> first | exact hother | rfl
    | true =>
        have hstream := hopen rfl
        cases stream <;> cases other <;>
          first | exact hother | exact absurd hother (by simp [hstream])
  cases stream with
  | stdout =>
      refine ⟨⟨act, written, hat, fun other => (hw other).trans (hs other)⟩, fun other hother => ?_, h.notLast,
        fun hr => ⟨fun other => hkept other ((h.returned hr).1 other), (h.returned hr).2⟩,
        fun hd => hkept .stdout (h.drainErr hd), h.overdue, h.killed, h.drained, h.done⟩
      cases other with
      | stdout => exact hclosed hother
      | stderr => exact h.closed .stderr hother
  | stderr =>
      refine ⟨⟨act, written, hat, fun other => (hw other).trans (hs other)⟩, fun other hother => ?_, h.notLast,
        fun hr => ⟨fun other => hkept other ((h.returned hr).1 other), (h.returned hr).2⟩,
        h.drainErr, h.overdue, h.killed, h.drained, h.done⟩
      cases other with
      | stdout => exact h.closed .stdout hother
      | stderr => exact hclosed hother

/-- A read moves bytes from the pipe to the text, or finds the pipe empty, or at its end. -/
theorem Tracked.read (h : Tracked program s) {stream : OutStream} {s' : System} {a : Answer} {text : Text}
    {isOpen again : Bool}
    (hk : readAnswer s (pipeOf s stream) (fun pipe => putPipe s pipe stream) a = some s')
    (hread : appendAvailable (textOf s.parent stream) (openOf s.parent stream) a = some (text, isOpen, again)) :
    Tracked program { s' with parent := setRead s.parent text isOpen stream } ∧
      (∀ other, writtenBy { s' with parent := setRead s.parent text isOpen stream } other = writtenBy s other) ∧
      (again = false → s.child.isRunning = false → isOpen = false) ∧ s'.child = s.child := by
  have hchild : ∀ pipe, (putPipe s pipe stream).child = s.child := by cases stream <;> simp [putPipe]
  cases a with
  | data chunk =>
      obtain ⟨⟨-, hchunk⟩, ht⟩ := Option.ite_none_right_eq_some.mp hk
      obtain rfl := Option.some.inj ht
      simp only [appendAvailable, Option.some.injEq, Prod.mk.injEq] at hread
      obtain ⟨rfl, rfl, rfl⟩ := hread
      have hw := writtenBy_read hchunk (openOf s.parent stream)
      refine ⟨h.put hw (fun hc => ?_) id, hw, by simp, hchild _⟩
      obtain ⟨hrun, hqueue⟩ := h.closed stream hc
      exact ⟨hrun, by simp [hqueue]⟩
  | wouldBlock =>
      obtain ⟨⟨-, hrun⟩, ht⟩ := Option.ite_none_right_eq_some.mp hk
      obtain rfl := Option.some.inj ht
      simp only [appendAvailable, Option.some.injEq, Prod.mk.injEq] at hread
      obtain ⟨rfl, rfl, rfl⟩ := hread
      have hsame : setRead s.parent (textOf s.parent stream) (openOf s.parent stream) stream = s.parent := by
        cases stream <;> rfl
      rw [hsame]
      exact ⟨h, fun _ => rfl, fun _ hdead => absurd hrun (by simp [hdead]), rfl⟩
  | endOfFile =>
      obtain ⟨⟨hqueue, hrun⟩, ht⟩ := Option.ite_none_right_eq_some.mp hk
      obtain rfl := Option.some.inj ht
      simp only [appendAvailable, Option.some.injEq, Prod.mk.injEq] at hread
      obtain ⟨rfl, rfl, rfl⟩ := hread
      have hput : putPipe s (pipeOf s stream) stream = s := by cases stream <;> rfl
      have hw : ∀ other, writtenBy { putPipe s (pipeOf s stream) stream with
          parent := setRead s.parent (textOf s.parent stream) false stream } other = writtenBy s other := by
        intro other
        cases stream <;> cases other <;> rfl
      have hboth := h.put hw (fun _ => ⟨hrun, hqueue⟩) (by simp)
      rw [hput] at hboth hw
      exact ⟨hboth, hw, fun _ _ => rfl, rfl⟩
  | _ => cases hk

/-- The pipe to the child, the clock and the deadline do not matter. -/
theorem Tracked.beside (h : Tracked program s) (stdin : Pipe UInt8) (time deadline : Nat) :
    Tracked program { s with stdin, time, parent := { s.parent with deadline } } :=
  ⟨h.point, h.closed, h.notLast, h.returned, h.drainErr, h.overdue, h.killed, h.drained, h.done⟩

/-- The status that waitpid stores is the one the child ended with. -/
theorem Tracked.reap (h : Tracked program s) {status : WaitStatus} (hchild : s.child = .zombie status) :
    Tracked program { s with child := .gone, parent := { s.parent with childDone := true, status } } := by
  obtain ⟨act, written, hat, hw⟩ := h.point
  refine ⟨⟨act, written, fun ht => ?_, hw⟩, fun stream hc => ⟨rfl, (h.closed stream hc).2⟩, h.notLast,
    fun hr => ⟨(h.returned hr).1, rfl⟩, h.drainErr, h.overdue, fun _ _ => rfl, fun _ => rfl, fun _ _ => rfl⟩
  rw [At, hchild] at hat
  exact hat ht

theorem Tracked.overrun (h : Tracked program s) :
    Tracked program { s with parent := { s.parent with timedOut := true, call := .kill } } := by
  obtain ⟨act, written, hat, hw⟩ := h.point
  refine ⟨⟨act, written, ?_, hw⟩, h.closed, by simp, by simp, by simp, fun _ => rfl, fun _ hk => absurd rfl hk, by simp, by simp⟩
  cases hchild : s.child with
  | running a w => simpa [At, hchild] using hat
  | zombie status => simp [At]
  | gone => simp [At]

/-- The child that is killed leaves what it has put out. -/
theorem Tracked.kill (h : Tracked program s) (hcall : s.parent.call = .kill) {s' : System} {a : Answer}
    (hk : killAnswer s a = some s') :
    Tracked program { s' with parent := { s.parent with call := .waitKilled } } ∧
      ∀ stream, writtenBy { s' with parent := { s.parent with call := .waitKilled } } stream = writtenBy s stream := by
  obtain ⟨act, written, hat, hw⟩ := h.point
  have hlate : s.parent.timedOut = true := h.overdue (by rw [hcall]; rfl)
  have hdead : ∀ child : Child, child.isRunning = false → At program { s with child } act written →
      Tracked program { s with child, parent := { s.parent with call := .waitKilled } } := by
    intro child hrun hat'
    exact ⟨⟨act, written, hat', hw⟩, fun stream hc => ⟨hrun, (h.closed stream hc).2⟩, by simp, by simp, by simp,
      fun _ => hlate, fun _ _ => hrun, by simp, fun ht => absurd hlate (by simp [show s.parent.timedOut = false from ht])⟩
  cases a with
  | killed =>
      cases hchild : s.child with
      | running a w =>
          simp only [killAnswer, hchild] at hk
          obtain rfl := Option.some.inj hk
          have hat' : At program { s with child := .zombie (.signaled 9) } act written := fun hin =>
            absurd hlate (by simp [show s.parent.timedOut = false from hin])
          exact ⟨hdead _ rfl hat', fun stream => by cases stream <;> rfl⟩
      | zombie status =>
          simp only [killAnswer, hchild] at hk
          obtain rfl := Option.some.inj hk
          exact ⟨hdead s.child (by simp [hchild, Child.isRunning]) hat, fun stream => by cases stream <;> rfl⟩
      | gone => simp [killAnswer, hchild] at hk
  | failed =>
      obtain ⟨hgone, ht⟩ := Option.ite_none_right_eq_some.mp hk
      obtain rfl := Option.some.inj ht
      exact ⟨hdead s.child (by simp [hgone, Child.isRunning]) hat, fun stream => by cases stream <;> rfl⟩
  | _ => cases hk

theorem Tracked.waitKilled (h : Tracked program s) (hcall : s.parent.call = .waitKilled) {s' : System} {a : Answer}
    {p : ProcessRun} (hk : waitAnswer true s a = some s') (hstep : onWaitKilled s.parent a = some p) :
    Tracked program { s' with parent := p } ∧ ∀ stream, writtenBy { s' with parent := p } stream = writtenBy s stream := by
  have hlate : s.parent.timedOut = true := h.overdue (by rw [hcall]; rfl)
  have hrun : s.child.isRunning = false := h.killed (by rw [hcall]; rfl) (by simp [hcall])
  have hdrain : ∀ {t : System}, Tracked program t → t.parent.timedOut = true → t.child.isRunning = false →
      Tracked program { t with parent := { t.parent with childDone := true, call := .drainOut } } := by
    intro t ht hlate hrun
    exact ⟨ht.point, ht.closed, by simp, by simp, by simp, fun _ => hlate, fun _ _ => hrun, fun _ => rfl,
      fun hin => absurd hlate (by simp [show t.parent.timedOut = false from hin])⟩
  cases a with
  | reaped status =>
      obtain ⟨hchild, ht⟩ := Option.ite_none_right_eq_some.mp hk
      obtain rfl := Option.some.inj ht
      obtain rfl := Option.some.inj hstep
      exact ⟨hdrain (h.reap hchild) hlate rfl, fun stream => by cases stream <;> rfl⟩
  | interrupted =>
      obtain rfl := Option.some.inj hk
      obtain rfl := Option.some.inj hstep
      exact ⟨hdrain h hlate hrun, fun stream => by cases stream <;> rfl⟩
  | failed =>
      obtain ⟨-, ht⟩ := Option.ite_none_right_eq_some.mp hk
      obtain rfl := Option.some.inj ht
      obtain rfl := Option.some.inj hstep
      exact ⟨hdrain h hlate hrun, fun stream => by cases stream <;> rfl⟩
  | _ => cases hstep

/-- A read goes on, or lets the loop go on once the pipe has no more. -/
theorem Tracked.readNext (h : Tracked program s) (stream : OutStream) (next : ProcessRun → ProcessRun)
    {s' : System} {a : Answer} {p : ProcessRun}
    (hk : readAnswer s (pipeOf s stream) (fun pipe => putPipe s pipe stream) a = some s')
    (hread : (appendAvailable (textOf s.parent stream) (openOf s.parent stream) a).map
      (fun r => if r.2.2 then setRead s.parent r.1 r.2.1 stream else next (setRead s.parent r.1 r.2.1 stream)) = some p)
    (hnext : ∀ {t : System}, Tracked program t → t.parent.call = s.parent.call →
      (s.child.isRunning = false → openOf t.parent stream = false) →
      ∃ c, next t.parent = { t.parent with call := c } ∧ Tracked program { t with parent := { t.parent with call := c } }) :
    Tracked program { s' with parent := p } ∧ ∀ other, writtenBy { s' with parent := p } other = writtenBy s other := by
  obtain ⟨⟨text, isOpen, again⟩, hr, hp⟩ := Option.map_eq_some_iff.mp hread
  obtain ⟨ht, hw, hend, -⟩ := h.read hk hr
  cases again with
  | true =>
      obtain rfl : setRead s.parent text isOpen stream = p := by simpa using hp
      exact ⟨ht, hw⟩
  | false =>
      obtain rfl : next (setRead s.parent text isOpen stream) = p := by simpa using hp
      obtain ⟨c, hc, htc⟩ := hnext ht (by cases stream <;> rfl) fun hdead => by
        have := hend rfl hdead
        cases stream <;> exact this
      dsimp only at hc htc
      rw [hc]
      exact ⟨htc, fun other => (hw other).symm ▸ by cases other <;> rfl⟩

theorem Tracked.clock (h : Tracked program s) {now : Nat} {p : ProcessRun}
    (hstep : onClock s.parent (.now now) = some p) : Tracked program { s with time := now, parent := p } := by
  have ht := h.beside s.stdin now s.parent.deadline
  obtain rfl := Option.some.inj hstep
  split
  · exact ht.overrun
  · obtain ⟨c, hc, hp⟩ := calm_pollOpen s.parent
    rw [hp]
    exact ht.recall hc

theorem Tracked.waitNoHang (h : Tracked program s) {s' : System} {a : Answer} {p : ProcessRun}
    (hk : waitAnswer false s a = some s') (hstep : onWaitNoHang s.parent a = some p) :
    Tracked program { s' with parent := p } ∧ ∀ stream, writtenBy { s' with parent := p } stream = writtenBy s stream := by
  cases a with
  | reaped status =>
      obtain ⟨hchild, ht⟩ := Option.ite_none_right_eq_some.mp hk
      obtain rfl := Option.some.inj ht
      obtain ⟨c, hc, hp⟩ := calm_checkEnded { s.parent with childDone := true, status }
      obtain rfl := hp ▸ Option.some.inj hstep
      exact ⟨(h.reap hchild).recall hc, fun stream => by cases stream <;> rfl⟩
  | running | failed =>
      obtain ⟨-, ht⟩ := Option.ite_none_right_eq_some.mp hk
      obtain rfl := Option.some.inj ht
      obtain ⟨c, hc, hp⟩ := calm_checkEnded s.parent
      obtain rfl := hp ▸ Option.some.inj hstep
      exact ⟨h.recall hc, fun stream => by cases stream <;> rfl⟩
  | _ => cases hstep

theorem Tracked.write (h : Tracked program s) {rest : Text} {s' : System} {a : Answer} {p : ProcessRun}
    (hk : writeAnswer s rest a = some s') (hstep : onWrite s.parent rest a = some p) :
    Tracked program { s' with parent := p } ∧ ∀ stream, writtenBy { s' with parent := p } stream = writtenBy s stream := by
  have hclock (p : ProcessRun) : Calm p .startClock := ⟨rfl, by simp, by simp⟩
  cases a with
  | wrote n =>
      obtain ⟨-, hpush⟩ := Option.ite_none_right_eq_some.mp hk
      obtain ⟨stdin, -, rfl⟩ := Option.map_eq_some_iff.mp hpush
      obtain ⟨-, hp⟩ := Option.ite_none_right_eq_some.mp hstep
      obtain rfl := Option.some.inj hp
      refine ⟨(h.beside stdin s.time s.parent.deadline).recall ?_, fun stream => by cases stream <;> rfl⟩
      split
      · exact hclock _
      · exact ⟨rfl, by simp, by simp⟩
  | interrupted =>
      obtain rfl := Option.some.inj hk
      obtain rfl := Option.some.inj hstep
      exact ⟨h, fun _ => rfl⟩
  | failed =>
      obtain ⟨-, ht⟩ := Option.ite_none_left_eq_some.mp hk
      obtain rfl := Option.some.inj ht
      obtain rfl := Option.some.inj hstep
      exact ⟨h.recall (hclock _), fun stream => by cases stream <;> rfl⟩
  | _ => cases hk

theorem Tracked.poll (hpoll : host.pollMayFail = false) (h : Tracked program s) {s' : System} {a : Answer}
    {p : ProcessRun} (hk : pollAnswer host s a = some s') (hstep : onPoll s.parent a = some p) :
    Tracked program { s' with parent := p } ∧ ∀ stream, writtenBy { s' with parent := p } stream = writtenBy s stream := by
  have hafter (outReady errReady : Bool) : Tracked program { s with parent := afterPoll outReady errReady s.parent } ∧
      ∀ stream, writtenBy { s with parent := afterPoll outReady errReady s.parent } stream = writtenBy s stream := by
    obtain ⟨c, hc, hp⟩ := calm_afterPoll outReady errReady s.parent
    rw [hp]
    exact ⟨h.recall hc, fun stream => by cases stream <;> rfl⟩
  cases a with
  | polled outReady errReady =>
      obtain ⟨-, ht⟩ := Option.ite_none_right_eq_some.mp hk
      obtain rfl := Option.some.inj ht
      obtain rfl := Option.some.inj hstep
      exact hafter outReady errReady
  | interrupted =>
      obtain rfl := Option.some.inj hk
      obtain rfl := Option.some.inj hstep
      exact hafter false false
  | failed => simp [pollAnswer, hpoll] at hk
  | _ => cases hstep

theorem Tracked.drainOut (h : Tracked program s) (hcall : s.parent.call = .drainOut)
    (hopen : s.parent.stdoutOpen = false) :
    Tracked program { s with parent := { s.parent with call := .drainErr } } where
  point := h.point
  closed := h.closed
  notLast := by simp
  returned := by simp
  drainErr := fun _ => hopen
  overdue := fun _ => h.overdue (by rw [hcall]; rfl)
  killed := fun _ _ => h.killed (by rw [hcall]; rfl) (by simp [hcall])
  drained := fun _ => h.drained (.inl hcall)
  done := h.done

/-- A move of the parent neither loses output nor makes any up. -/
theorem Tracked.parent (hpoll : host.pollMayFail = false) (h : Tracked program s) {s' : System} {a : Answer}
    {p : ProcessRun} (hk : kernel host s a = some s') (hstep : step s.parent a = some p) :
    Tracked program { s' with parent := p } ∧ ∀ stream, writtenBy { s' with parent := p } stream = writtenBy s stream := by
  cases hcall : s.parent.call with
  | write rest =>
      simp only [kernel, hcall] at hk
      simp only [step, hcall] at hstep
      exact h.write hk hstep
  | startClock =>
      simp only [kernel, hcall] at hk
      simp only [step, hcall] at hstep
      cases a with
      | now now =>
          obtain ⟨-, ht⟩ := Option.ite_none_right_eq_some.mp hk
          obtain rfl := Option.some.inj ht
          obtain ⟨c, hc, hp⟩ := calm_turn { s.parent with deadline := now + s.parent.timeout }
          obtain rfl := hp ▸ Option.some.inj hstep
          exact ⟨(h.beside s.stdin now _).recall hc, fun stream => by cases stream <;> rfl⟩
      | _ => cases hk
  | waitNoHang =>
      simp only [kernel, hcall] at hk
      simp only [step, hcall] at hstep
      exact h.waitNoHang hk hstep
  | clock =>
      simp only [kernel, hcall] at hk
      simp only [step, hcall] at hstep
      cases a with
      | now now =>
          obtain ⟨-, ht⟩ := Option.ite_none_right_eq_some.mp hk
          obtain rfl := Option.some.inj ht
          refine ⟨h.clock hstep, fun stream => ?_⟩
          obtain rfl := Option.some.inj hstep
          split
          · cases stream <;> rfl
          · obtain ⟨c, -, hp⟩ := calm_pollOpen s.parent
            rw [hp]
            cases stream <;> rfl
      | _ => cases hk
  | kill =>
      simp only [kernel, hcall] at hk
      simp only [step, hcall] at hstep
      have hp : { s.parent with call := .waitKilled } = p := by cases a <;> simp_all [onKill]
      exact hp ▸ h.kill hcall hk
  | waitKilled =>
      simp only [kernel, hcall] at hk
      simp only [step, hcall] at hstep
      exact h.waitKilled hcall hk hstep
  | drainOut =>
      simp only [kernel, hcall] at hk
      simp only [step, hcall] at hstep
      have hdead : s.child.isRunning = false := h.killed (by rw [hcall]; rfl) (by simp [hcall])
      refine h.readNext .stdout (fun p => { p with call := .drainErr }) hk hstep fun ht hsame hend => ?_
      exact ⟨.drainErr, rfl, ht.drainOut (hsame.trans hcall) (hend hdead)⟩
  | drainErr =>
      simp only [kernel, hcall] at hk
      simp only [step, hcall] at hstep
      have hdead : s.child.isRunning = false := h.killed (by rw [hcall]; rfl) (by simp [hcall])
      refine h.readNext .stderr leaveLoop hk hstep fun {t} ht hsame hend => ⟨.returned, ?_, ?_⟩
      · rw [leaveLoop, if_pos (ht.drained (.inr (hsame.trans hcall)))]
      · exact ht.recall ⟨rfl, by simp, fun _ => ⟨openOf_false (ht.drainErr (hsame.trans hcall)) (hend hdead),
          ht.drained (.inr (hsame.trans hcall))⟩⟩
  | poll =>
      simp only [kernel, hcall] at hk
      simp only [step, hcall] at hstep
      exact h.poll hpoll hk hstep
  | readOut errReady =>
      simp only [kernel, hcall] at hk
      simp only [step, hcall] at hstep
      refine h.readNext .stdout (afterOut errReady) hk hstep fun {t} ht _ _ => ?_
      obtain ⟨c, hc, hp⟩ := calm_afterOut errReady t.parent
      exact ⟨c, hp, ht.recall hc⟩
  | readErr =>
      simp only [kernel, hcall] at hk
      simp only [step, hcall] at hstep
      refine h.readNext .stderr turn hk hstep fun {t} ht _ _ => ?_
      obtain ⟨c, hc, hp⟩ := calm_turn t.parent
      exact ⟨c, hp, ht.recall hc⟩
  | waitLast => exact absurd hcall h.notLast
  | returned => simp [kernel, hcall] at hk

theorem Tracked.move (hpoll : host.pollMayFail = false) (h : Tracked program s) {m : ProcessMove}
    (hmove : move host program s m = some t) :
    Tracked program t ∧ ∀ stream, writtenBy s stream <+: writtenBy t stream := by
  cases m with
  | parent a =>
      obtain ⟨s', p, hk, hp, rfl⟩ := move_parent hmove
      obtain ⟨ht, hw⟩ := h.parent hpoll hk hp
      exact ⟨ht, fun stream => (hw stream).symm ▸ List.prefix_rfl⟩
  | child count => exact h.child hmove

theorem Tracked.run (hpoll : host.pollMayFail = false) {moves : List ProcessMove} (h : Tracked program s)
    (hrun : run (Process.move host program) s moves = some t) :
    Tracked program t ∧ ∀ stream, writtenBy s stream <+: writtenBy t stream := by
  have hstep (u : System) (m : ProcessMove) (v : System)
      (hu : Tracked program u ∧ ∀ stream, writtenBy s stream <+: writtenBy u stream)
      (hmove : Process.move host program u m = some v) :
      Tracked program v ∧ ∀ stream, writtenBy s stream <+: writtenBy v stream := by
    obtain ⟨hv, hgrown⟩ := hu.1.move hpoll hmove
    exact ⟨hv, fun stream => (hu.2 stream).trans (hgrown stream)⟩
  exact run_preserves hstep ⟨h, fun _ => List.prefix_rfl⟩ hrun

/-- The result tells how the child ended: its exit code, or the signal and 128 more. -/
def Decoded (r : ProcessResult) : WaitStatus → Prop
  | .exited code => r.exitCode = code ∧ r.signaled = false
  | .signaled number => r.exitCode = 128 + number ∧ r.signaled = true ∧ r.signalNumber = number

theorem result_decoded (p : ProcessRun) : Decoded (result p) p.status := by
  unfold result
  cases p.status with
  | exited code => exact ⟨rfl, rfl⟩
  | signaled number => exact ⟨rfl, rfl, rfl⟩

/-- A run that returns hands back, stream by stream, exactly what its child put out up
to some point of its program, with all that it had put out at any moment before. Unless
the run was overdue, this is where the child ended, and its code or signal is returned. -/
theorem returned_with_everything (hpoll : host.pollMayFail = false) {before after : List ProcessMove}
    (hbefore : run (move host program) (initial host spec) before = some s)
    (hafter : run (move host program) s after = some t) (hret : t.parent.call = .returned) :
    (∀ act written, s.child = .running act written → ∀ stream,
      emitted program act written stream <+: collected t stream) ∧
    t.child.isRunning = false ∧
    ∃ act written, (∀ stream, collected t stream = emitted program act written stream) ∧
      (t.parent.timedOut = false → written = 0 ∧ ∃ status, program act = .exit status ∧
        Decoded (result t.parent) status) := by
  obtain ⟨hs, -⟩ := (tracked_initial program host spec).run hpoll hbefore
  obtain ⟨ht, hgrown⟩ := hs.run hpoll hafter
  obtain ⟨hclosed, hdone⟩ := ht.returned hret
  have hall (stream : OutStream) : writtenBy t stream = collected t stream := by
    rw [writtenBy, (ht.closed stream (hclosed stream)).2, List.append_nil]
  refine ⟨fun act written hchild stream => ?_, (ht.closed .stdout (hclosed .stdout)).1, ?_⟩
  · obtain ⟨act', written', hat, hw⟩ := hs.point
    rw [At, hchild] at hat
    obtain ⟨rfl, rfl⟩ := hat
    rw [← hw stream, ← hall stream]
    exact hgrown stream
  · obtain ⟨act, written, hat, hw⟩ := ht.point
    refine ⟨act, written, fun stream => (hall stream).symm.trans (hw stream), fun hin => ?_⟩
    rw [At, ht.done hin hdone] at hat
    obtain ⟨hexit, hzero⟩ := hat hin
    exact ⟨hzero, t.parent.status, hexit, result_decoded t.parent⟩

def smallHost : Host := { stdin := 4, stdout := 4, stderr := 4 }

def greets : Nat → ChildAct
  | 0 => .write .stdout (lit "hi")
  | _ => .exit (.exited 3)

def greeting : System :=
  (run (move smallHost greets) (initial smallHost { argv := [lit "greet"], stdinData := [] })
    [.parent (.now 0), .child 2]).get (by decide +kernel)

def goodbye : List ProcessMove :=
  [.child 0, .child 0, .parent (.reaped (.exited 3)), .parent (.now 1), .parent (.polled true true),
    .parent (.data (lit "hi")), .parent .endOfFile, .parent .endOfFile]

def greeted : System := (run (move smallHost greets) greeting goodbye).get (by decide +kernel)

theorem returned_with_everything_greeted :
    collected greeted .stdout = lit "hi" ∧ emitted greets 0 2 .stdout <+: collected greeted .stdout := by
  have hgreeting : run (move smallHost greets) (initial smallHost { argv := [lit "greet"], stdinData := [] })
      [.parent (.now 0), .child 2] = some greeting := (Option.some_get _).symm
  have hgreeted : run (move smallHost greets) greeting goodbye = some greeted := (Option.some_get _).symm
  have hall := returned_with_everything rfl hgreeting hgreeted (by decide +kernel)
  exact ⟨by decide +kernel, hall.1 0 2 (by decide +kernel) .stdout⟩

end JJMCP.Process
