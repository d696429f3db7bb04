import JJMCP.ProcessPipes

namespace JJMCP.Process

open Lib Lib.Runs Text

variable {host : Host} {program : Nat → ChildAct} {spec : RunSpec} {s t : System}

/-- The parent waits in a call outside the collect loop that only the child can end. -/
def BlockedOutside (s : System) : Prop :=
  s.child.isRunning ∧ ((∃ rest, s.parent.call = .write rest) ∧ s.stdin.Full ∨ s.parent.call = .waitLast)

def BlockedOnOutput (program : Nat → ChildAct) (s : System) : Prop :=
  ∃ act written stream bytes, s.child = .running act written ∧ program act = .write stream bytes ∧
    written < bytes.length ∧ (pipeOf s stream).Full

def NeverReads (program : Nat → ChildAct) (s : System) : Prop :=
  ∃ act written, s.child = .running act written ∧
    ∀ later, act ≤ later → (∀ i, act ≤ i → i < later → ∀ status, program i ≠ .exit status) →
      ∀ n, program later ≠ .read n

/-- Moves of the parent alone lead it to a reading of the clock, or it returns. -/
def ReachesDeadlineCheck (host : Host) (program : Nat → ChildAct) (s : System) : Prop :=
  ∃ (answers : List Answer) (t : System), run (move host program) s (answers.map .parent) = some t ∧
    (t.parent.call = .clock ∨ t.parent.call = .returned)

structure CannotHang (host : Host) (spec : RunSpec) : Prop where
  unblocked : ∀ program moves s, run (move host program) (initial host spec) moves = some s →
    BlockedOutside s → ¬ (BlockedOnOutput program s ∨ NeverReads program s)
  reaches : ∀ program moves s, run (move host program) (initial host spec) moves = some s →
    ReachesDeadlineCheck host program s

theorem move_parent {a : Answer} (h : move host program s (.parent a) = some t) :
    ∃ s' parent, kernel host s a = some s' ∧ step s.parent a = some parent ∧ t = { s' with parent } := by
  simp only [move, Option.bind_eq_bind, Option.bind_eq_some_iff] at h
  obtain ⟨s', hk, parent, hp, ht⟩ := h
  exact ⟨s', parent, hk, hp, (Option.some.inj ht).symm⟩

/-- What the kernel's answers leave alone. -/
structure Around (s t : System) : Prop where
  parent : t.parent = s.parent
  capacity : t.stdin.capacity = s.stdin.capacity
  time : s.time ≤ t.time
  child : t.child.isRunning = true → s.child.isRunning = true

theorem Around.refl (s : System) : Around s s := ⟨rfl, rfl, Nat.le_refl _, id⟩

theorem readAnswer_around {pipe : Pipe UInt8} {put : Pipe UInt8 → System} {a : Answer}
    (hput : ∀ p, Around s (put p)) (h : readAnswer s pipe put a = some t) : Around s t := by
  cases a with
  | data chunk =>
      obtain ⟨-, ht⟩ := Option.ite_none_right_eq_some.mp h
      exact Option.some.inj ht ▸ hput _
  | wouldBlock | endOfFile =>
      obtain ⟨-, ht⟩ := Option.ite_none_right_eq_some.mp h
      exact Option.some.inj ht ▸ .refl s
  | _ => cases h

theorem waitAnswer_around {mayBlock : Bool} {a : Answer} (h : waitAnswer mayBlock s a = some t) : Around s t := by
  cases a with
  | reaped status =>
      obtain ⟨-, ht⟩ := Option.ite_none_right_eq_some.mp h
      exact Option.some.inj ht ▸ ⟨rfl, rfl, Nat.le_refl _, nofun⟩
  | running | failed | interrupted =>
      obtain ⟨-, ht⟩ := Option.ite_none_right_eq_some.mp h
      exact Option.some.inj ht ▸ .refl s
  | _ => cases h

theorem killAnswer_around {a : Answer} (h : killAnswer s a = some t) :
    Around s t ∧ t.child.isRunning = false := by
  cases a with
  | killed =>
      cases hc : s.child with
      | running act written =>
          simp only [killAnswer, hc] at h
          exact Option.some.inj h ▸ ⟨⟨rfl, rfl, Nat.le_refl _, nofun⟩, rfl⟩
      | zombie status =>
          simp only [killAnswer, hc] at h
          exact Option.some.inj h ▸ ⟨.refl s, by simp [hc, Child.isRunning]⟩
      | gone => simp [killAnswer, hc] at h
  | failed =>
      obtain ⟨hc, ht⟩ := Option.ite_none_right_eq_some.mp h
      exact Option.some.inj ht ▸ ⟨.refl s, by simp [hc, Child.isRunning]⟩
  | _ => cases h

theorem writeAnswer_around {rest : Text} {a : Answer} (h : writeAnswer s rest a = some t) : Around s t := by
  cases a with
  | wrote n =>
      obtain ⟨-, ht⟩ := Option.ite_none_right_eq_some.mp h
      obtain ⟨stdin, hpush, rfl⟩ := Option.map_eq_some_iff.mp ht
      exact ⟨rfl, (Pipe.push_eq_some hpush).1, Nat.le_refl _, id⟩
  | interrupted => exact Option.some.inj h ▸ .refl s
  | failed =>
      obtain ⟨-, ht⟩ := Option.ite_none_left_eq_some.mp h
      exact Option.some.inj ht ▸ .refl s
  | _ => cases h

theorem kernel_around {a : Answer} (h : kernel host s a = some t) : Around s t := by
  cases hcall : s.parent.call with
  | write rest =>
      simp only [kernel, hcall] at h
      exact writeAnswer_around h
  | startClock | clock =>
      simp only [kernel, hcall] at h
      cases a with
      | now now =>
          obtain ⟨hle, ht⟩ := Option.ite_none_right_eq_some.mp h
          exact Option.some.inj ht ▸ ⟨rfl, rfl, hle, id⟩
      | _ => cases h
  | waitNoHang | waitKilled | waitLast =>
      simp only [kernel, hcall] at h
      exact waitAnswer_around h
  | kill =>
      simp only [kernel, hcall] at h
      exact (killAnswer_around h).1
  | poll =>
      simp only [kernel, hcall] at h
      cases a with
      | polled outReady errReady =>
          obtain ⟨-, ht⟩ := Option.ite_none_right_eq_some.mp h
          exact Option.some.inj ht ▸ .refl s
      | interrupted => exact Option.some.inj h ▸ .refl s
      | failed =>
          obtain ⟨-, ht⟩ := Option.ite_none_right_eq_some.mp h
          exact Option.some.inj ht ▸ .refl s
      | _ => cases h
  | drainOut | readOut | drainErr | readErr =>
      simp only [kernel, hcall] at h
      refine readAnswer_around ?_ h
      exact fun _ => ⟨rfl, rfl, Nat.le_refl _, id⟩
  | returned => simp [kernel, hcall] at h

theorem childMove_around {count : Nat} (h : childMove program s count = some t) :
    Around s t ∧ t.stdin.queue.length ≤ s.stdin.queue.length := by
  cases hc : s.child with
  | running act written =>
      have hrun : s.child.isRunning = true := by simp [hc, Child.isRunning]
      cases hp : program act with
      | read n =>
          simp only [childMove, hc, hp, childRead] at h
          split_ifs at h
          · exact Option.some.inj h ▸ ⟨⟨rfl, rfl, Nat.le_refl _, fun _ => hrun⟩, by simp⟩
          · exact Option.some.inj h ▸ ⟨⟨rfl, rfl, Nat.le_refl _, fun _ => hrun⟩, Nat.le_refl _⟩
      | write stream bytes =>
          simp only [childMove, hc, hp, childWrite] at h
          split_ifs at h
          · exact Option.some.inj h ▸ ⟨⟨rfl, rfl, Nat.le_refl _, fun _ => hrun⟩, Nat.le_refl _⟩
          · obtain ⟨pipe, -, rfl⟩ := Option.map_eq_some_iff.mp h
            cases stream <;> exact ⟨⟨rfl, rfl, Nat.le_refl _, fun _ => hrun⟩, Nat.le_refl _⟩
      | exit status =>
          simp only [childMove, hc, hp] at h
          exact Option.some.inj h ▸ ⟨⟨rfl, rfl, Nat.le_refl _, nofun⟩, Nat.le_refl _⟩
  | zombie | gone => simp [childMove, hc] at h

/-- The input that is not written yet fits into the pipe with what is in it. -/
structure Fits (host : Host) (spec : RunSpec) (s : System) : Prop where
  capacity : s.stdin.capacity = host.stdin
  timeout : s.parent.timeout = spec.timeout
  rest : ∀ rest, s.parent.call = .write rest →
    rest ≠ [] ∧ s.stdin.queue.length + rest.length ≤ spec.stdinData.length
  deadline : s.parent.call.starting = false → s.parent.deadline ≤ s.time + spec.timeout
  polls : s.parent.call.polls = true → 0 < spec.timeout
  notLast : s.parent.call ≠ .waitLast
  killed : s.parent.call = .waitKilled → s.child.isRunning = false
  drained : s.parent.call.drains = true → s.parent.childDone = true

theorem fits_initial : Fits host spec (initial host spec) where
  capacity := rfl
  timeout := rfl
  rest := by
    by_cases h : spec.stdinData = []
    · simp [initial, start, h]
    · simp [initial, start, h]
  deadline := by by_cases h : spec.stdinData = [] <;> simp [initial, start, h, Call.starting]
  polls := by by_cases h : spec.stdinData = [] <;> simp [initial, start, h, Call.polls]
  notLast := by by_cases h : spec.stdinData = [] <;> simp [initial, start, h]
  killed := by by_cases h : spec.stdinData = [] <;> simp [initial, start, h]
  drained := by by_cases h : spec.stdinData = [] <;> simp [initial, start, h, Call.drains]

theorem Fits.child {count : Nat} (h : Fits host spec s) (hmove : childMove program s count = some t) :
    Fits host spec t := by
  obtain ⟨ha, hle⟩ := childMove_around hmove
  constructor
  · rw [ha.capacity, h.capacity]
  · rw [ha.parent, h.timeout]
  · intro rest hrest
    rw [ha.parent] at hrest
    exact ⟨(h.rest rest hrest).1, (Nat.add_le_add_right hle _).trans (h.rest rest hrest).2⟩
  · intro hst
    rw [ha.parent] at hst ⊢
    exact (h.deadline hst).trans (Nat.add_le_add_right ha.time _)
  · rw [ha.parent]
    exact h.polls
  · rw [ha.parent]
    exact h.notLast
  · intro hk
    rw [ha.parent] at hk
    by_contra hrun
    exact absurd (ha.child (by simpa using hrun)) (by simp [h.killed hk])
  · rw [ha.parent]
    exact h.drained

/-- The parent went on to a call that only has to keep to the time. -/
theorem Fits.goes {s' : System} {parent : ProcessRun} (h : Fits host spec s) (ha : Around s s')
    (htimeout : parent.timeout = s.parent.timeout)
    (hdeadline : parent.deadline ≤ s'.time + spec.timeout)
    (hcall : parent.call.starting = false ∧ parent.call ≠ .waitLast ∧ parent.call ≠ .waitKilled)
    (hpolls : parent.call.polls = true → 0 < spec.timeout)
    (hdrains : parent.call.drains = true → parent.childDone = true) :
    Fits host spec { s' with parent } where
  capacity := ha.capacity.trans h.capacity
  timeout := htimeout.trans h.timeout
  rest := by
    intro rest hrest
    simp [show parent.call = .write rest from hrest, Call.starting] at hcall
  deadline := fun _ => hdeadline
  polls := hpolls
  notLast := hcall.2.1
  killed := fun hk => absurd hk hcall.2.2
  drained := hdrains

theorem Onward.call {p : ProcessRun} {c : Call} (h : Onward p c) :
    (c.starting = false ∧ c ≠ .waitLast ∧ c ≠ .waitKilled) ∧ c.polls = false ∧ c.drains = false := by
  cases h <;> simp [Call.starting, Call.polls, Call.drains]

/-- It went on inside the loop. -/
theorem Fits.onward {s' : System} {p : ProcessRun} {c : Call} (h : Fits host spec s) (ha : Around s s')
    (hp : p.timeout = s.parent.timeout) (hdeadline : p.deadline ≤ s'.time + spec.timeout) (hc : Onward p c) :
    Fits host spec { s' with parent := { p with call := c } } :=
  h.goes ha hp hdeadline hc.call.1 (fun hp => absurd hp (by simp [hc.call.2.1]))
    fun hd => absurd hd (by simp [hc.call.2.2])

theorem Fits.write {s' : System} {rest : Text} {a : Answer} {p : ProcessRun} (h : Fits host spec s)
    (hcall : s.parent.call = .write rest) (hk : writeAnswer s rest a = some s')
    (hstep : onWrite s.parent rest a = some p) : Fits host spec { s' with parent := p } := by
  have ha := writeAnswer_around hk
  have hclock : Fits host spec { s' with parent := { s.parent with call := .startClock } } :=
    { capacity := ha.capacity.trans h.capacity
      timeout := h.timeout
      rest := by simp
      deadline := by simp [Call.starting]
      polls := by simp [Call.polls]
      notLast := by simp
      killed := by simp
      drained := by simp [Call.drains] }
  cases a with
  | wrote n =>
      obtain ⟨⟨-, hn, hle⟩, hpush⟩ := Option.ite_none_right_eq_some.mp hk
      obtain ⟨stdin, hstdin, rfl⟩ := Option.map_eq_some_iff.mp hpush
      obtain ⟨-, hp⟩ := Option.ite_none_right_eq_some.mp hstep
      obtain rfl := Option.some.inj hp
      by_cases hrest : rest.drop n = []
      · simpa only [hrest, if_true] using hclock
      · simp only [hrest, if_false]
        exact
          { capacity := hclock.capacity
            timeout := h.timeout
            rest := by
              intro rest' hcall'
              obtain rfl : rest.drop n = rest' := Call.write.inj hcall'
              have hold := (h.rest rest hcall).2
              have hqueue := congrArg List.length (Pipe.push_eq_some hstdin).2
              simp only [List.length_append, List.length_take, List.length_drop] at hqueue ⊢
              exact ⟨hrest, by omega⟩
            deadline := by simp [Call.starting]
            polls := by simp [Call.polls]
            notLast := by simp
            killed := by simp
            drained := by simp [Call.drains] }
  | interrupted =>
      obtain rfl := Option.some.inj hk
      obtain rfl := Option.some.inj hstep
      exact h
  | failed =>
      obtain rfl := Option.some.inj hstep
      exact hclock
  | _ => cases hk

/-- A read of a pipe stays or goes on. -/
theorem Fits.read {s' : System} {p : ProcessRun} {next : ProcessRun → ProcessRun} (h : Fits host spec s)
    (ha : Around s s') (hcall : s.parent.call.starting = false ∧ s.parent.call ≠ .waitKilled)
    (hnext : ∀ q, ReadOnly s.parent q → Fits host spec { s' with parent := next q })
    (hread : ∃ q, ReadOnly s.parent q ∧ (p = q ∨ p = next q)) : Fits host spec { s' with parent := p } := by
  obtain ⟨q, hq, rfl | rfl⟩ := hread
  · refine h.goes ha hq.timeout ?_ ?_ ?_ ?_
    · exact hq.deadline ▸ (h.deadline hcall.1).trans (Nat.add_le_add_right ha.time _)
    · rw [hq.call]
      exact ⟨hcall.1, h.notLast, hcall.2⟩
    · rw [hq.call]
      exact h.polls
    · rw [hq.call, hq.childDone]
      exact h.drained
  · exact hnext q hq

theorem Fits.parent (hpoll : host.pollMayFail = true → spec.timeout = 0) {s' : System} {a : Answer}
    {p : ProcessRun} (h : Fits host spec s) (hk : kernel host s a = some s') (hstep : step s.parent a = some p) :
    Fits host spec { s' with parent := p } := by
  have ha := kernel_around hk
  have hlate (hst : s.parent.call.starting = false) : s.parent.deadline ≤ s'.time + spec.timeout :=
    (h.deadline hst).trans (Nat.add_le_add_right ha.time _)
  cases hcall : s.parent.call with
  | write rest =>
      simp only [kernel, hcall] at hk
      simp only [step, hcall] at hstep
      exact h.write hcall hk hstep
  | startClock =>
      simp only [kernel, hcall] at hk
      simp only [step, hcall] at hstep
      cases a with
      | now now =>
          obtain ⟨-, ht⟩ := Option.ite_none_right_eq_some.mp hk
          obtain rfl := Option.some.inj ht
          obtain ⟨c, hc, hturn⟩ := turn_onward { s.parent with deadline := now + s.parent.timeout }
          obtain rfl := hturn ▸ Option.some.inj hstep
          exact h.onward ha rfl (by simp [h.timeout]) hc
      | _ => cases hk
  | waitNoHang =>
      simp only [step, hcall] at hstep
      have hd := hlate (by simp [hcall, Call.starting])
      cases a with
      | reaped status =>
          obtain ⟨c, hc, ht⟩ := checkEnded_onward { s.parent with childDone := true, status }
          obtain rfl := ht ▸ Option.some.inj hstep
          exact h.onward ha rfl hd hc
      | running | failed =>
          obtain ⟨c, hc, ht⟩ := checkEnded_onward s.parent
          obtain rfl := ht ▸ Option.some.inj hstep
          exact h.onward ha rfl hd hc
      | _ => cases hstep
  | clock =>
      simp only [kernel, hcall] at hk
      simp only [step, hcall] at hstep
      have hd := hlate (by simp [hcall, Call.starting])
      cases a with
      | now now =>
          obtain ⟨htime, ht⟩ := Option.ite_none_right_eq_some.mp hk
          obtain rfl := Option.some.inj ht
          by_cases hpast : s.parent.deadline ≤ now
          · obtain rfl : { s.parent with timedOut := true, call := .kill } = p := by
              simpa only [onClock, hpast, if_true, Option.some.injEq] using hstep
            exact h.goes ha rfl hd (by simp [Call.starting]) (by simp [Call.polls]) (by simp [Call.drains])
          · obtain ⟨c, hc, ht⟩ := pollOpen_onward s.parent
            obtain rfl : { s.parent with call := c } = p := by
              simpa only [onClock, hpast, if_false, Option.some.injEq, ht] using hstep
            rcases hc with rfl | hc
            · -- the reading is before the deadline, which is at most the timeout away
              have hpos : 0 < spec.timeout := by
                have := h.deadline (by simp [hcall, Call.starting])
                omega
              exact h.goes ha rfl hd (by simp [Call.starting]) (fun _ => hpos) (by simp [Call.drains])
            · exact h.onward ha rfl hd hc
      | _ => cases hk
  | kill =>
      simp only [kernel, hcall] at hk
      simp only [step, hcall] at hstep
      have hd := hlate (by simp [hcall, Call.starting])
      cases a with
      | killed | failed =>
          obtain rfl := Option.some.inj hstep
          exact
            { capacity := ha.capacity.trans h.capacity
              timeout := h.timeout
              rest := by simp
              deadline := fun _ => hd
              polls := by simp [Call.polls]
              notLast := by simp
              killed := fun _ => (killAnswer_around hk).2
              drained := by simp [Call.drains] }
      | _ => cases hstep
  | waitKilled =>
      simp only [step, hcall] at hstep
      have hd := hlate (by simp [hcall, Call.starting])
      cases a with
      | reaped | interrupted | failed =>
          obtain rfl := Option.some.inj hstep
          exact h.goes ha rfl hd (by simp [Call.starting]) (by simp [Call.polls]) fun _ => rfl
      | _ => cases hstep
  | drainOut =>
      simp only [step, hcall] at hstep
      have hdone : s.parent.childDone = true := h.drained (by simp [hcall, Call.drains])
      refine h.read ha (by simp [hcall, Call.starting]) ?_ (readStdout_cases hstep).2
      intro q hq
      exact h.goes ha hq.timeout (hq.deadline ▸ hlate (by simp [hcall, Call.starting])) (by simp [Call.starting])
        (by simp [Call.polls]) fun _ => hq.childDone.trans hdone
  | drainErr =>
      simp only [step, hcall] at hstep
      have hdone : s.parent.childDone = true := h.drained (by simp [hcall, Call.drains])
      refine h.read ha (by simp [hcall, Call.starting]) ?_ (readStderr_cases hstep).2
      intro q hq
      rw [leaveLoop, hq.childDone, hdone, if_pos rfl]
      exact h.goes ha hq.timeout (hq.deadline ▸ hlate (by simp [hcall, Call.starting])) (by simp [Call.starting])
        (by simp [Call.polls]) (by simp [Call.drains])
  | poll =>
      simp only [kernel, hcall] at hk
      simp only [step, hcall] at hstep
      have hd := hlate (by simp [hcall, Call.starting])
      have hpos := h.polls (by simp [hcall, Call.polls])
      have hafter (outReady errReady : Bool) :
          Fits host spec { s' with parent := afterPoll outReady errReady s.parent } := by
        obtain ⟨c, hc, ht⟩ := afterPoll_onward outReady errReady s.parent
        rw [ht]
        rcases hc with rfl | rfl | hc
        · exact h.goes ha rfl hd (by simp [Call.starting]) (fun _ => hpos) (by simp [Call.drains])
        · exact h.goes ha rfl hd (by simp [Call.starting]) (fun _ => hpos) (by simp [Call.drains])
        · exact h.onward ha rfl hd hc
      cases a with
      | polled outReady errReady => exact Option.some.inj hstep ▸ hafter outReady errReady
      | interrupted => exact Option.some.inj hstep ▸ hafter false false
      | failed =>
          obtain ⟨hfail, -⟩ := Option.ite_none_right_eq_some.mp hk
          exact absurd (hpoll hfail) (by omega)
      | _ => cases hstep
  | readOut errReady =>
      simp only [step, hcall] at hstep
      have hpos := h.polls (by simp [hcall, Call.polls])
      refine h.read ha (by simp [hcall, Call.starting]) ?_ (readStdout_cases hstep).2
      intro q hq
      have hd := hq.deadline ▸ hlate (by simp [hcall, Call.starting])
      obtain ⟨c, hc, ht⟩ := afterOut_onward errReady q
      rw [ht]
      rcases hc with rfl | hc
      · exact h.goes ha hq.timeout hd (by simp [Call.starting]) (fun _ => hpos) (by simp [Call.drains])
      · exact h.onward ha hq.timeout hd hc
  | readErr =>
      simp only [step, hcall] at hstep
      refine h.read ha (by simp [hcall, Call.starting]) ?_ (readStderr_cases hstep).2
      intro q hq
      obtain ⟨c, hc, ht⟩ := turn_onward q
      rw [ht]
      exact h.onward ha hq.timeout (hq.deadline ▸ hlate (by simp [hcall, Call.starting])) hc
  | waitLast => exact absurd hcall h.notLast
  | returned => simp [step, hcall] at hstep

theorem fits_run (hpoll : host.pollMayFail = true → spec.timeout = 0) {moves : List ProcessMove}
    (h : run (move host program) (initial host spec) moves = some s) : Fits host spec s := by
  refine run_preserves ?_ fits_initial h
  intro s m t hs hmove
  cases m with
  | parent a =>
      obtain ⟨s', p, hk, hp, rfl⟩ := move_parent hmove
      exact hs.parent hpoll hk hp
  | child count => exact hs.child hmove

theorem reaches_move {a : Answer} {s' : System} {p : ProcessRun} (hk : kernel host s a = some s')
    (hp : step s.parent a = some p) (h : ReachesDeadlineCheck host program { s' with parent := p }) :
    ReachesDeadlineCheck host program s := by
  obtain ⟨answers, t, hrun, ht⟩ := h
  refine ⟨a :: answers, t, ?_, ht⟩
  rw [List.map_cons, run, move, hk, Option.bind_eq_bind, Option.bind_some, hp]
  exact hrun

theorem reaches_checkEnded (s : System) (p : ProcessRun) :
    ReachesDeadlineCheck host program { s with parent := checkEnded p } := by
  obtain ⟨c, hc, h⟩ := checkEnded_eq p
  rw [h]
  rcases hc with rfl | ⟨rfl, -⟩
  · exact ⟨[], _, rfl, .inl rfl⟩
  · exact ⟨[], _, rfl, .inr rfl⟩

theorem waitAnswer_zombie {mayBlock : Bool} {status : WaitStatus} (h : s.child = .zombie status) :
    waitAnswer mayBlock s (.reaped status) = some { s with child := .gone } :=
  if_pos h

theorem waitAnswer_gone {mayBlock : Bool} (h : s.child = .gone) : waitAnswer mayBlock s .failed = some s :=
  if_pos h

theorem reaches_waitNoHang (hcall : s.parent.call = .waitNoHang) : ReachesDeadlineCheck host program s := by
  have hk (a : Answer) : kernel host s a = waitAnswer false s a := by simp only [kernel, hcall]
  have hp (a : Answer) : step s.parent a = onWaitNoHang s.parent a := by simp only [step, hcall]
  cases hc : s.child with
  | running act written =>
      have hrun : waitAnswer false s .running = some s := if_pos ⟨by simp [hc, Child.isRunning], rfl⟩
      exact reaches_move ((hk _).trans hrun) (hp .running) (reaches_checkEnded _ _)
  | zombie status =>
      exact reaches_move ((hk _).trans (waitAnswer_zombie hc)) (hp (.reaped status)) (reaches_checkEnded _ _)
  | gone => exact reaches_move ((hk _).trans (waitAnswer_gone hc)) (hp .failed) (reaches_checkEnded _ _)

theorem reaches_onward {p : ProcessRun} {c : Call} (s : System) (h : Onward p c) :
    ReachesDeadlineCheck host program { s with parent := { p with call := c } } := by
  cases h with
  | wait => exact reaches_waitNoHang rfl
  | clock => exact ⟨[], _, rfl, .inl rfl⟩
  | ended => exact ⟨[], _, rfl, .inr rfl⟩

theorem reaches_turn (s : System) (p : ProcessRun) :
    ReachesDeadlineCheck host program { s with parent := turn p } := by
  obtain ⟨c, hc, h⟩ := turn_onward p
  exact h ▸ reaches_onward s hc

theorem reaches_startClock (hcall : s.parent.call = .startClock) : ReachesDeadlineCheck host program s := by
  have hk : kernel host s (.now s.time) = some s := by
    simp only [kernel, hcall, clockAnswer, Nat.le_refl, if_true]
  refine reaches_move hk (p := turn { s.parent with deadline := s.time + s.parent.timeout }) ?_ (reaches_turn _ _)
  simp only [step, hcall, onStartClock]

/-- The reads of one pipe come to an end: what is in it gets less. -/
theorem reaches_reading (pipe : System → Pipe UInt8) (Reading : System → Prop)
    (hempty : ∀ s, Reading s → (pipe s).queue = [] → ReachesDeadlineCheck host program s)
    (hread : ∀ s, Reading s → (pipe s).queue ≠ [] → ∃ s', Reading s' ∧ pipe s' = (pipe s).drop 4096 ∧
      (ReachesDeadlineCheck host program s' → ReachesDeadlineCheck host program s))
    (s : System) (h : Reading s) : ReachesDeadlineCheck host program s := by
  induction hn : (pipe s).queue.length using Nat.strong_induction_on generalizing s with
  | _ n ih =>
      by_cases hq : (pipe s).queue = []
      · exact hempty s h hq
      · obtain ⟨s', h', hpipe, hback⟩ := hread s h hq
        have hpos := List.length_pos_of_ne_nil hq
        have hless : (pipe s').queue.length < n := by
          rw [hpipe, Pipe.drop_queue, List.length_drop]
          omega
        exact hback (ih _ hless s' h' rfl)

theorem reaches_stdout (next : ProcessRun → ProcessRun) (done : Bool) (c : Call)
    (hk : ∀ (s : System) (a : Answer), s.parent.call = c →
      kernel host s a = readAnswer s s.stdout (fun stdout => { s with stdout }) a)
    (hp : ∀ (p : ProcessRun) (a : Answer), p.call = c → step p a = readStdout next p a)
    (hnext : ∀ (s : System) (p : ProcessRun), p.childDone = done →
      ReachesDeadlineCheck host program { s with parent := next p })
    (s : System) (hcall : s.parent.call = c) (hdone : s.parent.childDone = done) :
    ReachesDeadlineCheck host program s := by
  refine reaches_reading System.stdout (fun s => s.parent.call = c ∧ s.parent.childDone = done) ?_ ?_ s ⟨hcall, hdone⟩
  · rintro s ⟨hcall, hdone⟩ hq
    cases hrun : s.child.isRunning with
    | true =>
        refine reaches_move ((hk s .wouldBlock hcall).trans (if_pos ⟨hq, hrun⟩)) (hp _ _ hcall) ?_
        exact hnext s { s.parent with stdoutText := s.parent.stdoutText, stdoutOpen := s.parent.stdoutOpen } hdone
    | false =>
        refine reaches_move ((hk s .endOfFile hcall).trans (if_pos ⟨hq, hrun⟩)) (hp _ _ hcall) ?_
        exact hnext s { s.parent with stdoutText := s.parent.stdoutText, stdoutOpen := false } hdone
  · rintro s ⟨hcall, hdone⟩ hq
    have htake : s.stdout.queue.take 4096 ≠ [] := by simpa using hq
    have hread := hp s.parent (.data (s.stdout.queue.take 4096)) hcall
    refine ⟨{ s with
      stdout := s.stdout.drop 4096
      parent := { s.parent with stdoutText := s.parent.stdoutText ++ s.stdout.queue.take 4096 } }, ⟨hcall, hdone⟩, rfl, ?_⟩
    exact fun hreach =>
      reaches_move ((hk s (.data (s.stdout.queue.take 4096)) hcall).trans (if_pos ⟨htake, rfl⟩)) hread hreach

theorem reaches_stderr (next : ProcessRun → ProcessRun) (done : Bool) (c : Call)
    (hk : ∀ (s : System) (a : Answer), s.parent.call = c →
      kernel host s a = readAnswer s s.stderr (fun stderr => { s with stderr }) a)
    (hp : ∀ (p : ProcessRun) (a : Answer), p.call = c → step p a = readStderr next p a)
    (hnext : ∀ (s : System) (p : ProcessRun), p.childDone = done →
      ReachesDeadlineCheck host program { s with parent := next p })
    (s : System) (hcall : s.parent.call = c) (hdone : s.parent.childDone = done) :
    ReachesDeadlineCheck host program s := by
  refine reaches_reading System.stderr (fun s => s.parent.call = c ∧ s.parent.childDone = done) ?_ ?_ s ⟨hcall, hdone⟩
  · rintro s ⟨hcall, hdone⟩ hq
    cases hrun : s.child.isRunning with
    | true =>
        refine reaches_move ((hk s .wouldBlock hcall).trans (if_pos ⟨hq, hrun⟩)) (hp _ _ hcall) ?_
        exact hnext s { s.parent with stderrText := s.parent.stderrText, stderrOpen := s.parent.stderrOpen } hdone
    | false =>
        refine reaches_move ((hk s .endOfFile hcall).trans (if_pos ⟨hq, hrun⟩)) (hp _ _ hcall) ?_
        exact hnext s { s.parent with stderrText := s.parent.stderrText, stderrOpen := false } hdone
  · rintro s ⟨hcall, hdone⟩ hq
    have htake : s.stderr.queue.take 4096 ≠ [] := by simpa using hq
    have hread := hp s.parent (.data (s.stderr.queue.take 4096)) hcall
    refine ⟨{ s with
      stderr := s.stderr.drop 4096
      parent := { s.parent with stderrText := s.parent.stderrText ++ s.stderr.queue.take 4096 } }, ⟨hcall, hdone⟩, rfl, ?_⟩
    exact fun hreach =>
      reaches_move ((hk s (.data (s.stderr.queue.take 4096)) hcall).trans (if_pos ⟨htake, rfl⟩)) hread hreach

theorem reaches_readErr (s : System) (hcall : s.parent.call = .readErr) : ReachesDeadlineCheck host program s := by
  refine reaches_stderr turn s.parent.childDone .readErr ?_ ?_ ?_ s hcall rfl
  · intro s a hc
    simp only [kernel, hc]
  · intro p a hc
    simp only [step, hc]
  · exact fun s p _ => reaches_turn s p

theorem reaches_afterOut (s : System) (errReady : Bool) (p : ProcessRun) :
    ReachesDeadlineCheck host program { s with parent := afterOut errReady p } := by
  obtain ⟨c, hc, h⟩ := afterOut_onward errReady p
  rw [h]
  rcases hc with rfl | hc
  · exact reaches_readErr _ rfl
  · exact reaches_onward s hc

theorem reaches_readOut (s : System) {errReady : Bool} (hcall : s.parent.call = .readOut errReady) :
    ReachesDeadlineCheck host program s := by
  refine reaches_stdout (afterOut errReady) s.parent.childDone (.readOut errReady) ?_ ?_ ?_ s hcall rfl
  · intro s a hc
    simp only [kernel, hc]
  · intro p a hc
    simp only [step, hc]
  · exact fun s p _ => reaches_afterOut s errReady p

theorem reaches_poll (hcall : s.parent.call = .poll) : ReachesDeadlineCheck host program s := by
  have hk : kernel host s (.polled (readable s s.stdout) (readable s s.stderr)) = some s := by
    simp only [kernel, hcall, pollAnswer, and_self, if_true]
  have hp : step s.parent (.polled (readable s s.stdout) (readable s s.stderr)) =
      some (afterPoll (readable s s.stdout) (readable s s.stderr) s.parent) := by
    simp only [step, hcall, onPoll]
  refine reaches_move hk hp ?_
  obtain ⟨c, hc, h⟩ := afterPoll_onward (readable s s.stdout) (readable s s.stderr) s.parent
  rw [h]
  rcases hc with rfl | rfl | hc
  · exact reaches_readOut _ rfl
  · exact reaches_readErr _ rfl
  · exact reaches_onward s hc

theorem reaches_drainErr (s : System) (hcall : s.parent.call = .drainErr) (hdone : s.parent.childDone = true) :
    ReachesDeadlineCheck host program s := by
  refine reaches_stderr leaveLoop true .drainErr ?_ ?_ ?_ s hcall hdone
  · intro s a hc
    simp only [kernel, hc]
  · intro p a hc
    simp only [step, hc]
  · intro s p hd
    exact ⟨[], _, rfl, .inr (by simp [leaveLoop, hd])⟩

theorem reaches_drainOut (s : System) (hcall : s.parent.call = .drainOut) (hdone : s.parent.childDone = true) :
    ReachesDeadlineCheck host program s := by
  refine reaches_stdout (fun p => { p with call := .drainErr }) true .drainOut ?_ ?_ ?_ s hcall hdone
  · intro s a hc
    simp only [kernel, hc]
  · intro p a hc
    simp only [step, hc]
  · exact fun s p hd => reaches_drainErr _ rfl hd

theorem reaches_waitKilled (hcall : s.parent.call = .waitKilled) (hrun : s.child.isRunning = false) :
    ReachesDeadlineCheck host program s := by
  have hk (a : Answer) : kernel host s a = waitAnswer true s a := by simp only [kernel, hcall]
  have hp (a : Answer) : step s.parent a = onWaitKilled s.parent a := by simp only [step, hcall]
  cases hc : s.child with
  | running => simp [hc, Child.isRunning] at hrun
  | zombie status =>
      exact reaches_move ((hk _).trans (waitAnswer_zombie hc)) (hp (.reaped status)) (reaches_drainOut _ rfl rfl)
  | gone => exact reaches_move ((hk _).trans (waitAnswer_gone hc)) (hp .failed) (reaches_drainOut _ rfl rfl)

theorem reaches_kill (hcall : s.parent.call = .kill) : ReachesDeadlineCheck host program s := by
  have hk (a : Answer) : kernel host s a = killAnswer s a := by simp only [kernel, hcall]
  have hp (a : Answer) : step s.parent a = onKill s.parent a := by simp only [step, hcall]
  have hgo {s' : System} {a : Answer} (hs : killAnswer s a = some s')
      (ha : onKill s.parent a = some { s.parent with call := .waitKilled }) :
      ReachesDeadlineCheck host program s :=
    reaches_move ((hk a).trans hs) ((hp a).trans ha) (reaches_waitKilled rfl (killAnswer_around hs).2)
  cases hc : s.child with
  | running act written =>
      have hs : killAnswer s .killed = some { s with child := .zombie (.signaled 9) } := by
        simp only [killAnswer, hc]
      exact hgo hs rfl
  | zombie status =>
      have hs : killAnswer s .killed = some s := by simp only [killAnswer, hc]
      exact hgo hs rfl
  | gone =>
      have hs : killAnswer s .failed = some s := if_pos hc
      exact hgo hs rfl

theorem writeAnswer_failed {rest : Text} (h : s.child.isRunning = false) : writeAnswer s rest .failed = some s :=
  if_neg (by simp [h])

theorem reaches_write {rest : Text} (h : Fits host spec s) (hfit : spec.stdinData.length ≤ host.stdin)
    (hcall : s.parent.call = .write rest) : ReachesDeadlineCheck host program s := by
  have hk (a : Answer) : kernel host s a = writeAnswer s rest a := by simp only [kernel, hcall]
  have hp (a : Answer) : step s.parent a = onWrite s.parent rest a := by simp only [step, hcall]
  obtain ⟨hne, hlen⟩ := h.rest rest hcall
  cases hrun : s.child.isRunning with
  | true =>
      have hroom : s.stdin.queue.length + rest.length ≤ s.stdin.capacity := by
        rw [h.capacity]
        exact hlen.trans hfit
      obtain ⟨stdin, hpush⟩ := Pipe.push_isSome hroom
      have hs : writeAnswer s rest (.wrote rest.length) = some { s with stdin } := by
        rw [writeAnswer, if_pos ⟨hrun, List.length_pos_of_ne_nil hne, Nat.le_refl _⟩, List.take_length, hpush]
        rfl
      have ha : onWrite s.parent rest (.wrote rest.length) = some { s.parent with call := .startClock } := by
        rw [onWrite, if_pos (Nat.le_refl _), if_pos (by simp)]
      exact reaches_move ((hk _).trans hs) ((hp _).trans ha) (reaches_startClock rfl)
  | false =>
      exact reaches_move ((hk .failed).trans (writeAnswer_failed hrun)) (hp .failed) (reaches_startClock rfl)

theorem reaches_of_fits (h : Fits host spec s) (hfit : spec.stdinData.length ≤ host.stdin) :
    ReachesDeadlineCheck host program s := by
  cases hcall : s.parent.call with
  | write rest => exact reaches_write h hfit hcall
  | startClock => exact reaches_startClock hcall
  | waitNoHang => exact reaches_waitNoHang hcall
  | clock => exact ⟨[], s, rfl, .inl hcall⟩
  | kill => exact reaches_kill hcall
  | waitKilled => exact reaches_waitKilled hcall (h.killed hcall)
  | drainOut => exact reaches_drainOut s hcall (h.drained (by simp [hcall, Call.drains]))
  | drainErr => exact reaches_drainErr s hcall (h.drained (by simp [hcall, Call.drains]))
  | poll => exact reaches_poll hcall
  | readOut errReady => exact reaches_readOut s hcall
  | readErr => exact reaches_readErr s hcall
  | waitLast => exact absurd hcall h.notLast
  | returned => exact ⟨[], s, rfl, .inr hcall⟩

theorem Fits.unblocked (h : Fits host spec s) (hfit : spec.stdinData.length ≤ host.stdin) : ¬ BlockedOutside s := by
  rintro ⟨-, ⟨⟨rest, hcall⟩, hfull⟩ | hlast⟩
  · obtain ⟨hne, hlen⟩ := h.rest rest hcall
    have hpos := List.length_pos_of_ne_nil hne
    rw [Pipe.Full, h.capacity] at hfull
    omega
  · exact h.notLast hlast

/-- A child that writes more than its output pipe holds and never reads. -/
def flood (host : Host) : Nat → ChildAct
  | 0 => .write .stdout (List.replicate (host.stdout + 1) 0)
  | _ + 1 => .exit (.exited 0)

def flooded (host : Host) (spec : RunSpec) : System :=
  { initial host spec with
    child := .running 0 host.stdout
    stdout := { capacity := host.stdout, queue := List.replicate host.stdout 0, bounded := by simp } }

theorem flood_moves (host : Host) (spec : RunSpec) :
    move host (flood host) (initial host spec) (.child host.stdout) = some (flooded host spec) := by
  have hpos := host.stdout.pos
  simp [move, childMove, initial, flood, childWrite, pipeOf, putPipe, Pipe.push, flooded, hpos]

/-- Beside the blocked child the parent has sent so much of its input. -/
def beside (host : Host) (spec : RunSpec) (sent : Text) (h : sent.length ≤ host.stdin) (parent : ProcessRun) :
    System :=
  { flooded host spec with
    parent
    stdin := { capacity := host.stdin, queue := sent, bounded := h } }

theorem beside_blocked {sent : Text} {h : sent.length ≤ host.stdin} {parent : ProcessRun} :
    BlockedOnOutput (flood host) (beside host spec sent h parent) :=
  ⟨0, host.stdout, .stdout, List.replicate (host.stdout + 1) 0, rfl, rfl, by simp,
    by simp [beside, flooded, pipeOf, Pipe.Full]⟩

theorem flooded_write {n : Nat} (hpos : 0 < n) (hle : n ≤ spec.stdinData.length)
    (hroom : (spec.stdinData.take n).length ≤ host.stdin) :
    move host (flood host) (flooded host spec) (.parent (.wrote n)) =
      some (beside host spec (spec.stdinData.take n) hroom
        { start spec with
          call := if spec.stdinData.drop n = [] then .startClock else .write (spec.stdinData.drop n) }) := by
  have hne : spec.stdinData ≠ [] := List.ne_nil_of_length_pos (hpos.trans_le hle)
  have hcall : (start spec).call = .write spec.stdinData := by simp [start, hne]
  have hk : kernel host (flooded host spec) (.wrote n) =
      some (beside host spec (spec.stdinData.take n) hroom (start spec)) := by
    have hpush : (flooded host spec).stdin.push (spec.stdinData.take n) =
        some { capacity := host.stdin, queue := spec.stdinData.take n, bounded := hroom } :=
      dif_pos (by simpa [flooded, initial] using hroom)
    have hrun : (flooded host spec).child.isRunning = true := rfl
    rw [kernel, show (flooded host spec).parent.call = .write spec.stdinData from hcall]
    simp only [writeAnswer, hrun, hpos, hle, and_self, if_true, hpush]
    rfl
  have hp : step (start spec) (.wrote n) = some
      { start spec with
        call := if spec.stdinData.drop n = [] then .startClock else .write (spec.stdinData.drop n) } := by
    simp only [step, hcall, onWrite, if_pos hle]
  rw [move, hk, Option.bind_eq_bind, Option.bind_some, show (flooded host spec).parent = start spec from rfl, hp]
  rfl

/-- More input than the pipe holds: the parent writes what fits and waits for room. -/
theorem write_blocks (host : Host) (spec : RunSpec) (hlong : host.stdin < spec.stdinData.length) :
    ∃ moves s, run (move host (flood host)) (initial host spec) moves = some s ∧ BlockedOutside s ∧
      BlockedOnOutput (flood host) s := by
  have hlen : (spec.stdinData.take host.stdin).length = host.stdin := by
    rw [List.length_take]
    omega
  have hrest : spec.stdinData.drop host.stdin ≠ [] := by simp [hlong]
  have hmove := flooded_write host.stdin.pos hlong.le hlen.le
  rw [if_neg hrest] at hmove
  refine ⟨[.child host.stdout, .parent (.wrote host.stdin)],
    beside host spec (spec.stdinData.take host.stdin) hlen.le
      { start spec with call := .write (spec.stdinData.drop host.stdin) },
    ?_, ⟨rfl, .inl ⟨⟨_, rfl⟩, hlen⟩⟩, beside_blocked⟩
  rw [run, flood_moves, Option.bind_some, run, hmove, Option.bind_some, run]

theorem input_written (hfit : spec.stdinData.length ≤ host.stdin) :
    ∃ moves, run (move host (flood host)) (initial host spec) moves =
      some (beside host spec spec.stdinData hfit { start spec with call := .startClock }) := by
  by_cases hnil : spec.stdinData = []
  · refine ⟨[.child host.stdout], ?_⟩
    rw [run, flood_moves, Option.bind_some, run]
    simp [beside, flooded, initial, start, hnil]
  · refine ⟨[.child host.stdout, .parent (.wrote spec.stdinData.length)], ?_⟩
    have hmove := flooded_write (List.length_pos_of_ne_nil hnil) (Nat.le_refl _) (by simpa using hfit)
    rw [run, flood_moves, Option.bind_some, run, hmove, Option.bind_some, run]
    simp [List.take_length]

/-- A poll that fails ends the loop before the deadline, and the wait after it blocks. -/
theorem poll_blocks (hfit : spec.stdinData.length ≤ host.stdin) (hfail : host.pollMayFail = true)
    (htimeout : spec.timeout ≠ 0) :
    ∃ moves s, run (move host (flood host)) (initial host spec) moves = some s ∧ BlockedOutside s ∧
      BlockedOnOutput (flood host) s := by
  obtain ⟨moves, hmoves⟩ := input_written hfit
  refine ⟨moves ++ [.parent (.now 0), .parent .running, .parent (.now 0), .parent .failed],
    beside host spec spec.stdinData hfit { start spec with call := .waitLast, deadline := spec.timeout }, ?_,
    ⟨rfl, .inr rfl⟩, beside_blocked⟩
  rw [run_append, hmoves, Option.bind_some]
  simp [run, move, kernel, step, beside, flooded, initial, start, clockAnswer, onStartClock, turn, waitAnswer,
    Child.isRunning, onWaitNoHang, checkEnded, onClock, pollOpen, pollAnswer, hfail, onPoll, leaveLoop, htimeout]

/-- The parent can always come to its deadline check exactly when the input fits
into the stdin pipe and a poll that fails cannot end the loop early. -/
theorem cannotHang_iff (host : Host) (spec : RunSpec) :
    CannotHang host spec ↔
      spec.stdinData.length ≤ host.stdin ∧ (host.pollMayFail = true → spec.timeout = 0) := by
  constructor
  · intro h
    have hfit : spec.stdinData.length ≤ host.stdin := by
      by_contra hlong
      obtain ⟨moves, s, hrun, hout, hchild⟩ := write_blocks host spec (Nat.lt_of_not_le hlong)
      exact h.unblocked _ moves s hrun hout (.inl hchild)
    refine ⟨hfit, fun hfail => ?_⟩
    by_contra hzero
    obtain ⟨moves, s, hrun, hout, hchild⟩ := poll_blocks hfit hfail hzero
    exact h.unblocked _ moves s hrun hout (.inl hchild)
  · rintro ⟨hfit, hpoll⟩
    constructor
    · intro program moves s hrun hout
      exact absurd hout ((fits_run hpoll hrun).unblocked hfit)
    · intro program moves s hrun
      exact reaches_of_fits (fits_run hpoll hrun) hfit

/-- The syntax check of a text longer than the 64 KiB of the pipe. -/
theorem syntax_check_hangs :
    ¬ ∀ spec, CannotHang { stdin := 65536, stdout := 65536, stderr := 65536 } spec := by
  intro h
  obtain ⟨moves, s, hrun, hout, hchild⟩ := write_blocks { stdin := 65536, stdout := 65536, stderr := 65536 }
    { argv := [lit "julia"], stdinData := List.replicate 65537 0x61, timeout := 2000 }
    (by rw [List.length_replicate]; decide)
  exact (h _).unblocked _ moves s hrun hout (.inl hchild)

end JJMCP.Process
