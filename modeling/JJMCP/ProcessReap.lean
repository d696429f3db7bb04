import JJMCP.Process

namespace JJMCP

def Call.waits : Call → Bool
  | .waitNoHang | .waitLast => true
  | _ => false

def Call.kills : Call → Bool
  | .kill | .waitKilled => true
  | _ => false

/-- The call signals the pid or waits on it. -/
def Call.onPid (c : Call) : Bool := c.waits || c.kills

end JJMCP

namespace JJMCP.Process

open Lib.Runs Text

def deadlineOf (timeout : Nat) (answers : List Answer) : Option Nat :=
  (answers.findSome? Answer.time).map (· + timeout)

/-- After the answers before it, this one is a clock reading at or past the deadline. -/
def Late (timeout : Nat) (before : List Answer) (a : Answer) : Prop :=
  ∃ t ∈ a.time, ∃ d ∈ deadlineOf timeout before, d ≤ t

def Reaped (answers : List Answer) : Prop := ∃ status, .reaped status ∈ answers

def LateSplit (timeout : Nat) (answers before : List Answer) : Prop :=
  ∃ a after, answers = before ++ a :: after ∧ Late timeout before a

/-- The clock is not seen past the deadline once waitpid has returned the pid. -/
def ReapedInTime (timeout : Nat) (answers : List Answer) : Prop :=
  ∀ before, LateSplit timeout answers before → ¬ Reaped before

structure SparesReaped (spec : RunSpec) (answers : List Answer) : Prop where
  untouched : ∀ before after s, answers = before ++ after → run step (start spec) before = some s →
    Reaped before → s.call.onPid = false
  timedOut : ∀ s, run step (start spec) answers = some s → s.timedOut = true →
    ∃ before, LateSplit spec.timeout answers before ∧ ¬ Reaped before

theorem reaped_concat {answers : List Answer} {a : Answer} :
    Reaped (answers ++ [a]) ↔ Reaped answers ∨ ∃ status, a = .reaped status := by
  simp only [Reaped, List.mem_append, List.mem_singleton, exists_or, eq_comm]

theorem deadlineOf_concat {timeout : Nat} {answers : List Answer} {a : Answer} (h : a.time = none) :
    deadlineOf timeout (answers ++ [a]) = deadlineOf timeout answers := by
  simp [deadlineOf, List.findSome?_append, h]

theorem deadlineOf_first {timeout t : Nat} {answers : List Answer} (h : deadlineOf timeout answers = none) :
    deadlineOf timeout (answers ++ [.now t]) = some (t + timeout) := by
  rw [deadlineOf, Option.map_eq_none_iff] at h
  simp [deadlineOf, List.findSome?_append, h, Answer.time]

theorem deadlineOf_later {timeout d : Nat} {answers : List Answer} {a : Answer}
    (h : deadlineOf timeout answers = some d) : deadlineOf timeout (answers ++ [a]) = some d := by
  obtain ⟨t, ht, rfl⟩ := Option.map_eq_some_iff.mp h
  simp [deadlineOf, List.findSome?_append, ht]

theorem LateSplit.append {timeout : Nat} {answers before : List Answer} (h : LateSplit timeout answers before)
    (more : List Answer) : LateSplit timeout (answers ++ more) before := by
  obtain ⟨a, after, rfl, hlate⟩ := h
  exact ⟨a, after ++ more, by simp, hlate⟩

/-- What the answers so far say about the state of run. -/
structure Traced (timeout : Nat) (answers : List Answer) (s : ProcessRun) : Prop where
  timeout_eq : s.timeout = timeout
  deadline : deadlineOf timeout answers = if s.call.starting then none else some s.deadline
  reaped : Reaped answers → s.childDone = true ∨ s.call = .returned
  undone : s.call.waits = true ∨ s.call.starting = true → s.childDone = false
  kills : s.call.kills = true → Reaped answers → ∃ before, LateSplit timeout answers before ∧ Reaped before
  timedOut : s.timedOut = true → ∃ before, LateSplit timeout answers before

theorem traced_start (spec : RunSpec) : Traced spec.timeout [] (start spec) where
  timeout_eq := rfl
  deadline := by by_cases h : spec.stdinData = [] <;> simp [start, h, Call.starting, deadlineOf]
  reaped := fun ⟨_, h⟩ => by simp at h
  undone := fun _ => rfl
  kills := by by_cases h : spec.stdinData = [] <;> simp [start, h, Call.kills]
  timedOut := by simp [start]

section

variable {timeout : Nat} {answers : List Answer} {s t : ProcessRun} {a : Answer}

/-- An answer that is neither a clock reading nor a reaped child. -/
theorem Traced.silent (h : Traced timeout answers s) (hret : s.call ≠ .returned)
    (ha : a.time = none ∧ ∀ status, a ≠ .reaped status)
    (hs : t.timeout = s.timeout ∧ t.deadline = s.deadline ∧ t.timedOut = s.timedOut)
    (hdone : s.childDone = true → t.childDone = true) (hstart : t.call.starting = s.call.starting)
    (hundone : t.call.waits = true ∨ t.call.starting = true → t.childDone = false)
    (hkills : t.call.kills = true → s.call.kills = true) : Traced timeout (answers ++ [a]) t := by
  have hreaped : Reaped (answers ++ [a]) → Reaped answers := fun hr =>
    (reaped_concat.mp hr).resolve_right fun ⟨status, hst⟩ => ha.2 status hst
  constructor
  · rw [hs.1, h.timeout_eq]
  · rw [deadlineOf_concat ha.1, h.deadline, hstart, hs.2.1]
  · intro hr
    exact .inl (hdone ((h.reaped (hreaped hr)).resolve_right hret))
  · exact hundone
  · intro hk hr
    obtain ⟨before, hlate, hb⟩ := h.kills (hkills hk) (hreaped hr)
    exact ⟨before, hlate.append _, hb⟩
  · intro hto
    obtain ⟨before, hlate⟩ := h.timedOut (hs.2.2 ▸ hto)
    exact ⟨before, hlate.append _⟩

theorem Traced.reap (h : Traced timeout answers s) {status : WaitStatus}
    (hs : t.timeout = s.timeout ∧ t.deadline = s.deadline ∧ t.timedOut = s.timedOut)
    (hdone : t.childDone = true ∨ t.call = .returned) (hs' : s.call.starting = false)
    (ht : t.call.starting = false ∧ t.call.waits = false ∧ t.call.kills = false) :
    Traced timeout (answers ++ [.reaped status]) t := by
  constructor
  · rw [hs.1, h.timeout_eq]
  · rw [deadlineOf_concat rfl, h.deadline, ht.1, hs', hs.2.1]
  · exact fun _ => hdone
  · exact fun hw => absurd hw (by simp [ht])
  · exact fun hk => absurd hk (by simp [ht])
  · intro hto
    obtain ⟨before, hlate⟩ := h.timedOut (hs.2.2 ▸ hto)
    exact ⟨before, hlate.append _⟩

/-- A call of the loop that does not touch a child that is done. -/
def Quiet (s : ProcessRun) (c : Call) : Prop :=
  c.starting = false ∧ c.kills = false ∧ (c.waits = true → s.childDone = false)

theorem Onward.quiet {s : ProcessRun} {c : Call} (h : Onward s c) : Quiet s c := by
  cases h with
  | wait h => exact ⟨rfl, rfl, fun _ => h⟩
  | clock => exact ⟨rfl, rfl, by simp [Call.waits]⟩
  | ended => exact ⟨rfl, rfl, by simp [Call.waits]⟩

theorem Quiet.undone {s : ProcessRun} {c : Call} (h : Quiet s c)
    (hc : c.waits = true ∨ c.starting = true) : s.childDone = false :=
  hc.elim h.2.2 fun hs => absurd hs (by simp [h.1])

theorem leaveLoop_quiet (s : ProcessRun) : ∃ c, Quiet s c ∧ leaveLoop s = { s with call := c } := by
  cases h : s.childDone with
  | false => exact ⟨.waitLast, ⟨rfl, rfl, fun _ => h⟩, by simp [leaveLoop, h]⟩
  | true => exact ⟨.returned, ⟨rfl, rfl, by simp [Call.waits]⟩, by simp [leaveLoop, h]⟩

/-- The state moved on to a call of the loop and changed nothing else the trace speaks of. -/
theorem Traced.onward (h : Traced timeout answers s) (hret : s.call ≠ .returned)
    (hstart : s.call.starting = false) (ha : a.time = none ∧ ∀ status, a ≠ .reaped status)
    {s' : ProcessRun} (hs : ReadOnly s s') {c : Call} (hc : Quiet s' c) :
    Traced timeout (answers ++ [a]) { s' with call := c } :=
  h.silent hret ha ⟨hs.timeout, hs.deadline, hs.timedOut⟩ (fun hd => hs.childDone ▸ hd) (hc.1.trans hstart.symm)
    hc.undone fun hk => absurd hk (by simp [hc.2.1])

theorem Traced.clock (h : Traced timeout answers s) (hcall : s.call = .clock) (now : Nat)
    (ht : t = if s.deadline ≤ now then { s with timedOut := true, call := .kill } else pollOpen s) :
    Traced timeout (answers ++ [.now now]) t := by
  have hdl : deadlineOf timeout answers = some s.deadline := by simp [h.deadline, hcall, Call.starting]
  have hkeep : Reaped (answers ++ [.now now]) → Reaped answers := fun hr =>
    (reaped_concat.mp hr).resolve_right (by simp)
  have hdone (hr : Reaped (answers ++ [.now now])) : s.childDone = true :=
    (h.reaped (hkeep hr)).resolve_right (by simp [hcall])
  by_cases hlate : s.deadline ≤ now
  · have hsplit : LateSplit timeout (answers ++ [.now now]) answers :=
      ⟨.now now, [], rfl, now, rfl, s.deadline, hdl, hlate⟩
    rw [if_pos hlate] at ht
    subst ht
    constructor
    · exact h.timeout_eq
    · exact deadlineOf_later hdl
    · exact fun hr => .inl (hdone hr)
    · exact fun hw => absurd hw (by simp [Call.waits, Call.starting])
    · exact fun _ hr => ⟨answers, hsplit, hkeep hr⟩
    · exact fun _ => ⟨answers, hsplit⟩
  · obtain ⟨c, hc, hp⟩ := pollOpen_onward s
    rw [if_neg hlate, hp] at ht
    subst ht
    have hquiet : Quiet s c := by
      rcases hc with rfl | hc
      · exact ⟨rfl, rfl, by simp [Call.waits]⟩
      · exact hc.quiet
    constructor
    · exact h.timeout_eq
    · simpa [hquiet.1] using deadlineOf_later hdl
    · exact fun hr => .inl (hdone hr)
    · exact hquiet.undone
    · exact fun hk => absurd hk (by simp [hquiet.2.1])
    · intro hto
      obtain ⟨before, hb⟩ := h.timedOut hto
      exact ⟨before, hb.append _⟩

theorem LateSplit.deadline {before : List Answer} (h : LateSplit timeout answers before) :
    deadlineOf timeout answers ≠ none := by
  obtain ⟨a, after, rfl, t, -, d, hd, -⟩ := h
  simp only [deadlineOf, Option.mem_def, Option.map_eq_some_iff] at hd ⊢
  obtain ⟨t, ht, -⟩ := hd
  simp [List.findSome?_append, ht]

theorem Traced.started (h : Traced timeout answers s) (hcall : s.call = .startClock) (now : Nat) :
    Traced timeout (answers ++ [.now now]) (turn { s with deadline := now + s.timeout }) := by
  obtain ⟨c, hc, ht⟩ := turn_onward { s with deadline := now + s.timeout }
  have hnone : deadlineOf timeout answers = none := by simp [h.deadline, hcall, Call.starting]
  have hdone : s.childDone = false := h.undone (.inr (by simp [hcall, Call.starting]))
  have hr : ¬ Reaped answers := fun hr => by simpa [hdone, hcall] using h.reaped hr
  rw [ht]
  constructor
  · exact h.timeout_eq
  · simp [hc.quiet.1, deadlineOf_first hnone, h.timeout_eq]
  · exact fun hr' => absurd hr' (by simp [reaped_concat, hr])
  · exact fun _ => hdone
  · exact fun hk => absurd hk (by simp [hc.quiet.2.1])
  · intro hto
    obtain ⟨before, hb⟩ := h.timedOut hto
    exact absurd hnone hb.deadline

theorem traced_write (h : Traced timeout answers s) {rest : Text} (hcall : s.call = .write rest)
    (hstep : onWrite s rest a = some t) : Traced timeout (answers ++ [a]) t := by
  have hdone : s.childDone = false := h.undone (.inr (by simp [hcall, Call.starting]))
  cases a with
  | wrote n =>
      obtain ⟨-, hst⟩ := Option.ite_none_right_eq_some.mp hstep
      obtain rfl := Option.some.inj hst
      by_cases hrest : rest.drop n = [] <;>
        exact h.silent (by simp [hcall]) ⟨rfl, by simp⟩ ⟨rfl, rfl, rfl⟩ id
          (by simp [hcall, hrest, Call.starting]) (fun _ => hdone) (by simp [hrest, Call.kills])
  | interrupted =>
      obtain rfl := Option.some.inj hstep
      exact h.silent (by simp [hcall]) ⟨rfl, by simp⟩ ⟨rfl, rfl, rfl⟩ id rfl (fun _ => hdone) id
  | failed =>
      obtain rfl := Option.some.inj hstep
      exact h.silent (by simp [hcall]) ⟨rfl, by simp⟩ ⟨rfl, rfl, rfl⟩ id
        (by simp [hcall, Call.starting]) (fun _ => hdone) (by simp [Call.kills])
  | _ => cases hstep

theorem traced_waitNoHang (h : Traced timeout answers s) (hcall : s.call = .waitNoHang)
    (hstep : onWaitNoHang s a = some t) : Traced timeout (answers ++ [a]) t := by
  cases a with
  | reaped status =>
      obtain ⟨c, hc, ht⟩ := checkEnded_onward { s with childDone := true, status }
      obtain rfl := ht ▸ Option.some.inj hstep
      have hwaits : c.waits = false := by
        by_contra hw
        exact absurd (hc.quiet.2.2 (by simpa using hw)) (by simp)
      exact h.reap ⟨rfl, rfl, rfl⟩ (.inl rfl) (by simp [hcall, Call.starting])
        ⟨hc.quiet.1, hwaits, hc.quiet.2.1⟩
  | running | failed =>
      obtain ⟨c, hc, ht⟩ := checkEnded_onward s
      obtain rfl := ht ▸ Option.some.inj hstep
      exact h.onward (by simp [hcall]) (by simp [hcall, Call.starting]) ⟨rfl, by simp⟩ (.refl s) hc.quiet
  | _ => cases hstep

theorem traced_kill (h : Traced timeout answers s) (hcall : s.call = .kill) (hstep : onKill s a = some t) :
    Traced timeout (answers ++ [a]) t := by
  cases a with
  | killed | failed =>
      obtain rfl := Option.some.inj hstep
      exact h.silent (by simp [hcall]) ⟨rfl, by simp⟩ ⟨rfl, rfl, rfl⟩ id (by simp [hcall, Call.starting])
        (by simp [Call.waits, Call.starting]) (by simp [hcall, Call.kills])
  | _ => cases hstep

theorem traced_waitKilled (h : Traced timeout answers s) (hcall : s.call = .waitKilled)
    (hstep : onWaitKilled s a = some t) : Traced timeout (answers ++ [a]) t := by
  cases a with
  | reaped status =>
      obtain rfl := Option.some.inj hstep
      exact h.reap ⟨rfl, rfl, rfl⟩ (.inl rfl) (by simp [hcall, Call.starting]) ⟨rfl, rfl, rfl⟩
  | interrupted | failed =>
      obtain rfl := Option.some.inj hstep
      exact h.silent (by simp [hcall]) ⟨rfl, by simp⟩ ⟨rfl, rfl, rfl⟩ (fun _ => rfl)
        (by simp [hcall, Call.starting]) (by simp [Call.waits, Call.starting]) (by simp [Call.kills])
  | _ => cases hstep

theorem traced_poll (h : Traced timeout answers s) (hcall : s.call = .poll) (hstep : onPoll s a = some t) :
    Traced timeout (answers ++ [a]) t := by
  have hgo {c : Call} (ha : a.time = none ∧ ∀ status, a ≠ .reaped status) (hc : Quiet s c) :=
    h.onward (by simp [hcall]) (by simp [hcall, Call.starting]) ha (.refl s) hc
  have hafter (outReady errReady : Bool) (ha : a.time = none ∧ ∀ status, a ≠ .reaped status) :
      Traced timeout (answers ++ [a]) (afterPoll outReady errReady s) := by
    obtain ⟨c, hc, ht⟩ := afterPoll_onward outReady errReady s
    rw [ht]
    rcases hc with rfl | rfl | hc
    · exact hgo ha ⟨rfl, rfl, by simp [Call.waits]⟩
    · exact hgo ha ⟨rfl, rfl, by simp [Call.waits]⟩
    · exact hgo ha hc.quiet
  cases a with
  | polled outReady errReady => exact Option.some.inj hstep ▸ hafter outReady errReady ⟨rfl, by simp⟩
  | interrupted => exact Option.some.inj hstep ▸ hafter false false ⟨rfl, by simp⟩
  | failed =>
      obtain ⟨c, hc, ht⟩ := leaveLoop_quiet s
      obtain rfl := ht ▸ Option.some.inj hstep
      exact hgo ⟨rfl, by simp⟩ hc
  | _ => cases hstep

/-- The pipes are read in a loop that then goes on. -/
theorem traced_read (h : Traced timeout answers s) (hret : s.call ≠ .returned)
    (hstart : s.call.starting = false) (hpid : s.call.onPid = false)
    (ha : a.time = none ∧ ∀ status, a ≠ .reaped status) {next : ProcessRun → ProcessRun}
    (hnext : ∀ s', ∃ c, Quiet s' c ∧ next s' = { s' with call := c })
    (hread : ∃ s', ReadOnly s s' ∧ (t = s' ∨ t = next s')) : Traced timeout (answers ++ [a]) t := by
  simp only [Call.onPid, Bool.or_eq_false_iff] at hpid
  obtain ⟨s', hs, rfl | rfl⟩ := hread
  · exact h.silent hret ha ⟨hs.timeout, hs.deadline, hs.timedOut⟩ (fun hd => hs.childDone ▸ hd) (by rw [hs.call])
      (by simp [hs.call, hpid, hstart]) (by simp [hs.call])
  · obtain ⟨c, hc, ht⟩ := hnext s'
    rw [ht]
    exact h.onward hret hstart ha hs hc

theorem traced_waitLast (h : Traced timeout answers s) (hcall : s.call = .waitLast)
    (hstep : onWaitLast s a = some t) : Traced timeout (answers ++ [a]) t := by
  cases a with
  | reaped status =>
      obtain rfl := Option.some.inj hstep
      exact h.reap ⟨rfl, rfl, rfl⟩ (.inr rfl) (by simp [hcall, Call.starting]) ⟨rfl, rfl, rfl⟩
  | interrupted | failed =>
      obtain rfl := Option.some.inj hstep
      exact h.silent (by simp [hcall]) ⟨rfl, by simp⟩ ⟨rfl, rfl, rfl⟩ id
        (by simp [hcall, Call.starting]) (by simp [Call.waits, Call.starting]) (by simp [Call.kills])
  | _ => cases hstep

theorem traced_step (h : Traced timeout answers s) (hstep : step s a = some t) :
    Traced timeout (answers ++ [a]) t := by
  cases hcall : s.call with
  | write rest =>
      simp only [step, hcall] at hstep
      exact traced_write h hcall hstep
  | startClock =>
      simp only [step, hcall] at hstep
      cases a with
      | now now => exact Option.some.inj hstep ▸ h.started hcall now
      | _ => cases hstep
  | waitNoHang =>
      simp only [step, hcall] at hstep
      exact traced_waitNoHang h hcall hstep
  | clock =>
      simp only [step, hcall] at hstep
      cases a with
      | now now => exact h.clock hcall now (Option.some.inj hstep).symm
      | _ => cases hstep
  | kill =>
      simp only [step, hcall] at hstep
      exact traced_kill h hcall hstep
  | waitKilled =>
      simp only [step, hcall] at hstep
      exact traced_waitKilled h hcall hstep
  | drainOut =>
      simp only [step, hcall] at hstep
      obtain ⟨ha, hread⟩ := readStdout_cases hstep
      refine traced_read h (by simp [hcall]) (by simp [hcall, Call.starting]) (by simp [hcall]; rfl) ha ?_ hread
      exact fun s' => ⟨.drainErr, ⟨rfl, rfl, by simp [Call.waits]⟩, rfl⟩
  | drainErr =>
      simp only [step, hcall] at hstep
      obtain ⟨ha, hread⟩ := readStderr_cases hstep
      exact traced_read h (by simp [hcall]) (by simp [hcall, Call.starting]) (by simp [hcall]; rfl) ha
        leaveLoop_quiet hread
  | poll =>
      simp only [step, hcall] at hstep
      exact traced_poll h hcall hstep
  | readOut errReady =>
      simp only [step, hcall] at hstep
      obtain ⟨ha, hread⟩ := readStdout_cases hstep
      refine traced_read h (by simp [hcall]) (by simp [hcall, Call.starting]) (by simp [hcall]; rfl) ha ?_ hread
      intro s'
      obtain ⟨c, hc, ht⟩ := afterOut_onward errReady s'
      rcases hc with rfl | hc
      · exact ⟨.readErr, ⟨rfl, rfl, by simp [Call.waits]⟩, ht⟩
      · exact ⟨c, hc.quiet, ht⟩
  | readErr =>
      simp only [step, hcall] at hstep
      obtain ⟨ha, hread⟩ := readStderr_cases hstep
      refine traced_read h (by simp [hcall]) (by simp [hcall, Call.starting]) (by simp [hcall]; rfl) ha ?_ hread
      intro s'
      obtain ⟨c, hc, ht⟩ := turn_onward s'
      exact ⟨c, hc.quiet, ht⟩
  | waitLast =>
      simp only [step, hcall] at hstep
      exact traced_waitLast h hcall hstep
  | returned => simp [step, hcall] at hstep

theorem traced_run {spec : RunSpec} (h : run step (start spec) answers = some s) :
    Traced spec.timeout answers s :=
  run_history (traced_start spec) (fun _ _ _ _ hs ha => traced_step hs ha) h

theorem step_now {now : Nat} (h : step s (.now now) = some t) :
    s.call = .startClock ∨
      s.call = .clock ∧ t = if s.deadline ≤ now then { s with timedOut := true, call := .kill } else pollOpen s := by
  cases hcall : s.call with
  | startClock => exact .inl rfl
  | clock =>
      simp only [step, hcall] at h
      exact .inr ⟨rfl, (Option.some.inj h).symm⟩
  | drainOut | drainErr | readOut | readErr =>
      simp [step, hcall, readStdout, readStderr, appendAvailable] at h
  | write | waitNoHang | kill | waitKilled | poll | waitLast =>
      simp [step, hcall, onWrite, onWaitNoHang, onKill, onWaitKilled, onPoll, onWaitLast] at h
  | returned => simp [step, hcall] at h

/-- Past the deadline the child is killed, whether or not it was reaped. -/
theorem late_kills {spec : RunSpec} {before : List Answer} (h : run step (start spec) (before ++ [a]) = some t)
    (hlate : Late spec.timeout before a) : t.call = .kill := by
  obtain ⟨s, hs, hrest⟩ := run_append_some h
  obtain ⟨t', ha, ht⟩ := run_cons_some hrest
  obtain rfl := Option.some.inj ht
  obtain ⟨now, hnow, d, hd, hle⟩ := hlate
  cases a with
  | now now' =>
      obtain rfl := Option.some.inj hnow
      have hdl := (traced_run hs).deadline
      rcases step_now ha with hcall | ⟨hcall, hkill⟩
      · simp [hcall, Call.starting, Option.mem_def.mp hd] at hdl
      · have hle' : s.deadline ≤ now' := by
          simp only [hcall, Call.starting, Option.mem_def.mp hd] at hdl
          exact Option.some.inj hdl ▸ hle
        rw [hkill, if_pos hle']
  | _ => cases hnow

/-- No signal and no wait ever goes to a pid that waitpid has returned, and a run
only times out on a child not reaped before the deadline, exactly when the deadline is
not seen to pass after the child was reaped (while a pipe is still open). -/
theorem sparesReaped_iff {spec : RunSpec} (h : run step (start spec) answers = some s) :
    SparesReaped spec answers ↔ ReapedInTime spec.timeout answers := by
  constructor
  · intro hs before ⟨a, after, heq, hlate⟩ hr
    have hsplit : answers = (before ++ [a]) ++ after := by simp [heq]
    obtain ⟨t, ht, -⟩ := run_append_some (hsplit ▸ h)
    have hkill := late_kills ht hlate
    have hpid := hs.untouched _ _ _ hsplit ht (reaped_concat.mpr (.inl hr))
    simp [hkill, Call.onPid, Call.kills] at hpid
  · intro htime
    constructor
    · intro before after t heq ht hr
      have htr := traced_run ht
      have hwaits : t.call.waits = false := by
        by_contra hw
        have hw : t.call.waits = true := by simpa using hw
        rcases htr.reaped hr with hd | hret
        · exact absurd (htr.undone (.inl hw)) (by simp [hd])
        · simp [hret, Call.waits] at hw
      have hkills : t.call.kills = false := by
        by_contra hk
        obtain ⟨b, hlate, hb⟩ := htr.kills (by simpa using hk) hr
        exact htime b (heq ▸ hlate.append after) hb
      rw [Call.onPid, hwaits, hkills, Bool.or_self]
    · intro t ht hto
      obtain ⟨before, hlate⟩ := (traced_run ht).timedOut hto
      exact ⟨before, hlate, htime before hlate⟩

end

theorem sparesReaped_iff_true :
    SparesReaped { argv := [lit "true"], stdinData := [] }
        [.now 0, .running, .now 1, .polled true true, .data (lit "ok"), .wouldBlock, .endOfFile,
          .reaped (.exited 0), .now 2, .polled true true, .endOfFile] ↔
      ReapedInTime 5000
        [.now 0, .running, .now 1, .polled true true, .data (lit "ok"), .wouldBlock, .endOfFile,
          .reaped (.exited 0), .now 2, .polled true true, .endOfFile] :=
  @sparesReaped_iff _ { call := .returned, timeout := 5000, deadline := 5000, stdoutOpen := false,
                        stderrOpen := false, childDone := true, stdoutText := lit "ok" }
    { argv := [lit "true"], stdinData := [] } (by decide)

/-- A grandchild keeps the pipes open: the child exits and is reaped, and at the
deadline its pid is killed and waited on again. -/
theorem reaped_killed :
    ¬ ∀ spec answers s, run step (start spec) answers = some s → SparesReaped spec answers := by
  intro h
  have hrun := h { argv := [lit "sh"], stdinData := [] }
    [.now 0, .reaped (.exited 0), .now 1, .polled false false, .now 5000] _ rfl
  have hpid := hrun.untouched _ [] _ (List.append_nil _).symm rfl ⟨.exited 0, by simp⟩
  exact absurd hpid (by decide)

end JJMCP.Process
