import JJMCP.Lock

namespace JJMCP.Lock

open Text Lib.Runs

/-- The next system call of acquire. -/
def nextCall (s : LockState) (p written : Nat) : Option LockAction :=
  match s.phase p with
  | .opening _ _ => some (.openLock p)
  | .reading _ _ => some (.readLock p)
  | .probing _ _ _ => some (.probe p)
  | .unlinking _ _ => some (.unlinkStale p)
  | .writing _ => some (.writeLock p written)
  | .idle | .held | .dropping => none

def goAlone (p written : Nat) : Nat → LockState → LockState
  | 0, s => s
  | n + 1, s =>
      match (nextCall s p written).bind (step s) with
      | none => s
      | some s' => goAlone p written n s'

/-- An acquire with no step of another process in between. Two attempts make at
most six system calls. -/
def acquireAlone (s : LockState) (p : Nat) (markerId : Text) (written : Nat) : Option LockState :=
  (step s (.acquire p markerId)).map (goAlone p written 6)

/-- No live process is inside acquire, holds the lock or is releasing it. -/
def Quiet (s : LockState) : Prop := ∀ p, s.life p = .live → s.phase p = .idle

/-- An undisturbed acquire by any live process succeeds. -/
def Acquirable (s : LockState) : Prop :=
  ∀ p, s.life p = .live → ∀ markerId written, ∃ t, acquireAlone s p markerId written = some t ∧ Holding t p

def Fresh (s : LockState) : Prop := s.file = none ∧ Quiet s

/-- The number at the start of the file is that of no live process. -/
def NamesDead (s : LockState) (f : LockFile) : Prop :=
  0 < readPid f.content ∧ s.life (readPid f.content) ≠ .live

/-- A process dies only when the lock file it created starts with its pid, or with
a number of no live process, and no process starts under a number left by a dead one. -/
def CrashesWritten (s : LockState) : LockAction → Prop
  | .crash p => ∀ f ∈ s.file, f.creator = p → 0 < readPid f.content ∧
      (readPid f.content = p ∨ s.life (readPid f.content) ≠ .live)
  | .spawn p => ∀ f ∈ s.file, s.life f.creator = .dead → readPid f.content ≠ p
  | _ => True

instance (s : LockState) : (a : LockAction) → Decidable (CrashesWritten s a)
  | .crash p => inferInstanceAs (Decidable (∀ f ∈ s.file, f.creator = p → 0 < readPid f.content ∧
      (readPid f.content = p ∨ s.life (readPid f.content) ≠ .live)))
  | .spawn p => inferInstanceAs (Decidable (∀ f ∈ s.file, s.life f.creator = .dead → readPid f.content ≠ p))
  | .acquire _ _ | .openLock _ | .openError _ | .writeLock _ _ | .readLock _ | .probe _ | .unlinkStale _
  | .closeLock _ | .unlinkLock _ => isTrue trivial

section

variable {s t : LockState} {p : Nat} {markerId : Text} {written : Nat}

theorem goAlone_step {a : LockAction} (n : Nat) (hcall : nextCall s p written = some a) (h : step s a = some t) :
    goAlone p written (n + 1) s = goAlone p written n t := by
  rw [goAlone, hcall, Option.bind_some, h]

theorem goAlone_stop (n : Nat) (hcall : nextCall s p written = none) : goAlone p written n s = s := by
  cases n with
  | zero => rfl
  | succ n => rw [goAlone, hcall, Option.bind_none]

theorem open_free (n attempt : Nat) (hp : s.life p = .live) (hphase : s.phase p = .opening attempt markerId)
    (hfile : s.file = none) : Holding (goAlone p written (n + 2) s) p := by
  have hopen : step s (.openLock p) = some { setPhase s p (.writing markerId) with file := some ⟨p, []⟩ } := by
    simp only [step, hp, hphase, hfile]
  rw [goAlone_step (n + 1) (by simp only [nextCall, hphase]) hopen]
  have hwrite : step { setPhase s p (.writing markerId) with file := some ⟨p, []⟩ } (.writeLock p written) =
      some { s with
             phase := Function.update s.phase p .held
             file := some ⟨p, (lockText p markerId).take written⟩ } := by
    simp [step, hp]
  rw [goAlone_step n (by simp [nextCall]) hwrite, goAlone_stop n (by simp [nextCall])]
  exact ⟨hp, .inl (by simp)⟩

theorem open_taken (n attempt : Nat) (hp : s.life p = .live) (hphase : s.phase p = .opening attempt markerId)
    {f : LockFile} (hfile : s.file = some f) :
    goAlone p written (n + 2) s =
      goAlone p written n
        (setPhase s p (if 0 < readPid f.content then .probing attempt markerId (readPid f.content) else .idle)) := by
  have hopen : step s (.openLock p) = some (setPhase s p (.reading attempt markerId)) := by
    simp only [step, hp, hphase, hfile]
  rw [goAlone_step (n + 1) (by simp only [nextCall, hphase]) hopen]
  have hread : step (setPhase s p (.reading attempt markerId)) (.readLock p) =
      some (setPhase s p
        (if 0 < readPid f.content then .probing attempt markerId (readPid f.content) else .idle)) := by
    simp [step, hp, setPhase, storedPid, hfile]
  exact goAlone_step n (by simp [nextCall]) hread

theorem probe_alone (n attempt pid : Nat) (hp : s.life p = .live)
    (hphase : s.phase p = .probing attempt markerId pid) :
    goAlone p written (n + 1) s =
      goAlone p written n (setPhase s p (if s.life pid = .live then .idle else .unlinking attempt markerId)) := by
  have hprobe : step s (.probe p) =
      some (setPhase s p (if s.life pid = .live then .idle else .unlinking attempt markerId)) := by
    simp only [step, hp, hphase]
  exact goAlone_step n (by simp only [nextCall, hphase]) hprobe

theorem reclaim_alone (n : Nat) (hp : s.life p = .live) (hphase : s.phase p = .unlinking 0 markerId) :
    Holding (goAlone p written (n + 3) s) p := by
  have hunlink : step s (.unlinkStale p) = some { setPhase s p (.opening 1 markerId) with file := none } := by
    simp [step, hp, hphase]
  rw [goAlone_step (n + 2) (by simp only [nextCall, hphase]) hunlink]
  have hopening : (setPhase s p (.opening 1 markerId)).phase p = .opening 1 markerId := by simp
  exact open_free n 1 hp hopening rfl

theorem failed_alone (n : Nat) (hphase : s.phase p = .idle) : ¬ Holding (goAlone p written n s) p := by
  rw [goAlone_stop n (by simp only [nextCall, hphase])]
  rintro ⟨-, h | h⟩
  · simp [hphase] at h
  · simp [hphase] at h

theorem probing_holds (n pid : Nat) (hp : s.life p = .live) (hphase : s.phase p = .probing 0 markerId pid) :
    Holding (goAlone p written (n + 4) s) p ↔ s.life pid ≠ .live := by
  rw [probe_alone (n + 3) 0 pid hp hphase]
  by_cases hlive : s.life pid = .live
  · rw [if_pos hlive]
    exact iff_of_false (failed_alone _ (by simp)) fun h => h hlive
  · rw [if_neg hlive]
    have hunlinking : (setPhase s p (.unlinking 0 markerId)).phase p = .unlinking 0 markerId := by simp
    exact iff_of_true (reclaim_alone n hp hunlinking) hlive

/-- An undisturbed acquire succeeds exactly when there is no lock file or it names
a process that is not alive. -/
theorem acquireAlone_holds (hp : s.life p = .live) (hidle : s.phase p = .idle) :
    (∃ t, acquireAlone s p markerId written = some t ∧ Holding t p) ↔ ∀ f ∈ s.file, NamesDead s f := by
  have hacquire : step s (.acquire p markerId) = some (setPhase s p (.opening 0 markerId)) := by
    simp only [step, hp, hidle]
  have hrun : acquireAlone s p markerId written =
      some (goAlone p written 6 (setPhase s p (.opening 0 markerId))) := by
    rw [acquireAlone, hacquire, Option.map_some]
  have hphase : (setPhase s p (.opening 0 markerId)).phase p = .opening 0 markerId := by simp
  simp only [hrun, Option.some.injEq, exists_eq_left']
  cases hfile : s.file with
  | none => simpa using open_free 4 0 (s := setPhase s p (.opening 0 markerId)) hp hphase hfile
  | some f =>
      rw [open_taken 4 0 (s := setPhase s p (.opening 0 markerId)) hp hphase hfile]
      simp only [Option.mem_def, Option.some.injEq, forall_eq', NamesDead]
      by_cases hpid : 0 < readPid f.content
      · rw [if_pos hpid]
        have hprobing : (setPhase (setPhase s p (.opening 0 markerId)) p
            (.probing 0 markerId (readPid f.content))).phase p = .probing 0 markerId (readPid f.content) := by simp
        refine Iff.trans ?_ ⟨fun h => ⟨hpid, h⟩, And.right⟩
        apply probing_holds 0 (readPid f.content) ?_ hprobing
        exact hp
      · rw [if_neg hpid]
        exact iff_of_false (failed_alone 4 (by simp)) fun h => hpid h.1

/-- The lock file of a live process is one it has not released yet, and that of a
dead one names no live process. -/
structure Reclaimable (s : LockState) : Prop where
  born : ∀ f ∈ s.file, s.life f.creator ≠ .unborn
  inLock : ∀ f ∈ s.file, s.life f.creator = .live → Lock.inLock (s.phase f.creator) = true
  names : ∀ f ∈ s.file, s.life f.creator = .dead → NamesDead s f

theorem reclaimable_fresh (h : Fresh s) : Reclaimable s := by
  constructor
  · simp [h.1]
  · simp [h.1]
  · simp [h.1]

/-- A step of a live process from one phase of acquire to another. -/
theorem Reclaimable.setPhase {phase : LockPhase} (h : Reclaimable s)
    (hp : Lock.inLock (s.phase p) = true → Lock.inLock phase = true) : Reclaimable (setPhase s p phase) := by
  constructor
  · exact h.born
  · intro f hf hl
    have hin := h.inLock f hf hl
    by_cases he : f.creator = p
    · simpa [he] using hp (he ▸ hin)
    · simpa [Function.update_of_ne he] using hin
  · exact h.names

theorem Reclaimable.unlinked (h : s.file = none) : Reclaimable s := by
  constructor
  · simp [h]
  · simp [h]
  · simp [h]

theorem reclaimable_spawn (h : Reclaimable s) (hp : s.life p = .unborn)
    (hnew : ∀ f ∈ s.file, s.life f.creator = .dead → readPid f.content ≠ p) :
    Reclaimable (setPhase { s with life := Function.update s.life p .live } p .idle) := by
  have hne : ∀ f ∈ s.file, f.creator ≠ p := by
    rintro f hf rfl
    exact h.born f hf hp
  constructor
  · intro f hf
    simpa [Function.update_of_ne (hne f hf)] using h.born f hf
  · intro f hf hl
    have hl' : s.life f.creator = .live := by simpa [Function.update_of_ne (hne f hf)] using hl
    simpa [Function.update_of_ne (hne f hf)] using h.inLock f hf hl'
  · intro f hf hd
    have hd' : s.life f.creator = .dead := by simpa [Function.update_of_ne (hne f hf)] using hd
    obtain ⟨hpos, hlive⟩ := h.names f hf hd'
    exact ⟨hpos, by simpa [Function.update_of_ne (hnew f hf hd')] using hlive⟩

theorem reclaimable_crash (h : Reclaimable s)
    (hfile : ∀ f ∈ s.file, f.creator = p → 0 < readPid f.content ∧
      (readPid f.content = p ∨ s.life (readPid f.content) ≠ .live)) :
    Reclaimable { s with life := Function.update s.life p .dead } := by
  have hstill {q : Nat} (hq : q = p ∨ s.life q ≠ .live) : Function.update s.life p .dead q ≠ .live := by
    by_cases he : q = p
    · simp [he]
    · rw [Function.update_of_ne he]
      exact hq.resolve_left he
  constructor
  · intro f hf
    by_cases he : f.creator = p
    · simp [he]
    · simpa [Function.update_of_ne he] using h.born f hf
  · intro f hf hl
    by_cases he : f.creator = p
    · simp [he] at hl
    · exact h.inLock f hf (by simpa [Function.update_of_ne he] using hl)
  · intro f hf hd
    by_cases he : f.creator = p
    · obtain ⟨hpos, hpid⟩ := hfile f hf he
      exact ⟨hpos, hstill hpid⟩
    · obtain ⟨hpos, hlive⟩ := h.names f hf (by simpa [Function.update_of_ne he] using hd)
      exact ⟨hpos, hstill (.inr hlive)⟩

theorem reclaimable_write (h : Reclaimable s) (hp : s.life p = .live) :
    Reclaimable { setPhase s p .held with
      file := s.file.map fun f =>
        if f.creator = p then { f with content := (lockText p markerId).take written } else f } := by
  have hheld : Reclaimable (setPhase s p .held) := h.setPhase fun _ => rfl
  constructor
  · rintro f hf
    obtain ⟨g, hg, rfl⟩ := Option.map_eq_some_iff.mp hf
    split
    · exact hheld.born g hg
    · exact hheld.born g hg
  · rintro f hf hl
    obtain ⟨g, hg, rfl⟩ := Option.map_eq_some_iff.mp hf
    by_cases he : g.creator = p
    · rw [if_pos he] at hl ⊢
      exact hheld.inLock g hg hl
    · rw [if_neg he] at hl ⊢
      exact hheld.inLock g hg hl
  · rintro f hf hd
    obtain ⟨g, hg, rfl⟩ := Option.map_eq_some_iff.mp hf
    by_cases he : g.creator = p
    · rw [if_pos he] at hd
      simp [he, hp] at hd
    · rw [if_neg he] at hd ⊢
      exact hheld.names g hg hd

theorem reclaimable_create (hp : s.life p = .live) :
    Reclaimable { setPhase s p (.writing markerId) with file := some ⟨p, []⟩ } := by
  constructor
  · simp [hp]
  · simp [Lock.inLock]
  · simp [hp]

theorem step_reclaimable {a : LockAction} (h : Reclaimable s) (ha : CrashesWritten s a) (hstep : step s a = some t) :
    Reclaimable t := by
  cases a with
  | spawn p =>
      obtain ⟨hp, ht⟩ := Option.ite_none_right_eq_some.mp hstep
      exact Option.some.inj ht ▸ reclaimable_spawn h hp ha
  | crash p =>
      obtain ⟨-, ht⟩ := Option.ite_none_right_eq_some.mp hstep
      exact Option.some.inj ht ▸ reclaimable_crash h ha
  | acquire p markerId =>
      simp only [step] at hstep
      split at hstep
      next hl hphase => exact Option.some.inj hstep ▸ h.setPhase (by simp [hphase, Lock.inLock])
      next => cases hstep
  | openLock p =>
      simp only [step] at hstep
      split at hstep
      next attempt markerId hl hphase =>
        split at hstep
        next => exact Option.some.inj hstep ▸ reclaimable_create hl
        next => exact Option.some.inj hstep ▸ h.setPhase (by simp [hphase, Lock.inLock])
      next => cases hstep
  | openError p =>
      simp only [step] at hstep
      split at hstep
      next hl hphase => exact Option.some.inj hstep ▸ h.setPhase (by simp [hphase, Lock.inLock])
      next => cases hstep
  | writeLock p written =>
      simp only [step] at hstep
      split at hstep
      next hl hphase => exact Option.some.inj hstep ▸ reclaimable_write h hl
      next => cases hstep
  | readLock p =>
      simp only [step] at hstep
      split at hstep
      next hl hphase => exact Option.some.inj hstep ▸ h.setPhase (by simp [hphase, Lock.inLock])
      next => cases hstep
  | probe p =>
      simp only [step] at hstep
      split at hstep
      next hl hphase => exact Option.some.inj hstep ▸ h.setPhase (by simp [hphase, Lock.inLock])
      next => cases hstep
  | unlinkStale p =>
      simp only [step] at hstep
      split at hstep
      next => exact Option.some.inj hstep ▸ .unlinked rfl
      next => cases hstep
  | closeLock p =>
      simp only [step] at hstep
      split at hstep
      next => exact Option.some.inj hstep ▸ h.setPhase fun _ => rfl
      next => cases hstep
  | unlinkLock p =>
      simp only [step] at hstep
      split at hstep
      next => exact Option.some.inj hstep ▸ .unlinked rfl
      next => cases hstep

/-- A file left at the path in a quiet state was left by a dead process. -/
theorem Reclaimable.left (h : Reclaimable s) (hquiet : Quiet s) {f : LockFile} (hf : f ∈ s.file) :
    s.life f.creator = .dead := by
  cases hl : s.life f.creator with
  | unborn => exact absurd hl (h.born f hf)
  | live =>
      have hin := h.inLock f hf hl
      rw [hquiet f.creator hl] at hin
      exact absurd hin (by decide)
  | dead => rfl

/-- While no process dies with less than its pid in the lock file, the lock can
always be taken again once everyone has left it. -/
theorem lock_reclaimable (s : LockState) (hs : Fresh s) (as : List LockAction)
    (hmeets : Meets step CrashesWritten s as) (t : LockState) (hrun : run step s as = some t)
    (hquiet : Quiet t) : Acquirable t := by
  have ht : Reclaimable t := run_invariant (fun _ _ _ h ha hstep => step_reclaimable h ha hstep)
    (reclaimable_fresh hs) hmeets hrun
  intro p hp markerId written
  apply (acquireAlone_holds hp (hquiet p hp)).mpr
  exact fun f hf => ht.names f hf (ht.left hquiet hf)

end

def unlocked : LockState where
  life p := if p = 1 ∨ p = 2 then .live else .unborn
  phase _ := .idle
  file := none

theorem unlocked_fresh : Fresh unlocked := ⟨rfl, fun _ _ => rfl⟩

theorem quiet_dead {p : Nat} {s : LockState} (h : s.life p = .dead) (hq : ∀ q, q ≠ p → s.phase q = .idle) :
    Quiet s := by
  intro q hl
  by_cases he : q = p
  · simp [he, h] at hl
  · exact hq q he

theorem lock_reclaimable_after_crash :
    ∃ t, run step unlocked [.acquire 1 (lit "4"), .openLock 1, .writeLock 1 4, .crash 1] = some t ∧ t.file ≠ none ∧
      Acquirable t := by
  refine ⟨_, rfl, by decide, lock_reclaimable unlocked unlocked_fresh
    [.acquire 1 (lit "4"), .openLock 1, .writeLock 1 4, .crash 1] (by decide) _ rfl ?_⟩
  exact quiet_dead (p := 1) rfl fun q hq => by simp [setPhase, unlocked, hq]

/-- A process that dies between creating and writing the lock file leaves an empty
one, which nobody takes away. -/
theorem not_lock_reclaimable :
    ¬ ∀ (s : LockState), Fresh s → ∀ (as : List LockAction) (t : LockState), run step s as = some t →
      Quiet t → Acquirable t := by
  intro h
  have hacq := h unlocked unlocked_fresh [.acquire 1 (lit "4"), .openLock 1, .crash 1] _ rfl
    (quiet_dead (p := 1) rfl fun q hq => by simp [setPhase, unlocked, hq])
  have hnames := (acquireAlone_holds (by decide) (by decide)).mp (hacq 2 (by decide) (lit "8") 4)
  exact absurd (hnames ⟨1, []⟩ rfl).1 (by decide)

end JJMCP.Lock
