import JJMCP.Text
import JJMCP.Lib.Runs

namespace JJMCP

inductive Life
  | unborn | live | dead
  deriving DecidableEq, Repr

/-- Where a process is in acquire and release: before the system call that
names the phase, or holding the lock. -/
inductive LockPhase
  | idle
  | opening (attempt : Nat) (markerId : Text)
  | reading (attempt : Nat) (markerId : Text)
  | probing (attempt : Nat) (markerId : Text) (pid : Nat)
  | unlinking (attempt : Nat) (markerId : Text)
  | writing (markerId : Text)
  | held
  | dropping
  deriving DecidableEq, Repr

structure LockFile where
  creator : Nat
  content : Text
  deriving DecidableEq, Repr

/-- The processes that use one lock path, by their pids. No pid comes back. -/
structure LockState where
  life : Nat → Life
  phase : Nat → LockPhase
  file : Option LockFile

/-- What a process does, or what happens to it. A crash is the moment its pid is gone: a
process that has ended and is not reaped still answers kill, and is live until then. -/
inductive LockAction
  | spawn (p : Nat)
  | crash (p : Nat)
  | acquire (p : Nat) (markerId : Text)
  | openLock (p : Nat)
  | openError (p : Nat)
  | writeLock (p : Nat) (written : Nat)
  | readLock (p : Nat)
  | probe (p : Nat)
  | unlinkStale (p : Nat)
  | closeLock (p : Nat)
  | unlinkLock (p : Nat)
  deriving DecidableEq, Repr

end JJMCP

namespace JJMCP.Lock

open Text Lib.Runs

def lockText (pid : Nat) (markerId : Text) : Text := decimal pid ++ lit " " ++ markerId ++ [nl]

/-- The number that a stream reads from the start of the file, zero if none. -/
def readPid (content : Text) : Nat := digitsValue (content.takeWhile isDigit)

def storedPid (s : LockState) : Nat :=
  match s.file with
  | none => 0
  | some f => readPid f.content

def setPhase (s : LockState) (p : Nat) (phase : LockPhase) : LockState :=
  { s with phase := Function.update s.phase p phase }

def step (s : LockState) : LockAction → Option LockState
  | .spawn p =>
      if s.life p = .unborn then some (setPhase { s with life := Function.update s.life p .live } p .idle)
      else none
  | .crash p => if s.life p = .live then some { s with life := Function.update s.life p .dead } else none
  | .acquire p markerId =>
      match s.life p, s.phase p with
      | .live, .idle => some (setPhase s p (.opening 0 markerId))
      | _, _ => none
  | .openLock p =>
      match s.life p, s.phase p with
      | .live, .opening attempt markerId =>
          match s.file with
          | none => some { setPhase s p (.writing markerId) with file := some ⟨p, []⟩ }
          | some _ => some (setPhase s p (.reading attempt markerId))
      | _, _ => none
  | .openError p =>
      match s.life p, s.phase p with
      | .live, .opening _ _ => some (setPhase s p .idle)
      | _, _ => none
  | .writeLock p written =>
      match s.life p, s.phase p with
      | .live, .writing markerId =>
          -- a process whose file was unlinked writes to no path
          some { setPhase s p .held with
            file := s.file.map fun f =>
              if f.creator = p then { f with content := (lockText p markerId).take written } else f }
      | _, _ => none
  | .readLock p =>
      match s.life p, s.phase p with
      | .live, .reading attempt markerId =>
          some (setPhase s p (if 0 < storedPid s then .probing attempt markerId (storedPid s) else .idle))
      | _, _ => none
  | .probe p =>
      match s.life p, s.phase p with
      | .live, .probing attempt markerId pid =>
          some (setPhase s p (if s.life pid = .live then .idle else .unlinking attempt markerId))
      | _, _ => none
  | .unlinkStale p =>
      match s.life p, s.phase p with
      | .live, .unlinking attempt markerId =>
          some { setPhase s p (if attempt + 1 < 2 then .opening (attempt + 1) markerId else .idle) with
            file := none }
      | _, _ => none
  | .closeLock p =>
      match s.life p, s.phase p with
      | .live, .held => some (setPhase s p .dropping)
      | _, _ => none
  | .unlinkLock p =>
      match s.life p, s.phase p with
      | .live, .dropping => some { setPhase s p .idle with file := none }
      | _, _ => none

/-- From the return of a successful acquire to the end of release. -/
def Holding (s : LockState) (p : Nat) : Prop :=
  s.life p = .live ∧ (s.phase p = .held ∨ s.phase p = .dropping)

instance (s : LockState) (p : Nat) : Decidable (Holding s p) :=
  inferInstanceAs (Decidable (_ ∧ (_ ∨ _)))

/-- No process is inside acquire or release. The lock file is absent, or was
left by a dead process, or is that of a live process that holds the lock. -/
structure Initial (s : LockState) : Prop where
  phases : ∀ p, s.life p = .live → s.phase p = .idle ∨
    (s.phase p = .held ∧ ∃ f, s.file = some f ∧ f.creator = p)
  file : ∀ f, s.file = some f → (s.life f.creator = .dead ∨ Holding s f.creator) ∧
    ∃ markerId written, f.content = (lockText f.creator markerId).take written

/-- A reclaiming unlink finds no lock file of a live process. -/
def SparesLive (s : LockState) : LockAction → Prop
  | .unlinkStale _ => ∀ f, s.file = some f → s.life f.creator ≠ .live
  | _ => True

instance (s : LockState) : (a : LockAction) → Decidable (SparesLive s a)
  | .unlinkStale _ =>
      match h : s.file with
      | none => isTrue fun f hf => absurd (h.symm.trans hf) (by simp)
      | some f => decidable_of_iff (s.life f.creator ≠ .live)
          ⟨fun hl g hg => Option.some.inj (h.symm.trans hg) ▸ hl, fun hl => hl f h⟩
  | .spawn _ | .crash _ | .acquire _ _ | .openLock _ | .openError _ | .writeLock _ _ | .readLock _
  | .probe _ | .closeLock _ | .unlinkLock _ => isTrue trivial

def inLock : LockPhase → Bool
  | .writing _ | .held | .dropping => true
  | _ => false

def InLock (s : LockState) (p : Nat) : Prop := s.life p = .live ∧ inLock (s.phase p) = true

def owner (s : LockState) : Option Nat := s.file.map LockFile.creator

@[simp] theorem setPhase_life (s : LockState) (p : Nat) (phase : LockPhase) :
    (setPhase s p phase).life = s.life := rfl

@[simp] theorem setPhase_phase (s : LockState) (p : Nat) (phase : LockPhase) :
    (setPhase s p phase).phase = Function.update s.phase p phase := rfl

theorem Holding.inLock {s : LockState} {p : Nat} (h : Holding s p) : InLock s p := by
  refine ⟨h.1, ?_⟩
  rcases h.2 with h | h
  · rw [h]
    rfl
  · rw [h]
    rfl

theorem not_new {s s' : LockState} {p : Nat} {phase : LockPhase} (hlife : s'.life = s.life)
    (hphase : s'.phase = (setPhase s p phase).phase)
    (hin : Lock.inLock phase = true → Lock.inLock (s.phase p) = true) (q : Nat) (h : InLock s' q) :
    InLock s q := by
  obtain ⟨hl, hq⟩ := h
  rw [hlife] at hl
  rw [hphase, setPhase_phase, Function.update_apply] at hq
  split at hq
  next he => exact ⟨hl, he ▸ hin hq⟩
  next => exact ⟨hl, hq⟩

/-- What a step can do to the lock file and to the processes that own one. -/
inductive Effect (s s' : LockState) : LockAction → Prop
  | keeps {a} : owner s' = owner s → (∀ q, InLock s' q → InLock s q) → Effect s s' a
  | creates {p} : owner s = none → owner s' = some p → (∀ q, InLock s' q → q = p ∨ InLock s q) →
      Effect s s' (.openLock p)
  | reclaims {p} : owner s' = none → (∀ q, InLock s' q → InLock s q) → Effect s s' (.unlinkStale p)
  | releases {p} : InLock s p → owner s' = none → (∀ q, InLock s' q → q ≠ p ∧ InLock s q) →
      Effect s s' (.unlinkLock p)

theorem owner_map {file : Option LockFile} {g : LockFile → LockFile} (hg : ∀ f, (g f).creator = f.creator) :
    (file.map g).map LockFile.creator = file.map LockFile.creator := by
  cases file with
  | none => rfl
  | some f => simp [hg]

theorem step_effect {s s' : LockState} {a : LockAction} (h : step s a = some s') : Effect s s' a := by
  cases a with
  | spawn p =>
      simp only [step, Option.ite_none_right_eq_some, Option.some.injEq] at h
      obtain ⟨_, rfl⟩ := h
      refine .keeps rfl fun q ⟨hl, hi⟩ => ?_
      by_cases he : q = p
      · simp [he, Lock.inLock] at hi
      · exact ⟨by simpa [Function.update_of_ne he] using hl, by simpa [Function.update_of_ne he] using hi⟩
  | crash p =>
      simp only [step, Option.ite_none_right_eq_some, Option.some.injEq] at h
      obtain ⟨_, rfl⟩ := h
      refine .keeps rfl fun q ⟨hl, hi⟩ => ⟨?_, hi⟩
      by_cases he : q = p
      · simp [he] at hl
      · simpa [Function.update_of_ne he] using hl
  | acquire p markerId =>
      simp only [step] at h
      split at h
      next hl hp =>
        obtain rfl := Option.some.inj h
        exact .keeps rfl (not_new rfl rfl (by simp [Lock.inLock]))
      next => cases h
  | openLock p =>
      simp only [step] at h
      split at h
      next attempt markerId hl hp =>
        split at h
        next hf =>
          obtain rfl := Option.some.inj h
          refine .creates (by simp [owner, hf]) rfl fun q ⟨hlq, hq⟩ => ?_
          by_cases he : q = p
          · exact .inl he
          · refine .inr ⟨hlq, ?_⟩
            simpa [Function.update_of_ne he] using hq
        next =>
          obtain rfl := Option.some.inj h
          exact .keeps rfl (not_new rfl rfl (by simp [Lock.inLock]))
      next => cases h
  | openError p =>
      simp only [step] at h
      split at h
      next =>
        obtain rfl := Option.some.inj h
        exact .keeps rfl (not_new rfl rfl (by simp [Lock.inLock]))
      next => cases h
  | writeLock p written =>
      simp only [step] at h
      split at h
      next markerId hl hp =>
        obtain rfl := Option.some.inj h
        refine .keeps (owner_map fun f => ?_) (not_new rfl rfl (by simp [Lock.inLock, hp]))
        split <;> rfl
      next => cases h
  | readLock p =>
      simp only [step] at h
      split at h
      next =>
        obtain rfl := Option.some.inj h
        refine .keeps rfl (not_new rfl rfl ?_)
        split <;> simp [Lock.inLock]
      next => cases h
  | probe p =>
      simp only [step] at h
      split at h
      next =>
        obtain rfl := Option.some.inj h
        refine .keeps rfl (not_new rfl rfl ?_)
        split <;> simp [Lock.inLock]
      next => cases h
  | unlinkStale p =>
      simp only [step] at h
      split at h
      next =>
        obtain rfl := Option.some.inj h
        refine .reclaims rfl (not_new rfl rfl ?_)
        split <;> simp [Lock.inLock]
      next => cases h
  | closeLock p =>
      simp only [step] at h
      split at h
      next hl hp =>
        obtain rfl := Option.some.inj h
        exact .keeps rfl (not_new rfl rfl (by simp [Lock.inLock, hp]))
      next => cases h
  | unlinkLock p =>
      simp only [step] at h
      split at h
      next hl hp =>
        obtain rfl := Option.some.inj h
        refine .releases ⟨hl, by rw [hp]; rfl⟩ rfl fun q hq => ?_
        obtain ⟨hlq, hi⟩ := hq
        by_cases he : q = p
        · simp [he, Lock.inLock] at hi
        · exact ⟨he, hlq, by simpa [Function.update_of_ne he] using hi⟩
      next => cases h

/-- Whoever is between creating and removing the lock file is its creator. -/
def Owned (s : LockState) : Prop := ∀ p, InLock s p → owner s = some p

theorem owned_initial {s : LockState} (h : Initial s) : Owned s := by
  intro p hp
  rcases h.phases p hp.1 with hi | ⟨_, f, hf, hc⟩
  · rw [InLock, hi] at hp
    exact absurd hp.2 (by decide)
  · simp [owner, hf, hc]

theorem step_owned {s s' : LockState} {a : LockAction} (h : Owned s) (ha : SparesLive s a)
    (hstep : step s a = some s') : Owned s' := by
  intro q hq
  cases step_effect hstep with
  | keeps hown hin => exact hown.trans (h q (hin q hq))
  | creates hnone hown hin =>
      rcases hin q hq with rfl | hi
      · exact hown
      · exact absurd (hnone.symm.trans (h q hi)) (by simp)
  | reclaims hown hin =>
      obtain ⟨f, hf, hc⟩ := Option.map_eq_some_iff.mp (h q (hin q hq))
      exact absurd (hc ▸ (hin q hq).1) (ha f hf)
  | releases hp hown hin =>
      obtain ⟨hne, hi⟩ := hin q hq
      exact absurd (Option.some.inj ((h q hi).symm.trans (h _ hp))) hne

/-- While no reclaiming unlink hits the lock file of a live process, at most
one live process holds the lock. -/
theorem lock_excludes (s : LockState) (hs : Initial s) (as : List LockAction)
    (hmeets : Meets step SparesLive s as) (t : LockState) (hrun : run step s as = some t) (p q : Nat)
    (hp : Holding t p) (hq : Holding t q) : p = q := by
  have hown : Owned t := run_invariant (fun _ _ _ h ha hstep => step_owned h ha hstep)
    (owned_initial hs) hmeets hrun
  exact Option.some.inj ((hown p hp.inLock).symm.trans (hown q hq.inLock))

/-- Once a reclaiming unlink has taken the lock file of a live holder, its next
attempt makes a second one. -/
theorem reclaim_admits_second {s : LockState} {p q : Nat} {markerId : Text} (hq : Holding s q)
    (hp : s.life p = .live) (hphase : s.phase p = .unlinking 0 markerId) (written : Nat) :
    ∃ t, run step s [.unlinkStale p, .openLock p, .writeLock p written] = some t ∧ Holding t p ∧ Holding t q := by
  have hne : q ≠ p := by
    rintro rfl
    rcases hq.2 with h | h
    · exact absurd (h.symm.trans hphase) (by simp)
    · exact absurd (h.symm.trans hphase) (by simp)
  refine ⟨⟨s.life, Function.update s.phase p .held, some ⟨p, (lockText p markerId).take written⟩⟩,
    by simp [run, step, hp, hphase], ⟨hp, .inl (by simp)⟩, hq.1, ?_⟩
  simpa [Function.update_of_ne hne] using hq.2

def leftBehind : LockState where
  life p := if p = 9 then .dead else if p = 1 ∨ p = 2 then .live else .unborn
  phase _ := .idle
  file := some ⟨9, lit "9 1\n"⟩

theorem leftBehind_initial : Initial leftBehind := by
  refine ⟨fun p _ => .inl rfl, fun f hf => ?_⟩
  obtain rfl := Option.some.inj hf
  exact ⟨.inl rfl, lit "1", 4, by decide⟩

theorem lock_excludes_after_reclaim :
    ∃ t, run step leftBehind [.acquire 1 (lit "4"), .openLock 1, .readLock 1, .probe 1, .unlinkStale 1,
        .openLock 1, .writeLock 1 5, .acquire 2 (lit "1"), .openLock 2, .readLock 2, .probe 2] = some t ∧
      Holding t 1 ∧ ∀ q, Holding t q → 1 = q := by
  let as : List LockAction := [.acquire 1 (lit "4"), .openLock 1, .readLock 1, .probe 1, .unlinkStale 1,
    .openLock 1, .writeLock 1 5, .acquire 2 (lit "1"), .openLock 2, .readLock 2, .probe 2]
  have hany : (run step leftBehind as).any (fun t => Holding t 1) = true := by decide
  obtain ⟨t, ht, h1⟩ := (Option.any_eq_true _ _).mp hany
  have h1 : Holding t 1 := of_decide_eq_true h1
  exact ⟨t, ht, h1, fun q hq => lock_excludes leftBehind leftBehind_initial as (by decide) t ht 1 q h1 hq⟩

/-- Two processes that both found the file stale: the second unlink removes the
lock that the first has just taken. -/
theorem not_lock_excludes :
    ¬ ∀ (s : LockState), Initial s → ∀ (as : List LockAction) (t : LockState), run step s as = some t →
      ∀ p q, Holding t p → Holding t q → p = q := by
  intro h
  let as : List LockAction := [.acquire 1 (lit "4"), .openLock 1, .readLock 1, .probe 1,
    .acquire 2 (lit "8"), .openLock 2, .readLock 2, .probe 2,
    .unlinkStale 1, .openLock 1, .writeLock 1 5, .unlinkStale 2, .openLock 2, .writeLock 2 5]
  have hany : (run step leftBehind as).any (fun t => Holding t 1 ∧ Holding t 2) = true := by decide
  obtain ⟨t, ht, hboth⟩ := (Option.any_eq_true _ _).mp hany
  have hboth : Holding t 1 ∧ Holding t 2 := of_decide_eq_true hboth
  exact absurd (h leftBehind leftBehind_initial as t ht 1 2 hboth.1 hboth.2) (by decide)

end JJMCP.Lock
