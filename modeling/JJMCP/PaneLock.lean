import JJMCP.Config
import JJMCP.Lib.Runs

namespace JJMCP

/-- One jjmcp process. Its tool calls run one after another. -/
structure Server where
  cwd : Path
  state : ServerState
  /-- Between a successful acquire and the release in eval_code. -/
  evaluating : Bool := false
  deriving DecidableEq, Repr

/-- The servers of one machine and, for each lock file, the server that holds it. -/
structure PaneLockState (F : Type) where
  server : Nat → Option Server
  holder : F → Option Nat

inductive PaneLockAction
  | start (i : Nat) (cwd : Path) (stored : Option Binding)
  | stop (i : Nat)
  | bind (i : Nat) (target paneId projectRoot : Text)
  | acquire (i : Nat)
  | release (i : Nat)
  deriving DecidableEq, Repr

end JJMCP

namespace JJMCP.PaneLock

open Text Config Lib.Runs

variable {F : Type} [DecidableEq F] (file : Nat → Path → F)

/-- main before the serve loop: the config file of the working directory may hold a binding. -/
def startServer (cwd : Path) (stored : Option Binding) : Server :=
  { cwd := cwd, state := loadConfig { configPath := defaultConfigPath cwd } stored }

def bindServer (sv : Server) (target paneId projectRoot : Text) : Server :=
  { sv with state := setBinding sv.state { target, paneId, projectRoot } (configBaseFromProject sv.cwd projectRoot) }

def setServer (s : PaneLockState F) (i : Nat) (sv : Option Server) : PaneLockState F :=
  { s with server := Function.update s.server i sv }

def step (s : PaneLockState F) : PaneLockAction → Option (PaneLockState F)
  | .start i cwd stored =>
      match s.server i with
      | none => some (setServer s i (some (startServer cwd stored)))
      | some _ => none
  | .stop i =>
      match s.server i with
      | some sv =>
          some { setServer s i none with
            holder := if sv.evaluating then Function.update s.holder (file i (lockPath sv.state)) none else s.holder }
      | none => none
  | .bind i target paneId projectRoot =>
      match s.server i with
      | some sv =>
          if sv.evaluating then none else some (setServer s i (some (bindServer sv target paneId projectRoot)))
      | none => none
  | .acquire i =>
      match s.server i with
      | some sv =>
          let lock := file i (lockPath sv.state)
          if sv.evaluating = false ∧ sv.state.binding.isSome ∧ s.holder lock = none then
            some { setServer s i (some { sv with evaluating := true }) with
              holder := Function.update s.holder lock (some i) }
          else none
      | none => none
  | .release i =>
      match s.server i with
      | some sv =>
          if sv.evaluating then
            some { setServer s i (some { sv with evaluating := false }) with
              holder := Function.update s.holder (file i (lockPath sv.state)) none }
          else none
      | none => none

def init : PaneLockState F := ⟨fun _ => none, fun _ => none⟩

def pane (sv : Server) : Option Text := sv.state.binding.map boundTarget

def Agrees (s : PaneLockState F) (i : Nat) (sv : Server) : Prop :=
  ∀ j other, j ≠ i → s.server j = some other → (pane sv).isSome → pane other = pane sv →
    file j (lockPath other.state) = file i (lockPath sv.state)

/-- A start or a bind gives the server no pane for which others use another lock file. -/
def KeepsLockShared (s : PaneLockState F) : PaneLockAction → Prop
  | .start i cwd stored => Agrees file s i (startServer cwd stored)
  | .bind i target paneId projectRoot =>
      ∀ sv, s.server i = some sv → Agrees file s i (bindServer sv target paneId projectRoot)
  | _ => True

def Evaluating (s : PaneLockState F) (i : Nat) (p : Text) : Prop :=
  ∃ sv, s.server i = some sv ∧ sv.evaluating = true ∧ pane sv = some p

instance (s : PaneLockState F) (i : Nat) (p : Text) : Decidable (Evaluating s i p) :=
  decidable_of_iff ((s.server i).any (fun sv => sv.evaluating ∧ pane sv = some p) = true) (by
    simp only [Option.any_eq_true, decide_eq_true_eq, Evaluating])

structure Exclusive (s : PaneLockState F) : Prop where
  shared : ∀ i sv, s.server i = some sv → Agrees file s i sv
  held : ∀ i sv, s.server i = some sv → sv.evaluating = true → s.holder (file i (lockPath sv.state)) = some i

variable {file}

omit [DecidableEq F] in
theorem exclusive_init : Exclusive file (init : PaneLockState F) :=
  ⟨fun _ _ h => by simp [init] at h, fun _ _ h => by simp [init] at h⟩

omit [DecidableEq F] in
theorem shared_set {s : PaneLockState F} {i : Nat} {sv : Server} {holder : F → Option Nat}
    (h : ∀ i sv, s.server i = some sv → Agrees file s i sv) (hi : Agrees file s i sv) :
    ∀ j other, (setServer s i (some sv)).server j = some other →
      Agrees file { setServer s i (some sv) with holder } j other := by
  intro j other hj k third hkj hk hpane heq
  simp only [setServer, Function.update_apply] at hj hk
  split at hj
  next hji =>
    obtain rfl := Option.some.inj hj
    rw [if_neg (hji ▸ hkj)] at hk
    subst hji
    exact hi k third hkj hk hpane heq
  next hji =>
    split at hk
    next hki =>
      obtain rfl := Option.some.inj hk
      subst hki
      exact (hi j other hji hj (heq ▸ hpane) heq.symm).symm
    next => exact h j other hj k third hkj hk hpane heq

omit [DecidableEq F] in
theorem held_set {s : PaneLockState F} {i : Nat} {sv : Server} (h : Exclusive file s)
    (hi : sv.evaluating = false) :
    ∀ j other, (setServer s i (some sv)).server j = some other → other.evaluating = true →
      s.holder (file j (lockPath other.state)) = some j := by
  intro j other hj heval
  simp only [setServer, Function.update_apply] at hj
  split at hj
  · obtain rfl := Option.some.inj hj
    exact absurd (hi.symm.trans heval) (by decide)
  · exact h.held j other hj heval

omit [DecidableEq F] in
theorem Exclusive.other_lock {s : PaneLockState F} (h : Exclusive file s) {i j : Nat} {sv other : Server}
    (hi : s.server i = some sv) (hj : s.server j = some other) (hij : j ≠ i) (heval : sv.evaluating = true)
    (heval' : other.evaluating = true) : file j (lockPath other.state) ≠ file i (lockPath sv.state) := by
  intro he
  have hi' := h.held i sv hi heval
  rw [← he, h.held j other hj heval'] at hi'
  exact hij (Option.some.inj hi')

theorem Exclusive.stop {s : PaneLockState F} (h : Exclusive file s) {i : Nat} {sv : Server}
    (hi : s.server i = some sv) :
    Exclusive file { setServer s i none with
      holder := if sv.evaluating then Function.update s.holder (file i (lockPath sv.state)) none else s.holder } := by
  have hother : ∀ j other, (setServer s i none).server j = some other → j ≠ i ∧ s.server j = some other := by
    intro j other hj
    simp only [setServer, Function.update_apply] at hj
    split at hj
    next => cases hj
    next hji => exact ⟨hji, hj⟩
  constructor
  · intro j other hj k third hkj hk hpane heq
    exact h.shared j other (hother j other hj).2 k third hkj (hother k third hk).2 hpane heq
  · intro j other hj heval
    obtain ⟨hji, hj⟩ := hother j other hj
    dsimp only
    split
    next hev => rw [Function.update_of_ne (h.other_lock hi hj hji hev heval), h.held j other hj heval]
    next => exact h.held j other hj heval

theorem Exclusive.acquire {s : PaneLockState F} (h : Exclusive file s) {i : Nat} {sv : Server}
    (hi : s.server i = some sv) (hfree : s.holder (file i (lockPath sv.state)) = none) :
    Exclusive file { setServer s i (some { sv with evaluating := true }) with
      holder := Function.update s.holder (file i (lockPath sv.state)) (some i) } := by
  refine ⟨shared_set h.shared (h.shared i sv hi), fun j other hj heval => ?_⟩
  simp only [setServer, Function.update_apply] at hj
  split at hj
  next hji =>
    obtain rfl := Option.some.inj hj
    simp [hji]
  next hji =>
    have hheld := h.held j other hj heval
    have hne : file j (lockPath other.state) ≠ file i (lockPath sv.state) := by
      intro he
      rw [he, hfree] at hheld
      cases hheld
    simpa [Function.update_of_ne hne] using hheld

theorem Exclusive.release {s : PaneLockState F} (h : Exclusive file s) {i : Nat} {sv : Server}
    (hi : s.server i = some sv) (hev : sv.evaluating = true) :
    Exclusive file { setServer s i (some { sv with evaluating := false }) with
      holder := Function.update s.holder (file i (lockPath sv.state)) none } := by
  refine ⟨shared_set h.shared (h.shared i sv hi), fun j other hj heval => ?_⟩
  simp only [setServer, Function.update_apply] at hj
  split at hj
  next =>
    obtain rfl := Option.some.inj hj
    exact absurd heval (by simp)
  next hji =>
    simpa [Function.update_of_ne (h.other_lock hi hj hji hev heval)] using h.held j other hj heval

theorem step_exclusive {s s' : PaneLockState F} {a : PaneLockAction} (h : Exclusive file s)
    (ha : KeepsLockShared file s a) (hstep : step file s a = some s') : Exclusive file s' := by
  cases a with
  | start i cwd stored =>
      simp only [step] at hstep
      split at hstep
      next hnone =>
        obtain rfl := Option.some.inj hstep
        exact ⟨shared_set h.shared ha, held_set h rfl⟩
      next => cases hstep
  | stop i =>
      simp only [step] at hstep
      split at hstep
      next sv hi => exact Option.some.inj hstep ▸ h.stop hi
      next => cases hstep
  | bind i target paneId projectRoot =>
      simp only [step] at hstep
      split at hstep
      next sv hi =>
        split at hstep
        next => cases hstep
        next hev =>
          obtain rfl := Option.some.inj hstep
          exact ⟨shared_set h.shared (ha sv hi), held_set h (by simpa [bindServer] using hev)⟩
      next => cases hstep
  | acquire i =>
      simp only [step] at hstep
      split at hstep
      next sv hi =>
        split at hstep
        next hc => exact Option.some.inj hstep ▸ h.acquire hi hc.2.2
        next => cases hstep
      next => cases hstep
  | release i =>
      simp only [step] at hstep
      split at hstep
      next sv hi =>
        split at hstep
        next hev => exact Option.some.inj hstep ▸ h.release hi hev
        next => cases hstep
      next => cases hstep

/-- While servers of one pane are only ever given one lock file, one of them at
a time evaluates in it. -/
theorem pane_exclusive (as : List PaneLockAction) (s : PaneLockState F)
    (hmeets : Meets (step file) (KeepsLockShared file) init as) (hrun : run (step file) init as = some s)
    (i j : Nat) (p : Text) (hi : Evaluating s i p) (hj : Evaluating s j p) : i = j := by
  have h : Exclusive file s := run_invariant (fun _ _ _ h ha hstep => step_exclusive h ha hstep)
    exclusive_init hmeets hrun
  obtain ⟨sv, hsv, hev, hp⟩ := hi
  obtain ⟨other, hother, hev', hp'⟩ := hj
  by_contra hij
  exact h.other_lock hsv hother (Ne.symm hij) hev hev'
    (h.shared i sv hsv j other (Ne.symm hij) hother (by simp [hp]) (hp'.trans hp.symm))

/-- Two servers of one pane with different lock files can both take theirs. -/
theorem split_lock_admits_two {s : PaneLockState F} {i j : Nat} {sv other : Server} {p : Text}
    (hi : s.server i = some sv) (hj : s.server j = some other) (hidle : sv.evaluating = false)
    (hidle' : other.evaluating = false) (hp : pane sv = some p) (hp' : pane other = some p)
    (hne : file j (lockPath other.state) ≠ file i (lockPath sv.state))
    (hfree : s.holder (file i (lockPath sv.state)) = none)
    (hfree' : s.holder (file j (lockPath other.state)) = none) (hij : j ≠ i) :
    ∃ t, run (step file) s [.acquire i, .acquire j] = some t ∧ Evaluating t i p ∧ Evaluating t j p := by
  have hb : sv.state.binding.isSome = true := by
    rw [pane, Option.map_eq_some_iff] at hp
    obtain ⟨b, hb, _⟩ := hp
    rw [hb, Option.isSome_some]
  have hb' : other.state.binding.isSome = true := by
    rw [pane, Option.map_eq_some_iff] at hp'
    obtain ⟨b, hb, _⟩ := hp'
    rw [hb, Option.isSome_some]
  refine ⟨⟨Function.update (Function.update s.server i (some { sv with evaluating := true })) j
      (some { other with evaluating := true }),
    Function.update (Function.update s.holder (file i (lockPath sv.state)) (some i))
      (file j (lockPath other.state)) (some j)⟩, ?_, ?_, ?_⟩
  · simp [run, step, setServer, hi, hj, hidle, hidle', hb, hb', hfree, hfree', Function.update_of_ne hij,
      Function.update_of_ne hne]
  · exact ⟨{ sv with evaluating := true }, by simp [Function.update_of_ne (Ne.symm hij)], rfl, hp⟩
  · exact ⟨{ other with evaluating := true }, by simp, rfl, hp'⟩

theorem pane_exclusive_one_project :
    let as : List PaneLockAction := [.start 1 (ofText (lit "/w/a")) none, .bind 1 (lit "main") (lit "%5") (lit "/w/p"),
      .start 2 (ofText (lit "/w/b")) none, .bind 2 (lit "main") (lit "%5") (lit "../p"), .acquire 1]
    ∃ s, run (step fun _ p => p) init as = some s ∧ Evaluating s 1 (lit "%5") ∧
      ∀ j, Evaluating s j (lit "%5") → 1 = j := by
  intro as
  have hmeets : Meets (step fun _ p => p) (KeepsLockShared fun _ p => p) init as := by
    refine ⟨?_, ?_, ?_, ?_, ?_⟩
    · simp [KeepsLockShared, Agrees, init]
    · intro sv _ j other hj hother
      simp [setServer, init, hj] at hother
    · exact fun j other _ _ hp => absurd hp (by decide)
    · intro sv hsv j other hj hother _ _
      obtain rfl : startServer (ofText (lit "/w/b")) none = sv := by simpa [setServer] using hsv
      by_cases hj1 : j = 1
      · subst hj1
        obtain rfl : bindServer (startServer (ofText (lit "/w/a")) none) (lit "main") (lit "%5") (lit "/w/p") =
            other := by simpa [setServer, init] using hother
        decide
      · simp [setServer, init, hj, hj1] at hother
    · exact ⟨trivial, trivial⟩
  have hany : (run (step fun _ p => p) init as).any (fun s => Evaluating s 1 (lit "%5")) = true := by decide
  obtain ⟨s, hs, h1⟩ := (Option.any_eq_true _ _).mp hany
  have h1 : Evaluating s 1 (lit "%5") := of_decide_eq_true h1
  exact ⟨s, hs, h1, fun j hj => pane_exclusive as s hmeets hs 1 j (lit "%5") h1 hj⟩

/-- Two servers with working directories of their own, bound to one pane. -/
theorem not_pane_exclusive :
    ¬ ∀ (as : List PaneLockAction) (s : PaneLockState Path), run (step fun _ p => p) init as = some s →
      ∀ i j p, Evaluating s i p → Evaluating s j p → i = j := by
  intro h
  let as : List PaneLockAction := [.start 1 (ofText (lit "/w/a")) none, .start 2 (ofText (lit "/w/b")) none,
    .bind 1 (lit "main") (lit "%5") [], .bind 2 (lit "main") (lit "%5") [], .acquire 1, .acquire 2]
  have hany : (run (step fun _ p => p) init as).any
      (fun s => Evaluating s 1 (lit "%5") ∧ Evaluating s 2 (lit "%5")) = true := by decide
  obtain ⟨s, hs, hboth⟩ := (Option.any_eq_true _ _).mp hany
  have hboth : Evaluating s 1 (lit "%5") ∧ Evaluating s 2 (lit "%5") := of_decide_eq_true hboth
  exact absurd (h as s hs 1 2 (lit "%5") hboth.1 hboth.2) (by decide)

end JJMCP.PaneLock
