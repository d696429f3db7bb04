import JJMCP.EvalCode
import JJMCP.Lib.Runs

namespace JJMCP

/-- A pane: its own process, whether that is a shell, and what runs in the foreground. -/
structure InstallPane where
  own : Nat
  shell : Bool
  foreground : Nat
  deriving DecidableEq, Repr

/-- Where ensure_jjmcp_runtime stands: the pane, its own process and the one its probe
named. -/
inductive InstallStage
  | idle
  | probed (pane : Text) (own group : Nat)
  | pasted (pane : Text) (own group : Nat)
  | ran (pane : Text) (own group : Nat)
  deriving DecidableEq, Repr

structure InstallState where
  cache : RuntimeCache := fun _ => none
  panes : Text → Option InstallPane := fun _ => none
  /-- Every process so far, those that are the shell of a pane, and those with
  Main.JJMCPRuntime. -/
  started : List Nat := []
  shells : List Nat := []
  installed : List Nat := []
  stage : InstallStage := .idle
  /-- The cached shortcuts taken, with the process that the probe named. -/
  cached : List (Text × Nat) := []

inductive InstallAction
  | bind (pane : Text)
  | reject (pane : Text)
  | probe (pane : Text)
  | shortcut
  | paste
  | install
  | fail
  | mark
  | create (pane : Text) (own : Nat) (shell : Bool)
  | start (pane : Text) (group : Nat)
  | exit (pane : Text)
  deriving DecidableEq, Repr

/-- The pane's own shell has the foreground; in a pane started with julia there is none. -/
def InstallPane.AtShell (p : InstallPane) : Prop := p.shell = true ∧ p.foreground = p.own

instance (p : InstallPane) : Decidable p.AtShell := inferInstanceAs (Decidable (_ ∧ _))

end JJMCP

namespace JJMCP.RuntimeInstall

open Text Config EvalCode Lib.Runs RuntimeCache

def generation (panePid group : Nat) : Text := decimal panePid ++ lit ":" ++ decimal group

theorem generation_ne_nil (panePid group : Nat) : generation panePid group ≠ [] := by
  simp [generation, lit]

theorem colon_notMem_decimal (n : Nat) : 58 ∉ decimal n := by
  intro h
  exact absurd (decimal_digit h).2 (by decide)

theorem generation_inj {own own' g h : Nat} (he : generation own g = generation own' h) : g = h := by
  have hsplit (own g : Nat) : generation own g = decimal own ++ 58 :: decimal g := by
    rw [generation, List.append_assoc]
    rfl
  rw [hsplit, hsplit, List.append_cons_inj_of_notMem (colon_notMem_decimal own) (colon_notMem_decimal g)] at he
  rw [← digitsValue_decimal g, he.2.2, digitsValue_decimal]

def init : InstallState := {}

def step (s : InstallState) : InstallAction → Option InstallState
  | .bind k | .reject k =>
      if s.stage = .idle then some { s with cache := invalidate s.cache k } else none
  | .probe k =>
      if s.stage = .idle then
        (s.panes k).map fun p => { s with stage := .probed k p.own p.foreground }
      else none
  | .shortcut =>
      match s.stage with
      | .probed k own g =>
          if isCurrent s.cache k (generation own g) then
            some { s with stage := .idle, cached := s.cached ++ [(k, g)] }
          else none
      | _ => none
  | .paste =>
      match s.stage with
      | .probed k own g =>
          if isCurrent s.cache k (generation own g) then none else some { s with stage := .pasted k own g }
      | _ => none
  | .install =>
      -- whichever REPL then has the pane runs the bootstrap; a shell cannot
      match s.stage with
      | .pasted k own g =>
          (s.panes k).bind fun p =>
            if p.AtShell then none
            else some { s with stage := .ran k own g, installed := p.foreground :: s.installed }
      | _ => none
  | .fail =>
      match s.stage with
      | .pasted _ _ _ | .ran _ _ _ => some { s with stage := .idle }
      | _ => none
  | .mark =>
      match s.stage with
      | .ran k own g => some { s with stage := .idle, cache := mark s.cache k (generation own g) }
      | _ => none
  | .create k own shell =>
      -- a new pane, or one that is started anew under its name; no process comes twice
      if own ∈ s.started then none
      else some { s with
        panes := Function.update s.panes k (some ⟨own, shell, own⟩)
        started := own :: s.started
        shells := if shell then own :: s.shells else s.shells }
  | .start k g =>
      (s.panes k).bind fun p =>
        if p.AtShell ∧ g ∉ s.started then
          some { s with
            panes := Function.update s.panes k (some { p with foreground := g })
            started := g :: s.started }
        else none
  | .exit k =>
      -- the shell comes back, or the pane is gone with its own process
      (s.panes k).map fun p =>
        { s with panes := Function.update s.panes k (if p.foreground = p.own then none else some { p with foreground := p.own }) }

/-- The process has the foreground of the pane. -/
def Has (s : InstallState) (k : Text) (g : Nat) : Prop := ∃ p, s.panes k = some p ∧ p.foreground = g

def Gone (s : InstallState) (k : Text) (g : Nat) : Prop := g ∈ s.started ∧ ¬Has s k g

/-- The runtime is in the process, or nothing will find the process again. -/
def Settled (s : InstallState) (k : Text) (g : Nat) : Prop := g ∈ s.shells ∨ g ∈ s.installed ∨ Gone s k g

def StageInv (s : InstallState) : InstallStage → Prop
  | .idle => True
  | .probed k own g =>
      (g ∈ s.shells ∨ Has s k g ∨ Gone s k g) ∧
        (s.cache k = some (generation own g) → g ∈ s.shells ∨ g ∈ s.installed)
  | .pasted k _ g => g ∈ s.shells ∨ Has s k g ∨ Gone s k g
  | .ran k _ g => Settled s k g

structure Inv (s : InstallState) : Prop where
  foreground : ∀ k p, s.panes k = some p → p.foreground ∈ s.started
  shells : s.shells ⊆ s.started
  home : ∀ k p, s.panes k = some p → p.own ∈ s.shells ∨ p.shell = false ∧ p.foreground = p.own
  cache : ∀ k t, s.cache k = some t → ∃ own g, t = generation own g ∧ Settled s k g
  stage : StageInv s s.stage
  cached : ∀ k g, (k, g) ∈ s.cached → g ∈ s.shells ∨ g ∈ s.installed

theorem inv_init : Inv init :=
  ⟨by simp [init], by simp [init], by simp [init], by simp [init], trivial, by simp [init]⟩

/-- The panes change; no process but a shell comes back. -/
theorem Inv.change {s : InstallState} (h : Inv s) {panes : Text → Option InstallPane} {started shells : List Nat}
    (hstarted : s.started ⊆ started) (hshells : s.shells ⊆ shells) (hin : shells ⊆ started)
    (hfg : ∀ k p, panes k = some p → p.foreground ∈ started)
    (hhome : ∀ k p, panes k = some p → p.own ∈ shells ∨ p.shell = false ∧ p.foreground = p.own)
    (hback : ∀ k p, panes k = some p → p.foreground ∈ s.started → p.foreground ∈ s.shells ∨ Has s k p.foreground) :
    Inv { s with panes, started, shells } := by
  have hgone : ∀ k g, Gone s k g → g ∈ shells ∨ Gone { s with panes, started, shells } k g := by
    intro k g hg
    by_cases hp : g ∈ shells
    · exact .inl hp
    · refine .inr ⟨hstarted hg.1, ?_⟩
      rintro ⟨p, hpane, rfl⟩
      exact (hback k p hpane hg.1).elim (fun hs => hp (hshells hs)) hg.2
  have hsettled : ∀ k g, Settled s k g → Settled { s with panes, started, shells } k g := by
    intro k g hg
    rcases hg with hg | hg | hg
    · exact .inl (hshells hg)
    · exact .inr (.inl hg)
    · exact (hgone k g hg).imp_right .inr
  have hprobed : ∀ k g, (g ∈ s.shells ∨ Has s k g ∨ Gone s k g) →
      g ∈ shells ∨ Has { s with panes, started, shells } k g ∨ Gone { s with panes, started, shells } k g := by
    intro k g hg
    rcases hg with hg | ⟨p, hp, rfl⟩ | hg
    · exact .inl (hshells hg)
    · by_cases hsame : Has { s with panes, started, shells } k p.foreground
      · exact .inr (.inl hsame)
      · exact .inr (.inr ⟨hstarted (h.foreground k p hp), hsame⟩)
    · exact (hgone k g hg).imp_right .inr
  refine ⟨hfg, hin, hhome, fun k t ht => ?_, ?_, fun k g hm => (h.cached k g hm).imp_left (hshells ·)⟩
  · obtain ⟨own, g, rfl, hg⟩ := h.cache k t ht
    exact ⟨own, g, rfl, hsettled k g hg⟩
  · have hstage := h.stage
    show StageInv { s with panes, started, shells } s.stage
    cases hs : s.stage with
    | idle => trivial
    | probed k own g =>
        rw [hs] at hstage
        exact ⟨hprobed k g hstage.1, fun hc => (hstage.2 hc).imp_left (hshells ·)⟩
    | pasted k own g =>
        rw [hs] at hstage
        exact hprobed k g hstage
    | ran k own g =>
        rw [hs] at hstage
        exact hsettled k g hstage

/-- One pane changes. -/
theorem Inv.update {s : InstallState} (h : Inv s) {k : Text} {pane : Option InstallPane} {started shells : List Nat}
    (hstarted : s.started ⊆ started) (hshells : s.shells ⊆ shells) (hin : shells ⊆ started)
    (hpane : ∀ p, pane = some p → p.foreground ∈ started ∧ (p.own ∈ shells ∨ p.shell = false ∧ p.foreground = p.own) ∧
      (p.foreground ∈ s.started → p.foreground ∈ s.shells)) :
    Inv { s with panes := Function.update s.panes k pane, started, shells } := by
  have hcases : ∀ k' p, Function.update s.panes k pane k' = some p → pane = some p ∨ s.panes k' = some p := by
    intro k' p hp
    rw [Function.update_apply] at hp
    split at hp
    · exact .inl hp
    · exact .inr hp
  refine h.change hstarted hshells hin (fun k' p hp => ?_) (fun k' p hp => ?_) fun k' p hp hold => ?_
  · exact (hcases k' p hp).elim (fun hp => (hpane p hp).1) fun hp => hstarted (h.foreground k' p hp)
  · exact (hcases k' p hp).elim (fun hp => (hpane p hp).2.1) fun hp => (h.home k' p hp).imp_left (hshells ·)
  · exact (hcases k' p hp).elim (fun hp => .inl ((hpane p hp).2.2 hold)) fun hp => .inr ⟨p, hp, rfl⟩

theorem Inv.invalidate {s : InstallState} (h : Inv s) (hs : s.stage = .idle) (k : Text) :
    Inv { s with cache := RuntimeCache.invalidate s.cache k } := by
  refine ⟨h.foreground, h.shells, h.home, fun k' t ht => ?_, by simp [hs, StageInv], h.cached⟩
  dsimp only at ht
  by_cases hk : k' = k
  · subst hk
    simp [RuntimeCache.invalidate] at ht
  · rw [invalidate_other _ hk] at ht
    exact h.cache k' t ht

theorem Inv.advance {s : InstallState} (h : Inv s) {stage : InstallStage} (hstage : StageInv s stage) :
    Inv { s with stage } := by
  refine ⟨h.foreground, h.shells, h.home, h.cache, ?_, h.cached⟩
  cases stage with
  | idle => trivial
  | probed k own g => exact hstage
  | pasted k own g => exact hstage
  | ran k own g => exact hstage

theorem Inv.current {s : InstallState} (h : Inv s) {k : Text} {own g : Nat}
    (hc : isCurrent s.cache k (generation own g) = true) : s.cache k = some (generation own g) := by
  cases hk : s.cache k with
  | none => simp [isCurrent, hk] at hc
  | some t =>
      obtain ⟨own', g', rfl, _⟩ := h.cache k t hk
      rw [isCurrent_eq hk (generation_ne_nil _ _) (generation_ne_nil _ _)] at hc
      rw [hc]

theorem Inv.probe {s : InstallState} (h : Inv s) {k : Text} {p : InstallPane} (hp : s.panes k = some p) :
    StageInv s (.probed k p.own p.foreground) := by
  refine ⟨.inr (.inl ⟨p, hp, rfl⟩), fun hc => ?_⟩
  obtain ⟨own, g, hg, hsettled⟩ := h.cache k _ hc
  obtain rfl := generation_inj hg
  exact hsettled.imp_right fun hg => hg.resolve_right fun hgone => hgone.2 ⟨p, hp, rfl⟩

theorem Inv.install {s : InstallState} (h : Inv s) {k : Text} {own g : Nat} (hs : s.stage = .pasted k own g)
    {p : InstallPane} (hp : s.panes k = some p) :
    Inv { s with stage := .ran k own g, installed := p.foreground :: s.installed } := by
  have hmore : ∀ k' g', Settled s k' g' →
      Settled { s with stage := .ran k own g, installed := p.foreground :: s.installed } k' g' := by
    intro k' g' hg
    exact hg.imp_right fun hg => hg.imp_left (List.mem_cons_of_mem _)
  have hstage := h.stage
  rw [hs] at hstage
  refine ⟨h.foreground, h.shells, h.home, fun k' t ht => ?_, ?_,
    fun k' g' hm => (h.cached k' g' hm).imp_right (List.mem_cons_of_mem _)⟩
  · obtain ⟨own', g', rfl, hg⟩ := h.cache k' t ht
    exact ⟨own', g', rfl, hmore k' g' hg⟩
  · rcases hstage with hg | ⟨q, hq, rfl⟩ | hg
    · exact .inl hg
    · obtain rfl := Option.some.inj (hp.symm.trans hq)
      exact .inr (.inl List.mem_cons_self)
    · exact .inr (.inr hg)

theorem Inv.mark {s : InstallState} (h : Inv s) {k : Text} {own g : Nat} (hs : s.stage = .ran k own g) :
    Inv { s with stage := .idle, cache := RuntimeCache.mark s.cache k (generation own g) } := by
  have hstage := h.stage
  rw [hs] at hstage
  refine ⟨h.foreground, h.shells, h.home, fun k' t ht => ?_, trivial, h.cached⟩
  dsimp only at ht
  by_cases hk : k' = k
  · subst hk
    rw [mark_same] at ht
    exact ⟨own, g, (Option.some.inj ht).symm, hstage⟩
  · rw [mark_other _ hk] at ht
    exact h.cache k' t ht

theorem step_inv {s s' : InstallState} {a : InstallAction} (h : Inv s) (hstep : step s a = some s') : Inv s' := by
  cases a with
  | bind k | reject k =>
      simp only [step, Option.ite_none_right_eq_some, Option.some.injEq] at hstep
      obtain ⟨hs, rfl⟩ := hstep
      exact h.invalidate hs k
  | probe k =>
      simp only [step, Option.ite_none_right_eq_some, Option.map_eq_some_iff] at hstep
      obtain ⟨_, p, hp, rfl⟩ := hstep
      exact h.advance (h.probe hp)
  | shortcut =>
      cases hs : s.stage with
      | probed k own g =>
          simp only [step, hs, Option.ite_none_right_eq_some, Option.some.injEq] at hstep
          obtain ⟨hc, rfl⟩ := hstep
          have hstage := h.stage
          rw [hs] at hstage
          refine ⟨h.foreground, h.shells, h.home, h.cache, trivial, fun k' g' hm => ?_⟩
          rcases List.mem_append.mp hm with hm | hm
          · exact h.cached k' g' hm
          · obtain ⟨rfl, rfl⟩ := Prod.mk.inj (List.mem_singleton.mp hm)
            exact hstage.2 (h.current hc)
      | idle | pasted | ran => simp [step, hs] at hstep
  | paste =>
      cases hs : s.stage with
      | probed k own g =>
          simp only [step, hs, Option.ite_none_left_eq_some, Option.some.injEq] at hstep
          obtain ⟨_, rfl⟩ := hstep
          have hstage := h.stage
          rw [hs] at hstage
          exact h.advance hstage.1
      | idle | pasted | ran => simp [step, hs] at hstep
  | install =>
      cases hs : s.stage with
      | pasted k own g =>
          simp only [step, hs, Option.bind_eq_some_iff, Option.ite_none_left_eq_some, Option.some.injEq] at hstep
          obtain ⟨p, hp, _, rfl⟩ := hstep
          exact h.install hs hp
      | idle | probed | ran => simp [step, hs] at hstep
  | fail =>
      cases hs : s.stage with
      | pasted | ran =>
          simp only [step, hs, Option.some.injEq] at hstep
          subst hstep
          exact h.advance trivial
      | idle | probed => simp [step, hs] at hstep
  | mark =>
      cases hs : s.stage with
      | ran k own g =>
          simp only [step, hs, Option.some.injEq] at hstep
          subst hstep
          exact h.mark hs
      | idle | probed | pasted => simp [step, hs] at hstep
  | create k own shell =>
      simp only [step, Option.ite_none_left_eq_some, Option.some.injEq] at hstep
      obtain ⟨hfresh, rfl⟩ := hstep
      have hin : (if shell then own :: s.shells else s.shells) ⊆ own :: s.started := by
        split
        · exact List.cons_subset_cons own h.shells
        · exact List.subset_cons_of_subset own h.shells
      refine h.update (List.subset_cons_self _ _) (by split <;> simp) hin fun p hp => ?_
      obtain rfl := Option.some.inj hp
      refine ⟨List.mem_cons_self, ?_, fun hold => absurd hold hfresh⟩
      cases shell with
      | true => exact .inl (by simp)
      | false => exact .inr ⟨rfl, rfl⟩
  | start k g =>
      simp only [step, Option.bind_eq_some_iff, Option.ite_none_right_eq_some, Option.some.injEq] at hstep
      obtain ⟨p, hp, ⟨hshell, hfresh⟩, rfl⟩ := hstep
      refine h.update (List.subset_cons_self _ _) (List.Subset.refl _) (List.subset_cons_of_subset _ h.shells) fun q hq => ?_
      obtain rfl := Option.some.inj hq
      refine ⟨List.mem_cons_self, .inl ?_, fun hold => absurd hold hfresh⟩
      exact (h.home k p hp).resolve_right fun hn => by simp [hshell.1] at hn
  | exit k =>
      simp only [step, Option.map_eq_some_iff] at hstep
      obtain ⟨p, hp, rfl⟩ := hstep
      refine h.update (List.Subset.refl _) (List.Subset.refl _) h.shells fun q hq => ?_
      simp only [Option.ite_none_left_eq_some, Option.some.injEq] at hq
      obtain ⟨hother, rfl⟩ := hq
      have hshell : p.own ∈ s.shells := (h.home k p hp).resolve_right fun hn => hother hn.2
      exact ⟨h.shells hshell, .inl hshell, fun _ => hshell⟩

theorem run_inv {as : List InstallAction} {t : InstallState} (hrun : run step init as = some t) : Inv t :=
  run_preserves (fun _ _ _ hs hstep => step_inv hs hstep) inv_init hrun

/-- Nothing is stored for the pane while no installation there comes to its end. -/
def NotMarked (k : Text) (s : InstallState) : InstallAction → Prop
  | .mark => ∀ own g, s.stage ≠ .ran k own g
  | _ => True

theorem step_unmarked {s s' : InstallState} {a : InstallAction} {k : Text} (h : s.cache k = none)
    (ha : NotMarked k s a) (hstep : step s a = some s') : s'.cache k = none := by
  cases a with
  | bind k' | reject k' =>
      simp only [step, Option.ite_none_right_eq_some, Option.some.injEq] at hstep
      obtain ⟨_, rfl⟩ := hstep
      simp only [RuntimeCache.invalidate, Function.update_apply, h, ite_self]
  | probe k' =>
      simp only [step, Option.ite_none_right_eq_some, Option.map_eq_some_iff] at hstep
      obtain ⟨_, p, _, rfl⟩ := hstep
      exact h
  | create k' own shell =>
      simp only [step, Option.ite_none_left_eq_some, Option.some.injEq] at hstep
      obtain ⟨_, rfl⟩ := hstep
      exact h
  | start k' g =>
      simp only [step, Option.bind_eq_some_iff, Option.ite_none_right_eq_some, Option.some.injEq] at hstep
      obtain ⟨p, _, _, rfl⟩ := hstep
      exact h
  | exit k' =>
      simp only [step, Option.map_eq_some_iff] at hstep
      obtain ⟨p, _, rfl⟩ := hstep
      exact h
  | shortcut | paste =>
      cases hs : s.stage <;> simp only [step, hs, Option.ite_none_right_eq_some, Option.ite_none_left_eq_some,
        Option.some.injEq, reduceCtorEq] at hstep
      obtain ⟨_, rfl⟩ := hstep
      exact h
  | install =>
      cases hs : s.stage <;> simp only [step, hs, Option.bind_eq_some_iff, Option.ite_none_left_eq_some,
        Option.some.injEq, reduceCtorEq] at hstep
      obtain ⟨p, _, _, rfl⟩ := hstep
      exact h
  | fail =>
      cases hs : s.stage <;> simp only [step, hs, Option.some.injEq, reduceCtorEq] at hstep
      all_goals
        subst hstep
        exact h
  | mark =>
      cases hs : s.stage <;> simp only [step, hs, Option.some.injEq, reduceCtorEq] at hstep
      next k' own g =>
        subst hstep
        have hk : k ≠ k' := by
          rintro rfl
          exact ha own g hs
        exact (mark_other _ hk _).trans h

/-- In every run the shortcut is taken only for the shell of a pane or for a process
that has the runtime, also in a pane started with julia. A bind or a rejection leaves
other panes alone, and until the pane's next installation there is no shortcut for it. -/
theorem cached_runtime_installed {as : List InstallAction} {t : InstallState} (hrun : run step init as = some t) :
    (∀ k g, (k, g) ∈ t.cached → g ∉ t.shells → g ∈ t.installed) ∧
      ∀ a k t', (a = .bind k ∨ a = .reject k) → step t a = some t' →
        (∀ other, other ≠ k → t'.cache other = t.cache other) ∧
          ∀ bs u, run step t' bs = some u → Meets step (NotMarked k) t' bs →
            ∀ token, isCurrent u.cache k token = false := by
  refine ⟨fun k g hm hne => ((run_inv hrun).cached k g hm).resolve_left hne, fun a k t' ha hstep => ?_⟩
  have hcache : t'.cache = RuntimeCache.invalidate t.cache k := by
    rcases ha with rfl | rfl <;>
    · simp only [step, Option.ite_none_right_eq_some, Option.some.injEq] at hstep
      rw [← hstep.2]
  refine ⟨fun other hother => by rw [hcache, invalidate_other _ hother], fun bs u hu hmeets token => ?_⟩
  have hnone : u.cache k = none :=
    run_invariant (fun _ _ _ hs ha hstep => step_unmarked hs ha hstep) (by simp [hcache, RuntimeCache.invalidate]) hmeets hu
  simp [isCurrent, hnone]

/-- The probe names the shell, a REPL comes up before the paste and is gone at the
next probe. -/
def shellRun : List InstallAction :=
  [.create (lit "%5") 100 true, .probe (lit "%5"), .paste, .start (lit "%5") 200, .install, .mark, .exit (lit "%5"),
   .probe (lit "%5"), .shortcut]

theorem not_cached_runtime_installed :
    ¬ ∀ as t, run step init as = some t → ∀ p ∈ t.cached, p.2 ∈ t.installed := by
  intro h
  obtain ⟨t, ht, hcached⟩ : ∃ t, run step init shellRun = some t ∧
      t.cached = [(lit "%5", 100)] ∧ t.installed = [200] := by
    refine ⟨_, rfl, rfl, rfl⟩
  have hin := h shellRun t ht (lit "%5", 100) (by rw [hcached.1]; exact List.mem_singleton_self _)
  rw [hcached.2] at hin
  exact absurd hin (by decide)

/-- A REPL under a shell that is started again before the paste comes through, and a
pane started with julia. -/
def restartRun : List InstallAction :=
  [.create (lit "%5") 100 true, .start (lit "%5") 200, .probe (lit "%5"), .paste, .exit (lit "%5"),
   .start (lit "%5") 201, .install, .mark, .probe (lit "%5"), .paste, .install, .mark, .probe (lit "%5"), .shortcut,
   .create (lit "%6") 300 false, .probe (lit "%6"), .paste, .install, .mark, .probe (lit "%6"), .shortcut]

theorem cached_runtime_installed_restarted :
    ∃ t, run step init restartRun = some t ∧ t.cached = [(lit "%5", 201), (lit "%6", 300)] ∧
      201 ∈ t.installed ∧ 300 ∈ t.installed := by
  obtain ⟨t, hrun, hcached, hshells⟩ : ∃ t, run step init restartRun = some t ∧
      t.cached = [(lit "%5", 201), (lit "%6", 300)] ∧ t.shells = [100] := ⟨_, rfl, rfl, rfl⟩
  refine ⟨t, hrun, hcached, ?_, ?_⟩
  · exact (cached_runtime_installed hrun).1 (lit "%5") 201 (by simp [hcached]) (by simp [hshells])
  · exact (cached_runtime_installed hrun).1 (lit "%6") 300 (by simp [hcached]) (by simp [hshells])

theorem sendText_cache {a : SendTextAnswers} {target : Text} {pasted : Pasted} {buffer : Text} {s s' : Session}
    {r : Except Text Unit} (h : sendText a target pasted buffer s = (s', r)) : s'.cache = s.cache := by
  rcases sendText_session h with rfl | rfl
  · rfl
  · rfl

theorem ensureJjmcpRuntime_cache (pid : Nat) (a : InstallAnswers) (b : Binding) (s : Session) :
    (ensureJjmcpRuntime pid a b s).1.cache = s.cache ∨
      (isCurrent s.cache (boundTarget b) a.generation = false ∧
        (ensureJjmcpRuntime pid a b s).1.cache = RuntimeCache.mark s.cache (boundTarget b) a.generation) := by
  rcases ensureJjmcpRuntime_session pid a b s with ⟨_, h⟩ | ⟨hc, s', r, hsend, h⟩
  · exact .inl (by rw [h])
  · have hcache := sendText_cache hsend
    rcases h with h | h
    · exact .inl (by rw [h, hcache])
    · exact .inr ⟨hc, by rw [h, hcache]⟩

/-- What ensure_jjmcp_runtime does to the cache is what a few steps do: the
shortcut, a failed installation or a complete one. -/
theorem ensureJjmcpRuntime_runs (pid : Nat) (a : InstallAnswers) (b : Binding) (s : Session) {t : InstallState}
    {p : InstallPane} (hcache : t.cache = s.cache) (hidle : t.stage = .idle) (hp : t.panes (boundTarget b) = some p)
    (hprobe : a.generation = generation p.own p.foreground) (hrepl : ¬p.AtShell) :
    ∃ as u, run step t as = some u ∧ u.cache = (ensureJjmcpRuntime pid a b s).1.cache ∧ u.stage = .idle := by
  have hgen := hprobe.symm
  by_cases hc : isCurrent s.cache (boundTarget b) a.generation = true
  · refine ⟨[.probe (boundTarget b), .shortcut],
      { t with stage := .idle, cached := t.cached ++ [(boundTarget b, p.foreground)] }, ?_, ?_, rfl⟩
    · simp [run, step, hidle, hp, hcache, hgen, hc]
    · simp [ensureJjmcpRuntime, hc, hcache]
  · rcases ensureJjmcpRuntime_cache pid a b s with h | ⟨_, h⟩
    · refine ⟨[.probe (boundTarget b), .paste, .fail], { t with stage := .idle }, ?_, ?_, rfl⟩
      · simp [run, step, hidle, hp, hcache, hgen, hc]
      · rw [h, ← hcache]
    · refine ⟨[.probe (boundTarget b), .paste, .install, .mark],
        { t with
          stage := .idle
          installed := p.foreground :: t.installed
          cache := RuntimeCache.mark s.cache (boundTarget b) a.generation }, ?_, ?_, rfl⟩
      · simp [run, step, hidle, hp, hcache, hgen, hc, hrepl]
      · rw [h]

end JJMCP.RuntimeInstall
