import JJMCP.Lib.Runs

namespace JJMCP.Lib.Interleave

open Runs

variable {κ σ ι : Type*} [DecidableEq κ]

/-- Systems of one kind side by side: an action is taken by one of them and
changes no state but its own. -/
def interleave (step : σ → ι → Option σ) (s : κ → σ) (a : κ × ι) : Option (κ → σ) :=
  (step (s a.1) a.2).map (Function.update s a.1)

/-- The actions of one system. -/
def own (k : κ) (as : List (κ × ι)) : List ι := as.filterMap fun a => if a.1 = k then some a.2 else none

variable {step : σ → ι → Option σ}

theorem interleave_some {s t : κ → σ} {a : κ × ι} (h : interleave step s a = some t) :
    ∃ u, step (s a.1) a.2 = some u ∧ t = Function.update s a.1 u := by
  obtain ⟨u, hu, rfl⟩ := Option.map_eq_some_iff.mp h
  exact ⟨u, hu, rfl⟩

/-- Whatever the others do, each system takes a run of its own actions. -/
theorem run_own {s t : κ → σ} {as : List (κ × ι)} (h : run (interleave step) s as = some t) (k : κ) :
    run step (s k) (own k as) = some (t k) := by
  induction as generalizing s with
  | nil => exact congrArg some (congrFun (Option.some.inj h) k)
  | cons a as ih =>
      obtain ⟨s', ha, hrest⟩ := run_cons_some h
      obtain ⟨u, hu, rfl⟩ := interleave_some ha
      have hk := ih hrest
      by_cases hown : a.1 = k
      · subst hown
        rw [Function.update_self] at hk
        simp only [own, List.filterMap_cons, if_true, run, hu, Option.bind_some]
        exact hk
      · rw [Function.update_of_ne (Ne.symm hown)] at hk
        simpa only [own, List.filterMap_cons, if_neg hown] using hk

end JJMCP.Lib.Interleave
