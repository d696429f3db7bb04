import Mathlib.Data.List.Induction
import Mathlib.Logic.Function.Basic

namespace JJMCP.Lib.Runs

variable {σ ι : Type*}

/-- The state after a list of actions, when each of them can be taken. -/
def run (step : σ → ι → Option σ) (s : σ) : List ι → Option σ
  | [] => some s
  | a :: as => (step s a).bind (run step · as)

/-- Every action of the run meets the condition in the state it is taken in. -/
def Meets (step : σ → ι → Option σ) (cond : σ → ι → Prop) (s : σ) : List ι → Prop
  | [] => True
  | a :: as => cond s a ∧ (step s a).elim True (Meets step cond · as)

instance decidableMeets (step : σ → ι → Option σ) (cond : σ → ι → Prop) [∀ s a, Decidable (cond s a)] :
    (s : σ) → (as : List ι) → Decidable (Meets step cond s as)
  | _, [] => isTrue trivial
  | s, a :: as =>
      have : Decidable ((step s a).elim True (Meets step cond · as)) :=
        match step s a with
        | none => isTrue trivial
        | some s' => decidableMeets step cond s' as
      inferInstanceAs (Decidable (cond s a ∧ (step s a).elim True (Meets step cond · as)))

variable {step : σ → ι → Option σ} {cond : σ → ι → Prop} {inv : σ → Prop}

theorem run_cons_some {s t : σ} {a : ι} {as : List ι} (h : run step s (a :: as) = some t) :
    ∃ s', step s a = some s' ∧ run step s' as = some t :=
  Option.bind_eq_some_iff.mp h

theorem Meets.mono {cond' : σ → ι → Prop} (h : ∀ s a, cond s a → cond' s a) {s : σ} {as : List ι}
    (hmeets : Meets step cond s as) : Meets step cond' s as := by
  induction as generalizing s with
  | nil => trivial
  | cons a as ih =>
      obtain ⟨ha, hrest⟩ := hmeets
      refine ⟨h s a ha, ?_⟩
      cases hs : step s a with
      | none => trivial
      | some s' =>
          rw [hs] at hrest
          exact ih hrest

/-- What every step that meets the condition preserves, a run preserves. -/
theorem run_invariant
    (hstep : ∀ s a s', inv s → cond s a → step s a = some s' → inv s') {s t : σ} {as : List ι}
    (hs : inv s) (hmeets : Meets step cond s as) (hrun : run step s as = some t) : inv t := by
  induction as generalizing s with
  | nil => exact Option.some.inj hrun ▸ hs
  | cons a as ih =>
      obtain ⟨s', ha, hrest⟩ := run_cons_some hrun
      have hrest' := hmeets.2
      rw [ha] at hrest'
      exact ih (hstep s a s' hs hmeets.1 ha) hrest' hrest

theorem run_preserves (hstep : ∀ s a s', inv s → step s a = some s' → inv s') {s t : σ} {as : List ι}
    (hs : inv s) (hrun : run step s as = some t) : inv t := by
  induction as generalizing s with
  | nil => exact Option.some.inj hrun ▸ hs
  | cons a as ih =>
      obtain ⟨s', ha, hrest⟩ := run_cons_some hrun
      exact ih (hstep s a s' hs ha) hrest

theorem run_append (s : σ) (as bs : List ι) :
    run step s (as ++ bs) = (run step s as).bind (run step · bs) := by
  induction as generalizing s with
  | nil => rfl
  | cons a as ih =>
      rw [List.cons_append, run, run, Option.bind_assoc]
      exact congrArg _ (funext ih)

theorem run_append_some {s t : σ} {as bs : List ι} (h : run step s (as ++ bs) = some t) :
    ∃ s', run step s as = some s' ∧ run step s' bs = some t := by
  rw [run_append] at h
  exact Option.bind_eq_some_iff.mp h

/-- An invariant of the actions taken so far and the state they led to. -/
theorem run_history {inv : List ι → σ → Prop} {s t : σ} {as : List ι} (hs : inv [] s)
    (hstep : ∀ as s a s', inv as s → step s a = some s' → inv (as ++ [a]) s')
    (hrun : run step s as = some t) : inv as t := by
  induction as using List.reverseRecOn generalizing t with
  | nil => exact Option.some.inj hrun ▸ hs
  | append_singleton as a ih =>
      obtain ⟨s', has, ha⟩ := run_append_some hrun
      obtain ⟨t', ha, ht⟩ := run_cons_some ha
      exact Option.some.inj ht ▸ hstep as s' a t' (ih has) ha

/-- A weight that the actions in p lower and only those in q raise, by one, bounds
how many actions in p a run takes. -/
theorem run_bounded {weight : σ → Nat} {p q : ι → Bool}
    (hstep : ∀ s a s', step s a = some s' → weight s' + (p a).toNat ≤ weight s + (q a).toNat) {s t : σ}
    {as : List ι} (hrun : run step s as = some t) : weight t + as.countP p ≤ weight s + as.countP q := by
  induction as generalizing s with
  | nil => exact Option.some.inj hrun ▸ Nat.le_refl _
  | cons a as ih =>
      obtain ⟨s', ha, hrest⟩ := run_cons_some hrun
      have h1 := hstep s a s' ha
      have h2 := ih hrest
      simp only [List.countP_cons]
      cases hp : p a <;> cases hq : q a <;> simp [hp, hq] at h1 ⊢ <;> omega

end JJMCP.Lib.Runs
