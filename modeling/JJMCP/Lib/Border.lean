import Mathlib.Data.List.Infix
import Mathlib.Tactic.NthRewrite

namespace JJMCP.Lib.Border

variable {α : Type}

/-- The first k symbols of s close the text t. -/
def Matched (s t : List α) (k : Nat) : Prop := k ≤ s.length ∧ s.take k <:+ t

theorem matched_zero (s t : List α) : Matched s t 0 :=
  ⟨Nat.zero_le _, by simp⟩

theorem Matched.le_length {s t : List α} {k : Nat} (h : Matched s t k) : k ≤ t.length := by
  have hlen := h.2.length_le
  rwa [List.length_take, Nat.min_eq_left h.1] at hlen

theorem matched_iff {s t : List α} {k : Nat} :
    Matched s t k ↔ k ≤ t.length ∧ k ≤ s.length ∧ t.drop (t.length - k) = s.take k := by
  constructor
  · intro h
    obtain ⟨r, hr⟩ := h.2
    have hlen := congrArg List.length hr
    rw [List.length_append, List.length_take, Nat.min_eq_left h.1] at hlen
    refine ⟨h.le_length, h.1, ?_⟩
    rw [show t.length - k = r.length by omega]
    nth_rewrite 1 [← hr]
    exact List.drop_left
  · rintro ⟨_, hs, heq⟩
    exact ⟨hs, heq ▸ List.drop_suffix _ _⟩

/-- A match inside a match is a match: the way a failure table is followed. -/
theorem Matched.trans {s t : List α} {j k : Nat} (h : Matched s t j) (hk : Matched s (s.take j) k) :
    Matched s t k :=
  ⟨hk.1, hk.2.trans h.2⟩

theorem take_succ_getElem? {s : List α} {j : Nat} {c : α} (hc : s[j]? = some c) :
    s.take (j + 1) = s.take j ++ [c] := by
  rw [List.take_add_one, hc, Option.toList_some]

theorem Matched.extend {s t : List α} {j : Nat} {c : α} (h : Matched s t j) (hc : s[j]? = some c) :
    Matched s (t ++ [c]) (j + 1) := by
  obtain ⟨hj, _⟩ := List.getElem?_eq_some_iff.mp hc
  refine ⟨hj, ?_⟩
  obtain ⟨r, hr⟩ := h.2
  rw [take_succ_getElem? hc, ← hr, List.append_assoc]
  exact List.suffix_append r _

/-- Entry i of a failure table is the length of a match inside the first i + 1
symbols, shorter than these. -/
def Table (s : List α) (pi : List Nat) : Prop :=
  ∀ i k, pi[i]? = some k → k ≤ i ∧ Matched s (s.take (i + 1)) k

theorem table_nil (s : List α) : Table s [] := fun i k h => by simp at h

/-- What is to hold of every entry is asked of a new last one only. -/
theorem forall_concat {P : Nat → Nat → Prop} {pi : List Nat} {k : Nat} (h : ∀ i j, pi[i]? = some j → P i j)
    (hk : P pi.length k) (i j : Nat) (hj : (pi ++ [k])[i]? = some j) : P i j := by
  rcases Nat.lt_trichotomy i pi.length with hi | hi | hi
  · rw [List.getElem?_append_left hi] at hj
    exact h i j hj
  · rw [hi, List.getElem?_concat_length, Option.some.injEq] at hj
    rwa [hi, ← hj]
  · rw [List.getElem?_eq_none (by simp; omega)] at hj
    exact absurd hj (by simp)

theorem Table.concat {s : List α} {pi : List Nat} {k : Nat} (h : Table s pi) (hk : k ≤ pi.length)
    (hm : Matched s (s.take (pi.length + 1)) k) : Table s (pi ++ [k]) :=
  forall_concat h ⟨hk, hm⟩

theorem Table.lt {s : List α} {pi : List Nat} (h : Table s pi) {j : Nat} (hj : 0 < j) :
    pi.getD (j - 1) 0 < j := by
  rw [List.getD_eq_getElem?_getD]
  cases hk : pi[j - 1]? with
  | none => simpa using hj
  | some k =>
      have := (h _ _ hk).1
      simp only [Option.getD_some]
      omega

theorem Table.matched {s t : List α} {pi : List Nat} (h : Table s pi) {j : Nat} (hj : 0 < j)
    (hm : Matched s t j) : Matched s t (pi.getD (j - 1) 0) := by
  rw [List.getD_eq_getElem?_getD]
  cases hk : pi[j - 1]? with
  | none => exact matched_zero s t
  | some k =>
      have hm' := (h _ _ hk).2
      rw [Nat.sub_add_cancel hj] at hm'
      exact hm.trans hm'

theorem Matched.inner {s t : List α} {j k : Nat} (hj : Matched s t j) (hk : Matched s t k) (h : k ≤ j) :
    Matched s (s.take j) k :=
  ⟨hk.1, List.suffix_of_suffix_length_le hk.2 hj.2 (by rw [List.length_take, List.length_take]; omega)⟩

theorem Matched.pred {s t : List α} {c : α} {k : Nat} (h : Matched s (t ++ [c]) (k + 1)) :
    s[k]? = some c ∧ Matched s t k := by
  have hlt : k < s.length := h.1
  obtain ⟨r, hr⟩ := h.2
  have hlast : s.take (k + 1) = s.take k ++ [s[k]] := take_succ_getElem? (List.getElem?_eq_getElem hlt)
  rw [hlast, ← List.append_assoc] at hr
  obtain ⟨ht, hc⟩ := List.append_inj' hr rfl
  refine ⟨?_, Nat.le_of_lt hlt, ⟨r, ht⟩⟩
  rw [List.getElem?_eq_getElem hlt, List.cons.inj hc |>.1]

/-- No entry of a failure table passes over a longer match. -/
def Tight (s : List α) (pi : List Nat) : Prop :=
  ∀ i k, pi[i]? = some k → ∀ j ≤ i, Matched s (s.take (i + 1)) j → j ≤ k

theorem tight_nil (s : List α) : Tight s [] := fun i k h => by simp at h

theorem Tight.concat {s : List α} {pi : List Nat} {k : Nat} (h : Tight s pi)
    (hm : ∀ j ≤ pi.length, Matched s (s.take (pi.length + 1)) j → j ≤ k) : Tight s (pi ++ [k]) :=
  forall_concat h hm

theorem Tight.le {s t : List α} {pi : List Nat} (h : Tight s pi) {j k : Nat} (hj : j ≤ pi.length)
    (hm : Matched s t j) (hk : Matched s t k) (hlt : k < j) : k ≤ pi.getD (j - 1) 0 := by
  have hentry : pi[j - 1]? = some (pi.getD (j - 1) 0) := by
    rw [List.getD_eq_getElem?_getD, List.getElem?_eq_getElem (by omega), Option.getD_some]
  have hin := hm.inner hk (Nat.le_of_lt hlt)
  rw [show j = j - 1 + 1 by omega] at hin
  exact h _ _ hentry k (by omega) hin

end JJMCP.Lib.Border
