import JJMCP.Overlap

namespace JJMCP.PrefixFunction

open Lib.Border Overlap

/-- The inner while loop with its reads checked: nothing at an index out of
range, and nothing once its turns are used up. -/
def kmpWhile (s : Text) (pi : List Nat) (c : UInt8) : Nat → Nat → Option Nat
  | 0, _ => none
  | turns + 1, j =>
      if j = 0 then some j
      else do
        let d ← s[j]?
        if c = d then some j
        else do
          let k ← pi[j - 1]?
          kmpWhile s pi c turns k

/-- One turn of the outer loop. The inner one has as many turns as the position
it starts from, and the test that ends it. -/
def kmpTurn (s : Text) (i : Nat) (pi : List Nat) : Option (List Nat) := do
  let c ← s[i]?
  let j ← pi[i - 1]?
  let j ← kmpWhile s pi c (j + 1) j
  let d ← s[j]?
  if i < pi.length then some (pi.set i (if c = d then j + 1 else j)) else none

def kmpFor (s : Text) : Nat → Nat → List Nat → Option (List Nat)
  | 0, _, pi => some pi
  | turns + 1, i, pi => do
      let pi ← kmpTurn s i pi
      kmpFor s turns (i + 1) pi

/-- kmp_prefix_function over a table that is there from the start, with every
read and write checked. -/
def kmpChecked (s : Text) : Option (List Nat) :=
  kmpFor s (s.length - 1) 1 (List.replicate s.length 0)

theorem kmpWhile_eq {s : Text} {pi : List Nat} (hpi : Table s pi) (hlen : pi.length ≤ s.length) (later : List Nat)
    (c : UInt8) (fuel j : Nat) (hj : j < pi.length) (hf : j ≤ fuel) :
    kmpWhile s (pi ++ later) c (fuel + 1) j = some (kmpFallback s pi c fuel j) := by
  induction fuel generalizing j with
  | zero =>
      obtain rfl : j = 0 := by omega
      rfl
  | succ fuel ih =>
      rw [kmpWhile]
      unfold kmpFallback
      by_cases h0 : j = 0
      · simp [h0]
      · have hs : s[j]? = some s[j] := List.getElem?_eq_getElem (by omega)
        by_cases hc : c = s[j]
        · simp [h0, hs, hc]
        · have hk : (pi ++ later)[j - 1]? = some (pi.getD (j - 1) 0) := by
            rw [List.getElem?_append_left (by omega), List.getD_eq_getElem?_getD,
              List.getElem?_eq_getElem (by omega), Option.getD_some]
          have hlt := hpi.lt (Nat.pos_of_ne_zero h0)
          have hcond : 0 < j ∧ s[j]? ≠ some c := by
            refine ⟨Nat.pos_of_ne_zero h0, fun he => hc ?_⟩
            rw [hs, Option.some.injEq] at he
            exact he.symm
          rw [if_neg h0, if_pos hcond, hs]
          simp only [Option.bind_eq_bind, Option.bind_some, if_neg hc, hk]
          exact ih _ (by omega) (by omega)

theorem kmpTurn_eq {s : Text} {pi : List Nat} {j : Nat} {c : UInt8} {cs : Text} (h : Scanning s pi j (c :: cs))
    (hlast : pi[pi.length - 1]? = some j) (n : Nat) :
    kmpTurn s pi.length (pi ++ List.replicate (n + 1) 0) = some (pi ++ [kmpAdvance s pi c j] ++ List.replicate n 0) := by
  have hj := h.lt
  obtain ⟨hlt, -⟩ := List.getElem?_eq_some_iff.mp h.reads
  have hread : (pi ++ List.replicate (n + 1) 0)[pi.length - 1]? = some j := by
    rw [List.getElem?_append_left (by omega), hlast]
  have hwhile := kmpWhile_eq h.table (Nat.le_of_lt hlt) (List.replicate (n + 1) 0) c j j hj (Nat.le_refl j)
  have hle := (kmpFallback_matched h.table c j j h.matched).1
  have hd : s[kmpFallback s pi c j j]? = some s[kmpFallback s pi c j j] := List.getElem?_eq_getElem (by omega)
  have hwrite : pi.length < (pi ++ List.replicate (n + 1) 0).length := by simp
  have hadv : kmpAdvance s pi c j =
      if c = s[kmpFallback s pi c j j] then kmpFallback s pi c j j + 1 else kmpFallback s pi c j j := by
    simp only [kmpAdvance, hd, Option.some.injEq, eq_comm]
  simp only [kmpTurn, h.reads, hread, hwhile, hd, Option.bind_eq_bind, Option.bind_some, if_pos hwrite]
  rw [← hadv, List.set_append_right _ _ (Nat.le_refl _), Nat.sub_self, List.replicate_succ, List.set_cons_zero,
    List.append_assoc, List.singleton_append]

/-- The entry that a turn reads back is the one that the last turn wrote. -/
theorem kmpFor_eq {s : Text} {pi : List Nat} {j : Nat} {rest : Text} (h : Scanning s pi j rest)
    (hlast : pi[pi.length - 1]? = some j) :
    kmpFor s rest.length pi.length (pi ++ List.replicate rest.length 0) = some (kmpLoop s pi j rest) := by
  induction rest generalizing pi j with
  | nil => simp [kmpFor, kmpLoop]
  | cons c cs ih =>
      have hlen : (pi ++ [kmpAdvance s pi c j]).length = pi.length + 1 := by simp
      have hlast' : (pi ++ [kmpAdvance s pi c j])[(pi ++ [kmpAdvance s pi c j]).length - 1]? =
          some (kmpAdvance s pi c j) := by
        rw [hlen, Nat.add_sub_cancel, List.getElem?_concat_length]
      have hrun := ih h.step hlast'
      rw [hlen] at hrun
      simp only [List.length_cons, kmpFor, kmpTurn_eq h hlast, Option.bind_eq_bind, Option.bind_some]
      rw [hrun, kmpLoop]

/-- No index is out of range and every inner loop ends in its turns. -/
theorem kmpChecked_eq (s : Text) : kmpChecked s = some (kmpPrefixFunction s) := by
  cases s with
  | nil => rfl
  | cons c cs => exact kmpFor_eq (scanning_init c cs) rfl

theorem kmpPrefixFunction_isGreatest {s : Text} {i k : Nat} (h : (kmpPrefixFunction s)[i]? = some k) :
    IsGreatest {k | k < i + 1 ∧ (s.take (i + 1)).take k <:+ s.take (i + 1)} k := by
  obtain ⟨hki, hm⟩ := kmpPrefixFunction_table s i k h
  obtain ⟨htight, hlen⟩ := kmpPrefixFunction_tight s
  obtain ⟨hi, -⟩ := List.getElem?_eq_some_iff.mp h
  have htake {k : Nat} (hk : k < i + 1) : (s.take (i + 1)).take k = s.take k := by
    rw [List.take_take, Nat.min_eq_left (Nat.le_of_lt hk)]
  refine ⟨⟨by omega, by rw [htake (by omega)]; exact hm.2⟩, ?_⟩
  rintro j ⟨hj, hsuffix⟩
  rw [htake hj] at hsuffix
  exact htight i k h j (by omega) ⟨by omega, hsuffix⟩

/-- The table is the failure function of its text, and the code with checked
indices and bounded inner loops computes it. -/
theorem kmp_failure_function (s : Text) :
    kmpChecked s = some (kmpPrefixFunction s) ∧ (kmpPrefixFunction s).length = s.length ∧
      ∀ i < s.length, IsGreatest {k | k < i + 1 ∧ (s.take (i + 1)).take k <:+ s.take (i + 1)}
        ((kmpPrefixFunction s).getD i 0) := by
  have hlen := (kmpPrefixFunction_tight s).2
  refine ⟨kmpChecked_eq s, hlen, ?_⟩
  intro i hi
  apply kmpPrefixFunction_isGreatest
  rw [List.getD_eq_getElem?_getD, List.getElem?_eq_getElem (by omega), Option.getD_some]

end JJMCP.PrefixFunction
