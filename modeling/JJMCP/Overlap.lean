import JJMCP.Text
import JJMCP.Lib.Border
import Mathlib.Order.Bounds.Basic

namespace JJMCP.Overlap

open Lib.Border

/-- The inner while loop: fall back through the table until the byte fits. The
position falls in every turn, so it bounds the turns. -/
def kmpFallback (s : Text) (pi : List Nat) (c : UInt8) : Nat → Nat → Nat
  | 0, j => j
  | fuel + 1, j => if 0 < j ∧ s[j]? ≠ some c then kmpFallback s pi c fuel (pi.getD (j - 1) 0) else j

def kmpAdvance (s : Text) (pi : List Nat) (c : UInt8) (j : Nat) : Nat :=
  let j := kmpFallback s pi c j j
  if s[j]? = some c then j + 1 else j

def kmpLoop (s : Text) (pi : List Nat) (j : Nat) : Text → List Nat
  | [] => pi
  | c :: cs => kmpLoop s (pi ++ [kmpAdvance s pi c j]) (kmpAdvance s pi c j) cs

def kmpPrefixFunction : Text → List Nat
  | [] => []
  | c :: cs => kmpLoop (c :: cs) [0] 0 cs

def overlapLoop (current : Text) (pi : List Nat) (state : Nat) : Text → Nat
  | [] => state
  | c :: cs =>
      let state := if state = current.length then pi.getD (state - 1) 0 else state
      overlapLoop current pi (kmpAdvance current pi c state) cs

def computeCaptureOverlap (prior current : Text) : Nat :=
  if prior = [] ∨ current = [] then 0
  else if prior <+: current then prior.length
  else overlapLoop current (kmpPrefixFunction current) 0 prior

theorem kmpFallback_matched {s t : Text} {pi : List Nat} (hpi : Table s pi) (c : UInt8) (fuel j : Nat)
    (h : Matched s t j) : kmpFallback s pi c fuel j ≤ j ∧ Matched s t (kmpFallback s pi c fuel j) := by
  induction fuel generalizing j with
  | zero => exact ⟨Nat.le_refl j, h⟩
  | succ fuel ih =>
      unfold kmpFallback
      split
      next hc =>
        have hlt := hpi.lt hc.1
        obtain ⟨hle, hm⟩ := ih (pi.getD (j - 1) 0) (hpi.matched hc.1 h)
        exact ⟨by omega, hm⟩
      next => exact ⟨Nat.le_refl j, h⟩

theorem kmpFallback_stops {s : Text} {pi : List Nat} (hpi : Table s pi) (c : UInt8) (fuel j : Nat)
    (hj : j ≤ fuel) : kmpFallback s pi c fuel j = 0 ∨ s[kmpFallback s pi c fuel j]? = some c := by
  induction fuel generalizing j with
  | zero => exact .inl (Nat.le_zero.mp hj)
  | succ fuel ih =>
      unfold kmpFallback
      split
      next hc =>
        have hlt := hpi.lt hc.1
        exact ih (pi.getD (j - 1) 0) (by omega)
      next hc =>
        by_cases h0 : 0 < j
        · exact .inr (by simpa [h0] using hc)
        · exact .inl (by omega)

theorem kmpAdvance_matched {s t : Text} {pi : List Nat} (hpi : Table s pi) (c : UInt8) {j : Nat}
    (h : Matched s t j) : kmpAdvance s pi c j ≤ j + 1 ∧ Matched s (t ++ [c]) (kmpAdvance s pi c j) := by
  obtain ⟨hle, hm⟩ := kmpFallback_matched hpi c j j h
  simp only [kmpAdvance]
  split
  next hc => exact ⟨by omega, hm.extend hc⟩
  next hc =>
    have h0 : kmpFallback s pi c j j = 0 := (kmpFallback_stops hpi c j j (Nat.le_refl j)).resolve_right hc
    rw [h0]
    exact ⟨Nat.zero_le _, matched_zero s _⟩

theorem kmpFallback_longest {s t : Text} {pi : List Nat} {b : Nat} (hpi : Table s pi) (ht : Tight s pi) (c : UInt8)
    (fuel j : Nat) (hj : j ≤ pi.length) (hm : Matched s t j)
    (hmax : ∀ k < b, Matched s t k → s[k]? = some c → k ≤ j) :
    ∀ k < b, Matched s t k → s[k]? = some c → k ≤ kmpFallback s pi c fuel j := by
  induction fuel generalizing j with
  | zero => exact hmax
  | succ fuel ih =>
      unfold kmpFallback
      split
      next hc =>
        have hlt := hpi.lt hc.1
        refine ih (pi.getD (j - 1) 0) (by omega) (hpi.matched hc.1 hm) ?_
        intro k hk hkm hkc
        have hne : k ≠ j := by
          rintro rfl
          exact hc.2 hkc
        have hle := hmax k hk hkm hkc
        exact ht.le hj hm hkm (by omega)
      next => exact hmax

theorem kmpAdvance_longest {s t : Text} {pi : List Nat} {b : Nat} (hpi : Table s pi) (ht : Tight s pi) (c : UInt8)
    {j : Nat} (hj : j ≤ pi.length) (hm : Matched s t j)
    (hmax : ∀ k < b, Matched s t k → s[k]? = some c → k ≤ j) :
    ∀ k ≤ b, Matched s (t ++ [c]) k → k ≤ kmpAdvance s pi c j := by
  rintro (_ | k) hk hkm
  · exact Nat.zero_le _
  · obtain ⟨hkc, hkt⟩ := hkm.pred
    have hle := kmpFallback_longest hpi ht c j j hj hm hmax k hk hkt hkc
    simp only [kmpAdvance]
    split
    · omega
    next hc =>
      have h0 := (kmpFallback_stops hpi c j j (Nat.le_refl j)).resolve_right hc
      rw [h0, Nat.le_zero] at hle
      rw [h0] at hc
      exact absurd (hle ▸ hkc) hc

theorem getElem?_rest {s rest : Text} {n : Nat} {c : UInt8} (hs : s = s.take n ++ c :: rest) : s[n]? = some c := by
  have hl : (s.take n).length = n := by
    have hlen := congrArg List.length hs
    simp only [List.length_append, List.length_cons, List.length_take] at hlen ⊢
    omega
  rw [hs, List.getElem?_append_right (by omega), hl, Nat.sub_self, List.getElem?_cons_zero]

/-- What the outer loop keeps: pi is the table of the text read so far, and j the
border it goes on from. -/
structure Scanning (s : Text) (pi : List Nat) (j : Nat) (rest : Text) : Prop where
  split : s = s.take pi.length ++ rest
  table : Table s pi
  lt : j < pi.length
  matched : Matched s (s.take pi.length) j

theorem scanning_init (c : UInt8) (cs : Text) : Scanning (c :: cs) [0] 0 cs where
  split := rfl
  table := (table_nil _).concat (Nat.zero_le _) (matched_zero _ _)
  lt := Nat.zero_lt_one
  matched := matched_zero _ _

section Scanning

variable {s : Text} {pi : List Nat} {j : Nat} {c : UInt8} {cs : Text}

theorem Scanning.reads (h : Scanning s pi j (c :: cs)) : s[pi.length]? = some c := getElem?_rest h.split

theorem Scanning.next (h : Scanning s pi j (c :: cs)) : s.take (pi.length + 1) = s.take pi.length ++ [c] :=
  take_succ_getElem? h.reads

theorem Scanning.step (h : Scanning s pi j (c :: cs)) :
    Scanning s (pi ++ [kmpAdvance s pi c j]) (kmpAdvance s pi c j) cs := by
  obtain ⟨hle, hm⟩ := kmpAdvance_matched h.table c h.matched
  have hlt := h.lt
  have hlen : (pi ++ [kmpAdvance s pi c j]).length = pi.length + 1 := by simp
  constructor
  · rw [hlen, h.next, List.append_assoc, List.singleton_append]
    exact h.split
  · exact h.table.concat (by omega) (h.next ▸ hm)
  · omega
  · rw [hlen, h.next]
    exact hm

end Scanning

theorem kmpLoop_table {s : Text} {pi : List Nat} {j : Nat} {rest : Text} (h : Scanning s pi j rest) :
    Table s (kmpLoop s pi j rest) := by
  induction rest generalizing pi j with
  | nil => exact h.table
  | cons c cs ih => exact ih h.step

theorem kmpPrefixFunction_table (s : Text) : Table s (kmpPrefixFunction s) := by
  cases s with
  | nil => exact table_nil _
  | cons c cs => exact kmpLoop_table (scanning_init c cs)

theorem kmpLoop_tight {s : Text} {pi : List Nat} {j : Nat} {rest : Text} (h : Scanning s pi j rest) (ht : Tight s pi)
    (hmax : ∀ k < pi.length, Matched s (s.take pi.length) k → k ≤ j) :
    Tight s (kmpLoop s pi j rest) ∧ (kmpLoop s pi j rest).length = pi.length + rest.length := by
  induction rest generalizing pi j with
  | nil => exact ⟨ht, rfl⟩
  | cons c cs ih =>
      have hlong := kmpAdvance_longest h.table ht c (Nat.le_of_lt h.lt) h.matched fun k hk hkm _ => hmax k hk hkm
      have hlen : (pi ++ [kmpAdvance s pi c j]).length = pi.length + 1 := by simp
      have hgo := ih h.step (ht.concat (h.next ▸ hlong))
        fun k hk hkm => hlong k (by omega) (by rwa [hlen, h.next] at hkm)
      refine ⟨hgo.1, ?_⟩
      have htotal := hgo.2
      rw [hlen] at htotal
      simp only [kmpLoop, List.length_cons]
      omega

theorem kmpPrefixFunction_tight (s : Text) :
    Tight s (kmpPrefixFunction s) ∧ (kmpPrefixFunction s).length = s.length := by
  cases s with
  | nil => exact ⟨tight_nil _, rfl⟩
  | cons c cs =>
      have ht0 : Tight (c :: cs) [0] := (tight_nil _).concat fun j hj _ => hj
      obtain ⟨ht, hlen⟩ := kmpLoop_tight (scanning_init c cs) ht0 fun k hk _ => Nat.lt_succ_iff.mp hk
      refine ⟨ht, hlen.trans ?_⟩
      rw [List.length_singleton, List.length_cons, Nat.add_comm]

theorem matched_back {current t : Text} {pi : List Nat} (hpi : Table current pi) {state : Nat}
    (h : Matched current t state) :
    Matched current t (if state = current.length then pi.getD (state - 1) 0 else state) := by
  split
  · by_cases h0 : 0 < state
    · exact hpi.matched h0 h
    · have hz : state = 0 := by omega
      rw [hz]
      cases hk : pi[0]? with
      | none => simpa [List.getD_eq_getElem?_getD, hk] using matched_zero current t
      | some k =>
          have := (hpi 0 k hk).1
          have hk0 : k = 0 := by omega
          simpa [List.getD_eq_getElem?_getD, hk, hk0] using matched_zero current t
  · exact h

theorem overlapLoop_matched {current : Text} {pi : List Nat} (hpi : Table current pi) (rest t : Text)
    {state : Nat} (h : Matched current t state) :
    Matched current (t ++ rest) (overlapLoop current pi state rest) := by
  induction rest generalizing t state with
  | nil => simpa [overlapLoop] using h
  | cons c cs ih =>
      have hback := matched_back hpi h
      have hnext := ih (t ++ [c]) (kmpAdvance_matched hpi c hback).2
      rw [List.append_assoc, List.singleton_append] at hnext
      exact hnext

theorem overlapLoop_longest {current : Text} {pi : List Nat} (hpi : Table current pi) (ht : Tight current pi)
    (hlen : pi.length = current.length) (rest t : Text) {state : Nat} (h : Matched current t state)
    (hmax : ∀ k, Matched current t k → k ≤ state) :
    ∀ k, Matched current (t ++ rest) k → k ≤ overlapLoop current pi state rest := by
  induction rest generalizing t state with
  | nil =>
      rw [List.append_nil]
      exact hmax
  | cons c cs ih =>
      have hback := matched_back hpi h
      have hbound : ∀ k < current.length, Matched current t k → current[k]? = some c →
          k ≤ if state = current.length then pi.getD (state - 1) 0 else state := by
        intro k hk hkm _
        split
        next hs => exact ht.le (by omega) h hkm (by omega)
        next => exact hmax k hkm
      have hj : (if state = current.length then pi.getD (state - 1) 0 else state) ≤ pi.length :=
        hlen ▸ hback.1
      have hlong := kmpAdvance_longest hpi ht c hj hback hbound
      have hnext := ih (t ++ [c]) (kmpAdvance_matched hpi c hback).2 fun k hk => hlong k hk.1 hk
      rwa [List.append_assoc, List.singleton_append] at hnext

/-- The walk alone, without the shortcut for a capture that continues the last one. -/
theorem walk_longest (prior current : Text) :
    Matched current prior (overlapLoop current (kmpPrefixFunction current) 0 prior) ∧
      ∀ k, Matched current prior k → k ≤ overlapLoop current (kmpPrefixFunction current) 0 prior := by
  have h0 : Matched current [] 0 := matched_zero current []
  obtain ⟨ht, hlen⟩ := kmpPrefixFunction_tight current
  exact ⟨overlapLoop_matched (kmpPrefixFunction_table current) prior [] h0,
    overlapLoop_longest (kmpPrefixFunction_table current) ht hlen prior [] h0 fun _ hj => hj.le_length⟩

/-- What the splice leaves out of a capture closes the capture before it. -/
theorem overlap_matched (prior current : Text) :
    Matched current prior (computeCaptureOverlap prior current) := by
  unfold computeCaptureOverlap
  split
  · exact matched_zero current prior
  · split
    next h =>
      refine ⟨h.length_le, ?_⟩
      rw [← List.prefix_iff_eq_take.mp h]
    next => exact (walk_longest prior current).1

theorem overlap_longest {prior current : Text} {k : Nat} (h : Matched current prior k) :
    k ≤ computeCaptureOverlap prior current := by
  have hk := h.le_length
  unfold computeCaptureOverlap
  split
  next hnil =>
    rcases hnil with hnil | hnil
    · rwa [hnil] at hk
    · have hle := h.1
      rwa [hnil] at hle
  · split
    · exact hk
    · exact (walk_longest prior current).2 k h

/-- The overlap is the greatest length at which the end of the last capture is
the beginning of the next one, and the walk without the shortcut finds it too. -/
theorem overlap_isGreatest (prior current : Text) :
    IsGreatest {k | k ≤ prior.length ∧ k ≤ current.length ∧ prior.drop (prior.length - k) = current.take k}
        (computeCaptureOverlap prior current) ∧
      overlapLoop current (kmpPrefixFunction current) 0 prior = computeCaptureOverlap prior current := by
  obtain ⟨hwalk, hmax⟩ := walk_longest prior current
  refine ⟨⟨matched_iff.mp (overlap_matched prior current), ?_⟩, ?_⟩
  · intro k hk
    exact overlap_longest (matched_iff.mpr hk)
  · exact Nat.le_antisymm (overlap_longest hwalk) (hmax _ (overlap_matched prior current))

/-- The next capture stands twice inside the last one and closes it. -/
example : computeCaptureOverlap (Text.lit "aabaaba") (Text.lit "aaba") = 4 := by
  decide +kernel

end JJMCP.Overlap
