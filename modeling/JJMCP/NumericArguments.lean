import JJMCP.Tools

namespace JJMCP.NumericArguments

open Text Tools

/-- The integers that the JSON parser keeps: signed or unsigned, of 64 bits. -/
def Represents (v : Int) : Prop := -2 ^ 63 ≤ v ∧ v < 2 ^ 64

/-- The value nearest to v between the bounds. -/
def clampTo (lo hi : Nat) (v : Int) : Int := max (lo : Int) (min v hi)

/-- The conversion to 32 bits leaves the value where it is against the bounds:
it fits, or what remains of it is past the bound that it is past itself. -/
def Kept (lo hi : Nat) (v : Int) : Prop :=
  lo = hi ∨ (-2 ^ 31 ≤ v ∧ v < 2 ^ 31) ∨ (2 ^ 31 ≤ v ∧ hi ≤ v % 2 ^ 32 ∧ v % 2 ^ 32 < 2 ^ 31) ∨
    (v < -2 ^ 31 ∧ (v % 2 ^ 32 ≤ lo ∨ 2 ^ 31 ≤ v % 2 ^ 32))

/-- The deadline of one pass, and the lines each of its captures asks for. -/
def deadline (start timeoutMs : Nat) : Nat := start + timeoutMs

def pollCaptureLines (captureLines : Nat) : Nat := max 10000 (min (captureLines + 8000) kMaxCaptureLines)

theorem clampTo_mono (lo hi : Nat) {v w : Int} (h : v ≤ w) : clampTo lo hi v ≤ clampTo lo hi w :=
  max_le_max_left _ (min_le_min_right _ h)

theorem pollCaptureLines_mono {m n : Nat} (h : m ≤ n) : pollCaptureLines m ≤ pollCaptureLines n := by
  simp only [pollCaptureLines, kMaxCaptureLines]
  omega

theorem bmod_cases (v : Int) :
    (v % 2 ^ 32 < 2 ^ 31 ∧ v.bmod (2 ^ 32) = v % 2 ^ 32) ∨
      (2 ^ 31 ≤ v % 2 ^ 32 ∧ v.bmod (2 ^ 32) = v % 2 ^ 32 - 2 ^ 32) := by
  simp only [Int.bmod]
  split
  · left
    omega
  · right
    omega

theorem optionalInt_present {args : Json} {key : String} {v : Int} (h : args.get? (lit key) = some (.int v))
    (default lo hi : Nat) : (args.optionalInt key default lo hi : Int) = clampTo lo hi (v.bmod (2 ^ 32)) := by
  have hpos : 0 ≤ clampTo lo hi (v.bmod (2 ^ 32)) := Int.le_trans (Int.natCast_nonneg lo) (le_max_left _ _)
  rw [Json.optionalInt, h]
  exact Int.toNat_of_nonneg hpos

theorem clampTo_bmod_iff {lo hi : Nat} (hb : lo ≤ hi) (hi31 : hi < 2 ^ 31) (v : Int) :
    clampTo lo hi (v.bmod (2 ^ 32)) = clampTo lo hi v ↔ Kept lo hi v := by
  have hdiv := Int.emod_add_mul_ediv v (2 ^ 32)
  have hlow := Int.emod_nonneg v (b := 2 ^ 32) (by decide)
  have hhigh := Int.emod_lt_of_pos v (b := 2 ^ 32) (by decide)
  unfold clampTo Kept
  rcases bmod_cases v with ⟨hm, he⟩ | ⟨hm, he⟩
  · rw [he]
    omega
  · rw [he]
    omega

/-- The tools clamp a number exactly where the conversion before the clamp keeps
its place. Between two such numbers the larger one is the longer deadline and
the larger window. -/
theorem optionalInt_clamps_iff {lo hi : Nat} (hb : lo ≤ hi) (hi31 : hi < 2 ^ 31) (key : String) (default : Nat)
    {args : Json} {v : Int} (hargs : args.get? (lit key) = some (.int v)) :
    ((args.optionalInt key default lo hi : Int) = clampTo lo hi v ↔ Kept lo hi v) ∧
      (Kept lo hi v → ∀ (args' : Json) (w : Int), args'.get? (lit key) = some (.int w) → Kept lo hi w →
        v ≤ w → args.optionalInt key default lo hi ≤ args'.optionalInt key default lo hi ∧
          (∀ start, deadline start (args.optionalInt key default lo hi) ≤
            deadline start (args'.optionalInt key default lo hi)) ∧
          pollCaptureLines (args.optionalInt key default lo hi) ≤
            pollCaptureLines (args'.optionalInt key default lo hi)) := by
  have hclamp {args : Json} {v : Int} (h : args.get? (lit key) = some (.int v)) :
      (args.optionalInt key default lo hi : Int) = clampTo lo hi v ↔ Kept lo hi v := by
    rw [optionalInt_present h]
    exact clampTo_bmod_iff hb hi31 v
  refine ⟨hclamp hargs, ?_⟩
  intro hk args' w hargs' hk' hvw
  have hle : args.optionalInt key default lo hi ≤ args'.optionalInt key default lo hi := by
    have hmono := clampTo_mono lo hi hvw
    rw [← (hclamp hargs).mpr hk, ← (hclamp hargs').mpr hk'] at hmono
    exact Int.ofNat_le.mp hmono
  exact ⟨hle, fun start => Nat.add_le_add_left hle start, pollCaptureLines_mono hle⟩

def timeoutArgs (v : Int) : Json := .obj [(lit "timeout_ms", .int v)]

theorem optionalInt_clamps_iff_timeout :
    ((timeoutArgs 900000).optionalInt "timeout_ms" 10000 1 600000 : Int) = clampTo 1 600000 900000 ↔
      Kept 1 600000 900000 :=
  (optionalInt_clamps_iff (by decide) (by decide) "timeout_ms" 10000 rfl).1

/-- A request for 2 to the 32 milliseconds ends after one of them. -/
theorem not_optionalInt_clamps :
    ¬ ∀ (args : Json) (key : String) (default lo hi : Nat) (v : Int), lo ≤ hi → hi < 2 ^ 31 → Represents v →
      args.get? (lit key) = some (.int v) → (args.optionalInt key default lo hi : Int) = clampTo lo hi v := by
  intro h
  have hrep : Represents (2 ^ 32) := by
    unfold Represents
    decide
  have hclamp := h (timeoutArgs (2 ^ 32)) "timeout_ms" 10000 1 600000 (2 ^ 32) (by decide) (by decide) hrep rfl
  exact absurd hclamp (by decide +kernel)

end JJMCP.NumericArguments
