import JJMCP.Truncate
import JJMCP.Lib.Utf8

namespace JJMCP.ByteTruncation

open Lib.Utf8 Text Truncate

def tailNote (omitted : Nat) : Text :=
  lit "[JJMCP truncated: omitted " ++ (decimal omitted ++ (lit " earlier byte(s)]" ++ [nl]))

def headNote (omitted : Nat) : Text :=
  lit "[JJMCP truncated: omitted " ++ (decimal omitted ++ lit " byte(s)]")

/-- The note starts a line of its own. -/
def closeLine (t : Text) : Text := if t ≠ [] ∧ t.getLast? ≠ some nl then t ++ [nl] else t

/-- Whole characters, no longer than the limit. -/
def Fits (maxBytes : Nat) (t : Text) : Prop := Valid t ∧ t.length ≤ maxBytes

/-- No part of this kind that fits is longer. -/
def Longest (maxBytes : Nat) (part : Text → Prop) (kept : Text) : Prop :=
  part kept ∧ Fits maxBytes kept ∧ ∀ s, part s → Fits maxBytes s → s.length ≤ kept.length

theorem prefixLoop_boundary {t : Text} (h : Valid t) {keep : Nat} (hk : keep ≤ t.length) :
    Boundary t (prefixLoop t keep) ∧ prefixLoop t keep ≤ keep ∧
      ∀ q ≤ keep, Boundary t q → q ≤ prefixLoop t keep := by
  induction keep with
  | zero => exact ⟨boundary_zero h, Nat.le_refl _, fun q hq _ => hq⟩
  | succ keep ih =>
      rw [prefixLoop]
      split
      next hcont =>
        obtain ⟨hb, hle, hmax⟩ := ih (Nat.le_of_succ_le hk)
        refine ⟨hb, Nat.le_succ_of_le hle, fun q hq hqb => ?_⟩
        obtain ⟨c, hc, hcc⟩ := Option.any_eq_true _ _ |>.mp hcont
        have hne : q ≠ keep + 1 := by
          rintro rfl
          rw [show isUtf8Continuation c = isContinuation c from rfl, hqb.2 c hc] at hcc
          exact absurd hcc (by decide)
        exact hmax q (by omega) hqb
      next hcont =>
        refine ⟨⟨hk, fun c hc => ?_⟩, Nat.le_refl _, fun q hq _ => hq⟩
        rw [hc, Option.any_some, Bool.not_eq_true] at hcont
        exact hcont

section

variable {text : Text} {maxBytes : Nat}

theorem suffixStart_eq (hpos : 1 ≤ maxBytes) (hover : maxBytes < text.length) :
    utf8SafeSuffixStart text (text.length - maxBytes) = text.length - maxBytes +
      ((text.drop (text.length - maxBytes)).takeWhile isContinuation).length := by
  rw [utf8SafeSuffixStart, if_neg (by omega)]
  rfl

theorem tail_longest (h : Valid text) (hpos : 1 ≤ maxBytes) (hover : maxBytes < text.length) :
    utf8SafeSuffixStart text (text.length - maxBytes) ≤ text.length ∧
      Longest maxBytes (· <:+ text) (text.drop (utf8SafeSuffixStart text (text.length - maxBytes))) := by
  rw [suffixStart_eq hpos hover]
  obtain ⟨hb, hmin⟩ := @next_boundary text (text.length - maxBytes) (Nat.sub_le _ _)
  refine ⟨hb.1, List.drop_suffix _ _, ⟨(h.cut hb).2, ?_⟩, ?_⟩
  · rw [List.length_drop]
    omega
  · rintro s ⟨r, rfl⟩ ⟨hs, hlen⟩
    have hr : Boundary (r ++ s) r.length := (boundary_append r s 0).mpr (boundary_zero hs)
    have hle := hmin _ (by rw [List.length_append]; omega) hr
    have hall : (r ++ s).length = r.length + s.length := List.length_append
    rw [List.length_drop]
    omega

theorem head_longest (h : Valid text) (hover : maxBytes < text.length) :
    utf8SafePrefixLength text maxBytes ≤ text.length ∧
      Longest maxBytes (· <+: text) (text.take (utf8SafePrefixLength text maxBytes)) := by
  rw [utf8SafePrefixLength, if_neg (by omega)]
  obtain ⟨hb, hle, hmax⟩ := prefixLoop_boundary h (Nat.le_of_lt hover)
  refine ⟨hb.1, List.take_prefix _ _, ⟨(h.cut hb).1, ?_⟩, ?_⟩
  · rw [List.length_take]
    omega
  · rintro s ⟨r, rfl⟩ ⟨hs, hlen⟩
    have hr : Boundary (s ++ r) (s.length + 0) := (boundary_append s r 0).mpr (boundary_zero (hs.of_append h))
    have hle := hmax _ hlen hr
    rw [List.length_take]
    omega

theorem valid_note (n : Nat) {what : Text} (hwhat : ∀ c ∈ what, c < 128) :
    Valid (lit "[JJMCP truncated: omitted " ++ (decimal n ++ what)) := by
  refine valid_ascii fun c hc => ?_
  rcases List.mem_append.mp hc with hc | hc
  · have hnote : ∀ c ∈ lit "[JJMCP truncated: omitted ", c < 128 := by decide +kernel
    exact hnote c hc
  · rcases List.mem_append.mp hc with hc | hc
    · exact Nat.lt_of_le_of_lt (decimal_digit hc).2 (by decide)
    · exact hwhat c hc

theorem valid_closeLine (h : Valid text) : Valid (closeLine text) := by
  rw [closeLine]
  split
  · exact h.append (by decide)
  · exact h

/-- Both byte truncations keep the longest whole-character part within the limit. -/
theorem byte_truncation_longest (h : Valid text) (hpos : 1 ≤ maxBytes) :
    (text.length ≤ maxBytes → truncateBytesTail text maxBytes = text ∧ truncateBytes text maxBytes = text) ∧
      (maxBytes < text.length →
        (∃ kept omitted, truncateBytesTail text maxBytes = tailNote omitted ++ kept ∧
          kept.length + omitted = text.length ∧ Longest maxBytes (· <:+ text) kept) ∧
        ∃ kept omitted, truncateBytes text maxBytes = closeLine kept ++ headNote omitted ∧
          kept.length + omitted = text.length ∧ Longest maxBytes (· <+: text) kept) ∧
      Valid (truncateBytesTail text maxBytes) ∧ Valid (truncateBytes text maxBytes) := by
  have hfits : text.length ≤ maxBytes →
      truncateBytesTail text maxBytes = text ∧ truncateBytes text maxBytes = text := by
    intro hle
    have h0 : maxBytes ≠ 0 := Nat.ne_of_gt hpos
    rw [truncateBytesTail, truncateBytes, if_neg h0, if_neg h0, if_pos hle, if_pos hle]
    exact ⟨rfl, rfl⟩
  by_cases hle : text.length ≤ maxBytes
  · refine ⟨hfits, fun hover => absurd hle (by omega), ?_⟩
    rw [(hfits hle).1, (hfits hle).2]
    exact ⟨h, h⟩
  · have hover : maxBytes < text.length := Nat.lt_of_not_le hle
    obtain ⟨htail, htailMax⟩ := tail_longest h hpos hover
    obtain ⟨hhead, hheadMax⟩ := head_longest h hover
    have htailEq : truncateBytesTail text maxBytes =
        tailNote (utf8SafeSuffixStart text (text.length - maxBytes)) ++
          text.drop (utf8SafeSuffixStart text (text.length - maxBytes)) := by
      rw [truncateBytesTail, if_neg (by omega), if_neg hle]
      simp [tailNote]
    have hheadEq : truncateBytes text maxBytes = closeLine (text.take (utf8SafePrefixLength text maxBytes)) ++
        headNote (text.length - utf8SafePrefixLength text maxBytes) := by
      rw [truncateBytes, if_neg (by omega), if_neg hle]
      rfl
    refine ⟨hfits, fun _ => ⟨⟨_, _, htailEq, ?_, htailMax⟩, ⟨_, _, hheadEq, ?_, hheadMax⟩⟩, ?_, ?_⟩
    · rw [List.length_drop]
      omega
    · rw [List.length_take]
      omega
    · rw [htailEq]
      exact (valid_note _ (by decide +kernel)).append htailMax.2.1.1
    · rw [hheadEq]
      exact (valid_closeLine hheadMax.2.1.1).append (valid_note _ (by decide +kernel))

theorem byte_truncation_longest_accented :
    Valid (truncateBytesTail [97, 195, 169, 98] 2) ∧ Valid (truncateBytes [97, 195, 169, 98] 2) :=
  (byte_truncation_longest (show Valid [97, 195, 169, 98] by decide) (by decide)).2.2

/-- A limit inside a character keeps none of it. -/
example : truncateBytesTail [195, 169] 1 = tailNote 2 ∧ truncateBytes [195, 169] 1 = headNote 2 := by
  decide

end

end JJMCP.ByteTruncation
