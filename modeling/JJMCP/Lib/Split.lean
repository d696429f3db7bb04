import JJMCP.Lib.Border
import JJMCP.Lib.Occurrence

namespace JJMCP.Lib.Split

open Border Occurrence

variable {α : Type} [DecidableEq α]

/-- The parts between occurrences of the separator, taken from the left. The
number bounds the cuts. -/
def split (sep : List α) : Nat → List α → List (List α)
  | 0, text => [text]
  | cuts + 1, text =>
      match find sep text with
      | none => [text]
      | some p => text.take p :: split sep cuts (text.drop (p + sep.length))

/-- No proper beginning of the text closes it. -/
def Unbordered (sep : List α) : Prop := ∀ k < sep.length, Matched sep sep k → k = 0

variable {sep : List α}

omit [DecidableEq α] in
theorem unbordered_of_head {c : α} {cs : List α} (h : c ∉ cs) : Unbordered (c :: cs) := by
  rintro (_ | k) hk hm
  · rfl
  · obtain ⟨r, hr⟩ := hm.2
    have hlen := congrArg List.length hr
    simp only [List.length_append, List.length_take, List.length_cons] at hlen hk
    cases r with
    | nil => simp only [List.length_nil] at hlen; omega
    | cons d ds =>
        rw [List.cons_append, List.cons.injEq, List.take_succ_cons] at hr
        exact absurd (hr.2 ▸ by simp) h

omit [DecidableEq α] in
/-- No occurrence of the separator straddles a part's end and the separator after it. -/
theorem le_of_at {v rest : List α} (hsep : Unbordered sep) (hv : ¬ sep <:+: v) {q : Nat}
    (h : At sep (v ++ (sep ++ rest)) q) : v.length ≤ q := by
  by_contra hq
  obtain ⟨r, hr⟩ := h
  rw [List.drop_append_of_le_length (by omega)] at hr
  rcases List.append_eq_append_iff.mp hr with ⟨a, ha, -⟩ | ⟨b, hb, hrest⟩
  · exact hv ((show sep <+: v.drop q from ⟨a, ha.symm⟩).isInfix.trans (List.drop_suffix q v).isInfix)
  · have hlen := congrArg List.length hb
    rw [List.length_append, List.length_drop] at hlen
    have hpre : b <+: sep := by
      apply List.prefix_of_prefix_length_le (show b <+: sep ++ rest from ⟨r, hrest.symm⟩) (List.prefix_append _ _)
      omega
    have htake : sep.take b.length = b := (List.prefix_iff_eq_take.mp hpre).symm
    have hzero := hsep b.length (by omega) ⟨hpre.length_le, by rw [htake]; exact ⟨v.drop q, hb.symm⟩⟩
    have hnil : b = [] := List.eq_nil_of_length_eq_zero hzero
    rw [hnil, List.append_nil] at hb
    exact hv (hb ▸ (List.drop_suffix q v).isInfix)

theorem find_append_sep {v : List α} (hsep : Unbordered sep) (hv : ¬ sep <:+: v) (rest : List α) :
    find sep (v ++ (sep ++ rest)) = some v.length := by
  refine find_eq_some.mpr ⟨by simp, at_length v sep rest, ?_⟩
  intro q hq hat
  have hle := le_of_at hsep hv hat
  omega

/-- Parts that were joined are given back. -/
theorem split_intercalate (hsep : Unbordered sep) {vs : List (List α)} (hne : vs ≠ [])
    (hv : ∀ v ∈ vs, ¬ sep <:+: v) {cuts : Nat} (hc : vs.length ≤ cuts + 1) :
    split sep cuts (sep.intercalate vs) = vs := by
  induction vs generalizing cuts with
  | nil => exact absurd rfl hne
  | cons v vs ih =>
      have hfirst := hv v (by simp)
      cases vs with
      | nil =>
          rw [List.intercalate_singleton]
          cases cuts with
          | zero => rfl
          | succ cuts => rw [split, find_eq_none.mpr hfirst]
      | cons w ws =>
          cases cuts with
          | zero => simp at hc
          | succ cuts =>
              have hrest : split sep cuts (sep.intercalate (w :: ws)) = w :: ws :=
                ih (by simp) (fun x hx => hv x (by simp [hx])) (by simpa using hc)
              have hdrop : (v ++ (sep ++ sep.intercalate (w :: ws))).drop (v.length + sep.length) =
                  sep.intercalate (w :: ws) := by
                rw [← List.drop_drop, List.drop_left, List.drop_left]
              rw [List.intercalate_cons_cons, List.append_assoc, split, find_append_sep hsep hfirst]
              simp only [hdrop, List.take_left, hrest]

theorem split_ne_nil (sep : List α) (cuts : Nat) (text : List α) : split sep cuts text ≠ [] := by
  cases cuts with
  | zero => simp [split]
  | succ cuts =>
      rw [split]
      cases find sep text <;> simp

theorem intercalate_split {cuts : Nat} {text : List α} : sep.intercalate (split sep cuts text) = text := by
  induction cuts generalizing text with
  | zero => exact List.intercalate_singleton
  | succ cuts ih =>
      rw [split]
      cases hf : find sep text with
      | none => exact List.intercalate_singleton
      | some p =>
          obtain ⟨-, ⟨r, hr⟩, -⟩ := find_eq_some.mp hf
          have hne := split_ne_nil sep cuts (text.drop (p + sep.length))
          have hdrop : text.drop (p + sep.length) = r := by
            rw [← List.drop_drop, ← hr, List.drop_left]
          rw [List.intercalate_cons_of_ne_nil hne, ih, hdrop, List.append_assoc, hr, List.take_append_drop]

/-- With a cut for every symbol no part holds a separator. -/
theorem split_free (hne : sep ≠ []) {cuts : Nat} {text : List α} (hc : text.length ≤ cuts) :
    ∀ v ∈ split sep cuts text, ¬ sep <:+: v := by
  induction cuts generalizing text with
  | zero =>
      have hnil : text = [] := List.eq_nil_of_length_eq_zero (by omega)
      simp [split, hnil, hne]
  | succ cuts ih =>
      rw [split]
      cases hf : find sep text with
      | none => simpa using find_eq_none.mp hf
      | some p =>
          obtain ⟨hp, hat, hfirst⟩ := find_eq_some.mp hf
          have hpos := List.length_pos_iff.mpr hne
          have hrest : ∀ v ∈ split sep cuts (text.drop (p + sep.length)), ¬ sep <:+: v :=
            ih (by rw [List.length_drop]; omega)
          simp only [List.mem_cons, forall_eq_or_imp]
          refine ⟨?_, hrest⟩
          intro hin
          obtain ⟨q, hq⟩ := infix_iff_at.mp hin
          have hb := hq.bound hne
          rw [List.length_take] at hb
          apply hfirst q (by omega)
          have htext : text = text.take p ++ text.drop p := (List.take_append_drop p text).symm
          rw [htext]
          exact (at_append_left _ (by rw [List.length_take]; omega)).mpr hq

end JJMCP.Lib.Split
