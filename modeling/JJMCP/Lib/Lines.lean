import JJMCP.Lib.Occurrence

namespace JJMCP.Lib.Lines

open Occurrence

variable {α : Type} {sep : α}

/-- Empty, or closed by the separator: further text starts a new line. -/
def Terminated (sep : α) (t : List α) : Prop := t = [] ∨ ∃ l, t = l ++ [sep]

def unlines (sep : α) (lines : List (List α)) : List α := lines.flatMap (· ++ [sep])

@[simp] theorem unlines_nil : unlines sep [] = [] := rfl

@[simp] theorem unlines_cons (l : List α) (ls : List (List α)) :
    unlines sep (l :: ls) = l ++ sep :: unlines sep ls := by
  simp [unlines]

theorem unlines_append (as bs : List (List α)) :
    unlines sep (as ++ bs) = unlines sep as ++ unlines sep bs := by
  simp [unlines]

theorem intercalate_concat {ls : List (List α)} (hne : ls ≠ []) :
    [sep].intercalate ls ++ [sep] = unlines sep ls := by
  induction ls with
  | nil => exact absurd rfl hne
  | cons l ls ih =>
      cases ls with
      | nil => simp [List.intercalate_singleton]
      | cons l' ls =>
          rw [List.intercalate_cons_of_ne_nil (by simp), unlines_cons, ← ih (by simp)]
          simp

theorem intercalate_append {as bs : List (List α)} (ha : as ≠ []) (hb : bs ≠ []) :
    [sep].intercalate (as ++ bs) = [sep].intercalate as ++ sep :: [sep].intercalate bs := by
  have hall : [sep].intercalate (as ++ bs) ++ [sep] = unlines sep (as ++ bs) := intercalate_concat (by simp [ha])
  rw [unlines_append, ← intercalate_concat ha, ← intercalate_concat hb, ← List.append_assoc,
    List.append_cancel_right_eq] at hall
  rw [hall, List.append_assoc, List.singleton_append]

theorem unlines_eq_nil {lines : List (List α)} : unlines sep lines = [] ↔ lines = [] := by
  cases lines <;> simp

theorem unlines_isSuffix {as bs : List (List α)} (h : as <:+ bs) : unlines sep as <:+ unlines sep bs := by
  obtain ⟨gone, rfl⟩ := h
  rw [unlines_append]
  exact List.suffix_append _ _

theorem terminated_nil : Terminated sep ([] : List α) := .inl rfl

theorem terminated_concat (t : List α) : Terminated sep (t ++ [sep]) := .inr ⟨t, rfl⟩

theorem Terminated.append {a b : List α} (ha : Terminated sep a) (hb : Terminated sep b) :
    Terminated sep (a ++ b) := by
  rcases hb with rfl | ⟨l, rfl⟩
  · simpa using ha
  · exact .inr ⟨a ++ l, by simp⟩

theorem terminated_unlines (lines : List (List α)) : Terminated sep (unlines sep lines) := by
  induction lines with
  | nil => exact terminated_nil
  | cons l ls ih =>
      have h : unlines sep (l :: ls) = (l ++ [sep]) ++ unlines sep ls := by simp
      rw [h]
      exact (terminated_concat l).append ih

theorem Terminated.suffix {a b : List α} (h : Terminated sep (a ++ b)) : Terminated sep b := by
  rcases List.eq_nil_or_concat b with rfl | ⟨t, x, rfl⟩
  · exact terminated_nil
  · rcases h with h | ⟨l, h⟩
    · simp at h
    · rw [List.concat_eq_append, ← List.append_assoc] at h
      have hx := (List.append_inj' h rfl).2
      rw [List.concat_eq_append, hx]
      exact terminated_concat t

theorem Terminated.isSuffix {s t : List α} (h : Terminated sep t) (hs : s <:+ t) : Terminated sep s := by
  obtain ⟨a, rfl⟩ := hs
  exact h.suffix

theorem infix_append_terminated {pat a : List α} (b : List α) (ha : Terminated sep a)
    (hsep : sep ∉ pat) (hne : pat ≠ []) : pat <:+: a ++ b ↔ pat <:+: a ∨ pat <:+: b := by
  rcases ha with rfl | ⟨l, rfl⟩
  · simp [hne]
  · have hl : pat <:+: l ++ [sep] ↔ pat <:+: l := by
      rw [infix_sep hsep hne]
      simp [hne]
    rw [hl, List.append_assoc, List.singleton_append, infix_sep hsep hne]

theorem at_append_terminated {pat a : List α} (b : List α) (ha : Terminated sep a)
    (hsep : sep ∉ pat) (hne : pat ≠ []) (p : Nat) :
    At pat (a ++ b) p ↔ (p + pat.length ≤ a.length ∧ At pat a p) ∨
      (a.length ≤ p ∧ At pat b (p - a.length)) := by
  have hpos : 0 < pat.length := List.length_pos_iff.mpr hne
  rcases ha with rfl | ⟨l, rfl⟩
  · simp only [List.nil_append, List.length_nil, Nat.le_zero_eq, Nat.zero_le, true_and, Nat.sub_zero]
    constructor
    · exact .inr
    · rintro (⟨h, _⟩ | h)
      · omega
      · exact h
  · rw [List.append_assoc, List.singleton_append, at_sep hsep hne]
    simp only [List.length_append, List.length_singleton]
    constructor
    · rintro (⟨hp, h⟩ | ⟨hp, h⟩)
      · exact .inl ⟨by omega, (at_append_left _ hp).mpr h⟩
      · exact .inr ⟨by omega, h⟩
    · rintro (⟨hp, h⟩ | ⟨hp, h⟩)
      · rcases (at_sep hsep hne l [] p).mp h with h | ⟨_, h⟩
        · exact .inl h
        · exact absurd (h.bound hne) (by simp [hne])
      · exact .inr ⟨by omega, h⟩

theorem infix_unlines {pat : List α} (lines : List (List α)) (hsep : sep ∉ pat) (hne : pat ≠ []) :
    pat <:+: unlines sep lines ↔ ∃ l ∈ lines, pat <:+: l := by
  induction lines with
  | nil => simp [hne]
  | cons l ls ih => simp [infix_sep hsep hne, ih]

/-- Line-aligned cuts of a text are cuts of its list of lines. -/
theorem unlines_split {lines : List (List α)} (hl : ∀ l ∈ lines, sep ∉ l) {a b : List α}
    (ha : Terminated sep a) (h : unlines sep lines = a ++ b) :
    ∃ k, a = unlines sep (lines.take k) ∧ b = unlines sep (lines.drop k) := by
  induction lines generalizing a with
  | nil =>
      have h' : a = [] ∧ b = [] := by simpa using h.symm
      exact ⟨0, by simp [h'.1], by simp [h'.2]⟩
  | cons l ls ih =>
      have hnl : sep ∉ l := hl l (by simp)
      rcases ha with rfl | ⟨t, rfl⟩
      · exact ⟨0, by simp, by simpa using h.symm⟩
      · have h' : l ++ sep :: unlines sep ls = t ++ sep :: b := by simpa using h
        rcases List.append_eq_append_iff.mp h' with ⟨d, ht, hd⟩ | ⟨d, ht, hd⟩
        · cases d with
          | nil =>
              have hb : unlines sep ls = b := by simpa using hd
              exact ⟨1, by simp [ht], by simpa using hb.symm⟩
          | cons x d =>
              have hx : x = sep := by
                have := hd
                simp only [List.cons_append, List.cons.injEq] at this
                exact this.1.symm
              subst hx
              have hd' : unlines x ls = (d ++ [x]) ++ b := by simpa using hd
              obtain ⟨k, hk, hb⟩ := ih (fun l hm => hl l (by simp [hm])) (terminated_concat d) hd'
              exact ⟨k + 1, by simp [ht, ← hk], by simpa using hb⟩
        · cases d with
          | nil =>
              have hb : unlines sep ls = b := by simpa using hd.symm
              exact ⟨1, by simp [ht], by simpa using hb.symm⟩
          | cons x d =>
              have hx : x = sep := by
                have := hd
                simp only [List.cons_append, List.cons.injEq] at this
                exact this.1.symm
              subst hx
              exact absurd (by simp [ht]) hnl

def closedLines [DecidableEq α] (sep : α) (line : List α) : List α → List (List α)
  | [] => []
  | c :: cs => if c = sep then line :: closedLines sep [] cs else closedLines sep (line ++ [c]) cs

variable [DecidableEq α]

/-- What a text leaves behind its last separator. -/
def openLine (sep : α) (line : List α) : List α → List α
  | [] => line
  | c :: cs => if c = sep then openLine sep [] cs else openLine sep (line ++ [c]) cs

theorem unlines_closedLines (line t : List α) :
    unlines sep (closedLines sep line t) ++ openLine sep line t = line ++ t := by
  induction t generalizing line with
  | nil => simp [closedLines, openLine]
  | cons c cs ih =>
      by_cases hc : c = sep
      · simp [closedLines, openLine, hc, ih]
      · simp [closedLines, openLine, hc, ih]

theorem sep_notMem_lines {line : List α} (hline : sep ∉ line) (t : List α) :
    (∀ l ∈ closedLines sep line t, sep ∉ l) ∧ sep ∉ openLine sep line t := by
  induction t generalizing line with
  | nil => exact ⟨by simp [closedLines], hline⟩
  | cons c cs ih =>
      by_cases hc : c = sep
      · obtain ⟨hclosed, hopen⟩ := ih List.not_mem_nil
        simp only [closedLines, openLine, hc, if_true, List.mem_cons, forall_eq_or_imp]
        exact ⟨⟨hline, hclosed⟩, hopen⟩
      · simp only [closedLines, openLine, hc, if_false]
        exact ih (by simp [hline, Ne.symm hc])

theorem lines_append (line a b : List α) :
    closedLines sep line (a ++ b) = closedLines sep line a ++ closedLines sep (openLine sep line a) b ∧
      openLine sep line (a ++ b) = openLine sep (openLine sep line a) b := by
  induction a generalizing line with
  | nil => exact ⟨rfl, rfl⟩
  | cons c cs ih =>
      by_cases hc : c = sep
      · simp [closedLines, openLine, hc, ih]
      · simp [closedLines, openLine, hc, ih]

theorem openLine_terminated {a : List α} (ha : Terminated sep a) : openLine sep [] a = [] := by
  rcases ha with rfl | ⟨l, rfl⟩
  · rfl
  · rw [(lines_append [] l [sep]).2]
    simp [openLine]

theorem closedLines_append_terminated {a : List α} (b : List α) (ha : Terminated sep a) :
    closedLines sep [] (a ++ b) = closedLines sep [] a ++ closedLines sep [] b := by
  rw [(lines_append [] a b).1, openLine_terminated ha]

theorem closedLines_line {l : List α} (hl : sep ∉ l) (line : List α) :
    closedLines sep line (l ++ [sep]) = [line ++ l] := by
  induction l generalizing line with
  | nil => simp [closedLines]
  | cons c cs ih =>
      obtain ⟨hc, hcs⟩ := not_or.mp (mt List.mem_cons.mpr hl)
      simp [closedLines, Ne.symm hc, ih hcs]

/-- Text before the first line stands in front of it. -/
theorem closedLines_pending (line t : List α) :
    closedLines sep line t = (closedLines sep [] t).modifyHead (line ++ ·) := by
  induction t generalizing line with
  | nil => rfl
  | cons c cs ih =>
      by_cases hc : c = sep
      · simp [closedLines, hc]
      · simp only [closedLines, hc, if_false, List.nil_append]
        rw [ih (line ++ [c]), ih [c], List.modifyHead_modifyHead]
        simp [Function.comp_def]

theorem closedLines_unlines {lines : List (List α)} (hl : ∀ l ∈ lines, sep ∉ l) :
    closedLines sep [] (unlines sep lines) = lines := by
  induction lines with
  | nil => rfl
  | cons l ls ih =>
      have hcons : unlines sep (l :: ls) = (l ++ [sep]) ++ unlines sep ls := by simp
      rw [hcons, closedLines_append_terminated _ (terminated_concat l), closedLines_line (hl l (by simp)),
        ih fun l' h => hl l' (by simp [h]), List.nil_append, List.singleton_append]

theorem prefix_of_unlines {as bs : List (List α)} (ha : ∀ l ∈ as, sep ∉ l) (hb : ∀ l ∈ bs, sep ∉ l)
    (h : unlines sep as <+: unlines sep bs) : as <+: bs := by
  obtain ⟨r, hr⟩ := h
  have hlines := congrArg (closedLines sep []) hr
  rw [closedLines_append_terminated _ (terminated_unlines as), closedLines_unlines ha, closedLines_unlines hb] at hlines
  exact ⟨_, hlines⟩

theorem mem_closedLines_isInfix {line t l : List α} (h : l ∈ closedLines sep line t) : l <:+: line ++ t := by
  induction t generalizing line with
  | nil => simp [closedLines] at h
  | cons c cs ih =>
      by_cases hc : c = sep
      · simp only [closedLines, hc, if_true, List.mem_cons] at h
        rcases h with rfl | h
        · exact List.infix_append_left
        · have hi := ih h
          rw [List.nil_append] at hi
          exact List.infix_append_of_infix_right (List.infix_cons hi)
      · simp only [closedLines, hc, if_false] at h
        simpa using ih h

/-- The lines of a text; a final separator opens no further line. -/
def lines (sep : α) (t : List α) : List (List α) :=
  closedLines sep [] t ++ if openLine sep [] t = [] then [] else [openLine sep [] t]

theorem sep_notMem_of_mem {t l : List α} (h : l ∈ lines sep t) : sep ∉ l := by
  obtain ⟨hclosed, hopen⟩ := @sep_notMem_lines _ sep _ [] List.not_mem_nil t
  rcases List.mem_append.mp h with h | h
  · exact hclosed l h
  · split at h
    · exact absurd h List.not_mem_nil
    · exact List.mem_singleton.mp h ▸ hopen

theorem lines_unlines {ls : List (List α)} (hl : ∀ l ∈ ls, sep ∉ l) : lines sep (unlines sep ls) = ls := by
  rw [lines, closedLines_unlines hl, openLine_terminated (terminated_unlines ls), if_pos rfl, List.append_nil]

theorem lines_terminated {t : List α} (h : Terminated sep t) : lines sep t = closedLines sep [] t := by
  rw [lines, openLine_terminated h, if_pos rfl, List.append_nil]

theorem lines_append_terminated {a : List α} (b : List α) (ha : Terminated sep a) :
    lines sep (a ++ b) = lines sep a ++ lines sep b := by
  rw [lines_terminated ha, lines, lines, closedLines_append_terminated b ha, (lines_append [] a b).2,
    openLine_terminated ha, List.append_assoc]

/-- Joined lines read as the lines again, but for an empty last one. -/
theorem lines_intercalate {ls : List (List α)} (hl : ∀ l ∈ ls, sep ∉ l) (hne : ls ≠ []) :
    lines sep ([sep].intercalate ls) = if ls.getLast? = some [] then ls.dropLast else ls := by
  have hall : closedLines sep [] ([sep].intercalate ls) ++ [openLine sep [] ([sep].intercalate ls)] = ls := by
    have hclosed := closedLines_unlines hl
    rw [← intercalate_concat hne, (lines_append [] _ [sep]).1] at hclosed
    simpa [closedLines] using hclosed
  generalize [sep].intercalate ls = t at hall
  subst hall
  by_cases ho : openLine sep [] t = []
  · simp [lines, ho]
  · simp [lines, ho]

end JJMCP.Lib.Lines
