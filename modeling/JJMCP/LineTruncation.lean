import JJMCP.Truncate

namespace JJMCP.LineTruncation

open Lib.Lines Text Truncate

/-- The newest lines that a limit lets through. -/
def lastLines (text : Text) (maxLines : Nat) : List Text :=
  (lines nl text).drop ((lines nl text).length - maxLines)

def tailNote (omitted : Nat) (part : Text) : Text :=
  lit "[JJMCP truncated: omitted " ++ (decimal omitted ++ (lit " earlier line(s)]" ++ nl :: part))

def headNote (omitted : Nat) : Text :=
  lit "[JJMCP truncated: omitted " ++ (decimal omitted ++ lit " line(s)]")

/-- After the note come exactly the newest lines, and with the omitted ones they
are as many as the text has. -/
def KeepsTail (text : Text) (maxLines : Nat) : Prop :=
  ∃ omitted part, truncateLinesTail text maxLines = tailNote omitted part ∧
    lines nl part = lastLines text maxLines ∧ (lines nl part).length + omitted = (lines nl text).length

/-- The same where the end of the result closes the last line. -/
def KeepsTailOpen (text : Text) (maxLines : Nat) : Prop :=
  ∃ omitted part, truncateLinesTail text maxLines = tailNote omitted part ∧
    lines nl (part ++ [nl]) = lastLines text maxLines ∧
    (lines nl (part ++ [nl])).length + omitted = (lines nl text).length

/-- Before the line of the note come exactly the oldest lines. -/
def KeepsHead (text : Text) (maxLines : Nat) : Prop :=
  ∃ omitted part, truncateLines text maxLines = part ++ headNote omitted ∧ Terminated nl part ∧
    lines nl part = (lines nl text).take maxLines ∧ (lines nl part).length + omitted = (lines nl text).length

theorem splitLoop_eq {t : Text} (h : cr ∉ t) (current : Text) :
    splitLoop current t = (closedLines nl current t, openLine nl current t) := by
  induction t generalizing current with
  | nil => rfl
  | cons c cs ih =>
      obtain ⟨hc, hcs⟩ := not_or.mp (mt List.mem_cons.mpr h)
      by_cases hnl : c = nl
      · simp [splitLoop, closedLines, openLine, hnl, show nl ≠ cr by decide, ih hcs]
      · simp [splitLoop, closedLines, openLine, Ne.symm hc, hnl, ih hcs]

theorem openLine_eq_nil {t : Text} (h : openLine nl [] t = []) : Terminated nl t := by
  have hall := @unlines_closedLines _ nl _ [] t
  rw [h, List.append_nil, List.nil_append] at hall
  exact hall ▸ terminated_unlines _

/-- split_lines and the pop of the final empty line give the lines of the text. -/
theorem countedLines_eq {text : Text} (h : cr ∉ text) : countedLines text = lines nl text := by
  by_cases ho : openLine nl [] text = []
  · rcases openLine_eq_nil ho with rfl | ⟨t, rfl⟩
    · rfl
    · simp [countedLines, splitLines, lines, splitLoop_eq h, ho]
  · simp [countedLines, splitLines, lines, splitLoop_eq h, ho]

theorem joinLoop_eq (ls : List Text) {out : Text} (h : out ≠ []) :
    ls.foldl (fun out line => (if out = [] then out else out ++ [nl]) ++ line) out =
      [nl].intercalate (out :: ls) := by
  induction ls generalizing out with
  | nil => rw [List.foldl_nil, List.intercalate_singleton]
  | cons l ls ih =>
      rw [List.foldl_cons, if_neg h, ih (by simp [h]), List.intercalate_cons_cons]
      cases ls with
      | nil => simp [List.intercalate_singleton]
      | cons l' ls => simp [List.intercalate_cons_cons]

/-- join_lines puts its newline only after text, so blank lines at the front are lost. -/
theorem joinLines_eq (ls : List Text) (a b : Nat) :
    joinLines ls a b = [nl].intercalate (((ls.take b).drop a).dropWhile List.isEmpty) := by
  rw [joinLines]
  induction (ls.take b).drop a with
  | nil => rfl
  | cons l ls ih =>
      cases l with
      | nil => simpa using ih
      | cons c cs =>
          rw [List.foldl_cons, if_pos rfl, List.nil_append, joinLoop_eq ls (by simp),
            List.dropWhile_cons_of_neg (by simp)]

theorem dropWhile_isEmpty_eq {ls : List Text} : ls.dropWhile List.isEmpty = ls ↔ ls.head? ≠ some [] := by
  cases ls with
  | nil => simp
  | cons l ls =>
      cases l with
      | nil =>
          have hlt := (List.dropWhile_suffix (l := ls) List.isEmpty).length_le
          simp only [List.dropWhile_cons, List.isEmpty_nil, if_true, List.head?_cons, ne_eq, not_true_eq_false,
            iff_false]
          intro heq
          rw [heq, List.length_cons] at hlt
          omega
      | cons c cs => simp

theorem dropWhile_isEmpty_length {ls : List Text} (h : ls.dropWhile List.isEmpty ≠ ls) :
    (ls.dropWhile List.isEmpty).length < ls.length := by
  have hsuf := List.dropWhile_suffix (l := ls) List.isEmpty
  exact Nat.lt_of_le_of_ne hsuf.length_le fun heq => h (hsuf.eq_of_length heq)

theorem joined_eq_nil {ls : List Text} :
    [nl].intercalate (ls.dropWhile List.isEmpty) = [] ↔ ls.dropWhile List.isEmpty = [] := by
  constructor
  · intro h
    cases hk : ls.dropWhile List.isEmpty with
    | nil => rfl
    | cons l ks =>
        have hfirst := List.head?_dropWhile_not List.isEmpty ls
        rw [hk, List.head?_cons] at hfirst
        have hl : l = [] := by
          rw [hk] at h
          cases ks with
          | nil => simpa [List.intercalate_singleton] using h
          | cons k ks => simp [List.intercalate_cons_cons] at h
        simp [hl] at hfirst
  · intro h
    rw [h, List.intercalate_nil]

section

variable {ls : List Text}

/-- What is left of joined lines: blank ones at the front are lost in joining, and
a blank one at the end is no line of the joined text. -/
theorem lines_joined_iff (hl : ∀ l ∈ ls, nl ∉ l) (hne : ls ≠ []) :
    lines nl ([nl].intercalate (ls.dropWhile List.isEmpty)) = ls ↔ ls.head? ≠ some [] ∧ ls.getLast? ≠ some [] := by
  by_cases hd : ls.dropWhile List.isEmpty = ls
  · rw [hd, lines_intercalate hl hne]
    have hhead := dropWhile_isEmpty_eq.mp hd
    split
    next hlast =>
      have hlen : ls.dropLast.length = ls.length - 1 := List.length_dropLast
      have hpos := List.length_pos_iff.mpr hne
      exact iff_of_false (fun heq => by rw [heq] at hlen; omega) fun h => h.2 hlast
    next hlast => exact iff_of_true rfl ⟨hhead, hlast⟩
  · have hhead := mt dropWhile_isEmpty_eq.mpr hd
    have hlt := dropWhile_isEmpty_length hd
    refine iff_of_false (fun heq => ?_) fun h => hhead h.1
    by_cases hk : ls.dropWhile List.isEmpty = []
    · rw [hk] at heq
      exact hne heq.symm
    · have hkl : ∀ l ∈ ls.dropWhile List.isEmpty, nl ∉ l := fun l h => hl l ((List.dropWhile_sublist _).subset h)
      have hlen := congrArg List.length heq
      rw [lines_intercalate hkl hk] at hlen
      split at hlen
      · rw [List.length_dropLast] at hlen
        omega
      · omega

theorem lines_closed_iff (hl : ∀ l ∈ ls, nl ∉ l) (hne : ls ≠ []) :
    lines nl ([nl].intercalate (ls.dropWhile List.isEmpty) ++ [nl]) = ls ↔ ls.head? ≠ some [] ∨ ls = [[]] := by
  by_cases hk : ls.dropWhile List.isEmpty = []
  · rw [hk]
    have hhead : ls.head? = some [] := by
      by_contra hhead
      exact hne ((dropWhile_isEmpty_eq.mpr hhead).symm.trans hk)
    rw [or_iff_right (not_not_intro hhead)]
    exact eq_comm
  · have hkl : ∀ l ∈ ls.dropWhile List.isEmpty, nl ∉ l := fun l h => hl l ((List.dropWhile_sublist _).subset h)
    rw [intercalate_concat hk, lines_unlines hkl, dropWhile_isEmpty_eq]
    refine (or_iff_left ?_).symm
    rintro rfl
    exact hk rfl

end

section

variable {text : Text} {maxLines : Nat}

theorem lastLines_length (hover : maxLines < (lines nl text).length) :
    (lastLines text maxLines).length = maxLines := by
  rw [lastLines, List.length_drop]
  omega

theorem nl_notMem_lastLines : ∀ l ∈ lastLines text maxLines, nl ∉ l :=
  fun _ hl => sep_notMem_of_mem (List.mem_of_mem_drop hl)

theorem truncateLinesTail_eq (hcr : cr ∉ text) (hpos : 1 ≤ maxLines) (hover : maxLines < (lines nl text).length) :
    truncateLinesTail text maxLines = tailNote ((lines nl text).length - maxLines)
      ([nl].intercalate ((lastLines text maxLines).dropWhile List.isEmpty)) := by
  rw [truncateLinesTail, if_neg (by omega)]
  dsimp only
  rw [countedLines_eq hcr, if_neg (by omega), joinLines_eq, List.take_length]
  rfl

theorem tailNote_inj {omitted : Nat} {part part' : Text} :
    tailNote omitted part = tailNote omitted part' ↔ part = part' := by
  simp [tailNote]

/-- However the kept part is read, it is all of the last lines exactly when they
are read from what the truncation keeps of them. -/
theorem keptPart_iff (hcr : cr ∉ text) (hpos : 1 ≤ maxLines) (hover : maxLines < (lines nl text).length)
    (read : Text → List Text) :
    (∃ omitted part, truncateLinesTail text maxLines = tailNote omitted part ∧ read part = lastLines text maxLines ∧
        (read part).length + omitted = (lines nl text).length) ↔
      read ([nl].intercalate ((lastLines text maxLines).dropWhile List.isEmpty)) = lastLines text maxLines := by
  have hlen := lastLines_length hover
  constructor
  · rintro ⟨omitted, part, heq, hlines, hcount⟩
    rw [hlines, hlen] at hcount
    obtain rfl : omitted = (lines nl text).length - maxLines := by omega
    rw [truncateLinesTail_eq hcr hpos hover, tailNote_inj] at heq
    rw [heq, hlines]
  · intro hlines
    refine ⟨_, _, truncateLinesTail_eq hcr hpos hover, hlines, ?_⟩
    rw [hlines, hlen]
    omega

theorem keepsTail_iff (hcr : cr ∉ text) (hpos : 1 ≤ maxLines) (hover : maxLines < (lines nl text).length) :
    KeepsTail text maxLines ↔
      (lastLines text maxLines).head? ≠ some [] ∧ (lastLines text maxLines).getLast? ≠ some [] := by
  have hlen := lastLines_length hover
  rw [← lines_joined_iff nl_notMem_lastLines (List.length_pos_iff.mp (by omega))]
  exact keptPart_iff hcr hpos hover (lines nl)

theorem keepsTailOpen_iff (hcr : cr ∉ text) (hpos : 1 ≤ maxLines) (hover : maxLines < (lines nl text).length) :
    KeepsTailOpen text maxLines ↔ (lastLines text maxLines).head? ≠ some [] ∨ lastLines text maxLines = [[]] := by
  have hlen := lastLines_length hover
  rw [← lines_closed_iff nl_notMem_lastLines (List.length_pos_iff.mp (by omega))]
  exact keptPart_iff hcr hpos hover fun part => lines nl (part ++ [nl])

theorem truncateLines_eq (hcr : cr ∉ text) (hpos : 1 ≤ maxLines) (hover : maxLines < (lines nl text).length) :
    truncateLines text maxLines = unlines nl (((lines nl text).take maxLines).dropWhile List.isEmpty) ++
      headNote ((lines nl text).length - maxLines) := by
  rw [truncateLines, if_neg (by omega)]
  dsimp only
  rw [countedLines_eq hcr, if_neg (by omega), joinLines_eq, List.drop_zero, headNote, List.append_cancel_right_eq]
  by_cases hk : ((lines nl text).take maxLines).dropWhile List.isEmpty = []
  · rw [hk]
    rfl
  · rw [if_neg (mt joined_eq_nil.mp hk), intercalate_concat hk]

theorem keepsHead_iff (hcr : cr ∉ text) (hpos : 1 ≤ maxLines) (hover : maxLines < (lines nl text).length) :
    KeepsHead text maxLines ↔ (lines nl text).head? ≠ some [] := by
  have hhead : ((lines nl text).take maxLines).head? = (lines nl text).head? := by
    rw [List.head?_take, if_neg (by omega)]
  have hlen : ((lines nl text).take maxLines).length = maxLines := by
    rw [List.length_take]
    omega
  have hl : ∀ l ∈ ((lines nl text).take maxLines).dropWhile List.isEmpty, nl ∉ l :=
    fun l h => sep_notMem_of_mem (List.mem_of_mem_take ((List.dropWhile_sublist _).subset h))
  rw [← hhead, ← dropWhile_isEmpty_eq]
  constructor
  · rintro ⟨omitted, part, heq, _, hlines, hcount⟩
    rw [hlines, hlen] at hcount
    obtain rfl : omitted = (lines nl text).length - maxLines := by omega
    rw [truncateLines_eq hcr hpos hover, List.append_cancel_right_eq] at heq
    rw [← heq, lines_unlines hl] at hlines
    exact hlines
  · intro hkept
    refine ⟨_, _, truncateLines_eq hcr hpos hover, terminated_unlines _, ?_, ?_⟩
    · rw [lines_unlines hl, hkept]
    · rw [lines_unlines hl, hkept, hlen]
      omega

/-- Both truncations keep the promised lines exactly when the first kept line is
not blank and, of the tail, the last one is not. -/
theorem truncated_lines_kept_iff (hcr : cr ∉ text) (hpos : 1 ≤ maxLines) (hover : maxLines < (lines nl text).length) :
    (KeepsTail text maxLines ↔
      (lastLines text maxLines).head? ≠ some [] ∧ (lastLines text maxLines).getLast? ≠ some []) ∧
      (KeepsTailOpen text maxLines ↔ (lastLines text maxLines).head? ≠ some [] ∨ lastLines text maxLines = [[]]) ∧
      (KeepsHead text maxLines ↔ (lines nl text).head? ≠ some []) :=
  ⟨keepsTail_iff hcr hpos hover, keepsTailOpen_iff hcr hpos hover, keepsHead_iff hcr hpos hover⟩

theorem truncated_lines_kept_four :
    KeepsTail (lit "a\nb\nc\nd") 2 ∧ KeepsHead (lit "a\nb\nc\nd") 2 := by
  have hiff := @truncated_lines_kept_iff (lit "a\nb\nc\nd") 2 (by decide) (by decide) (by decide)
  exact ⟨hiff.1.mpr (by decide), hiff.2.2.mpr (by decide)⟩

/-- A blank line at the cut is neither kept nor counted as omitted. -/
theorem not_truncated_lines_kept :
    ¬ ∀ (text : Text) (maxLines : Nat), cr ∉ text → 1 ≤ maxLines → maxLines < (lines nl text).length →
      KeepsTail text maxLines ∧ KeepsHead text maxLines := by
  intro h
  have hkept := (h (lit "a\n\nb") 2 (by decide) (by decide) (by decide)).1
  have hhead := ((keepsTail_iff (by decide) (by decide) (by decide)).mp hkept).1
  exact hhead rfl

end

end JJMCP.LineTruncation
