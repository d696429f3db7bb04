import JJMCP.Extract

namespace JJMCP.Extract

open Lib.Occurrence Lib.Lines Text Marker

/-- A segment without its carriage returns, and without the newline that ends it. -/
def cleaned : Text → Text
  | [] => []
  | c :: cs => if c = cr then cleaned cs else if c = nl ∧ cs.all (· = cr) then [] else c :: cleaned cs

/-- Texts one after the other, each on lines of its own. -/
def onLines : List Text → Text
  | [] => []
  | [t] => t
  | t :: u :: ts => (if t.getLast? = some nl ∨ u.head? = some nl then t else t ++ [nl]) ++ onLines (u :: ts)

/-- What segments amount to: those with text, cleaned, on lines of their own. -/
def gathered (segments : List Text) : Text := onLines ((segments.map cleaned).filter (· ≠ []))

/-- What follows the line end that a text may open with. -/
inductive AfterLineEnd : Text → Text → Prop
  | crlf (rest : Text) : AfterLineEnd (cr :: nl :: rest) rest
  | cr {rest : Text} (h : rest.head? ≠ some nl) : AfterLineEnd (cr :: rest) rest
  | lf (rest : Text) : AfterLineEnd (nl :: rest) rest
  | none {rest : Text} (hcr : rest.head? ≠ some cr) (hnl : rest.head? ≠ some nl) : AfterLineEnd rest rest

/-- The first line that reads as BEGIN, and the payload after it. -/
structure BeginLine (m : Marker) (capture payload : Text) : Prop where
  split : ∃ before line, Terminated nl before ∧ (∀ l ∈ closedLines nl [] before, trimAscii l ≠ m.beginMark) ∧
    nl ∉ line ∧ trimAscii line = m.beginMark ∧
    (capture = before ++ (line ++ nl :: payload) ∨ capture = before ++ line ∧ payload = [])

theorem filter_cr_eq_nil {t : Text} : t.filter (· ≠ cr) = [] ↔ t.all (· = cr) = true := by
  rw [List.filter_eq_nil_iff]
  simp

theorem markerSegmentText_eq (segment : Text) : markerSegmentText segment = cleaned segment := by
  induction segment with
  | nil => rfl
  | cons c cs ih =>
      by_cases hcr : c = cr
      · rw [cleaned, if_pos hcr, ← ih, markerSegmentText, markerSegmentText, List.filter_cons_of_neg (by simp [hcr])]
      · have hkeep : (c :: cs).filter (· ≠ cr) = c :: cs.filter (· ≠ cr) := List.filter_cons_of_pos (by simpa using hcr)
        rw [cleaned, if_neg hcr, ← ih, markerSegmentText, markerSegmentText, hkeep]
        by_cases hend : cs.all (· = cr) = true
        · rw [filter_cr_eq_nil.mpr hend]
          by_cases hnl : c = nl
          · simp [hnl, hend]
          · simp [hnl]
        · have hopen : ¬ (c = nl ∧ cs.all (· = cr) = true) := fun h => hend h.2
          rw [if_neg hopen]
          rcases hrest : cs.filter (· ≠ cr) with _ | ⟨d, ds⟩
          · exact absurd (filter_cr_eq_nil.mp hrest) hend
          · rw [List.getLast?_cons_cons]
            split
            · rfl
            · rfl

theorem onLines_ne_nil {ts : List Text} (h : ∀ t ∈ ts, t ≠ []) (hts : ts ≠ []) : onLines ts ≠ [] := by
  match ts with
  | [] => exact absurd rfl hts
  | [t] => exact h t (by simp)
  | t :: u :: ts =>
      rw [onLines]
      intro hnil
      have ht := (List.append_eq_nil_iff.mp hnil).1
      split at ht
      · exact h t (by simp) ht
      · simp at ht

theorem onLines_concat {ts : List Text} (h : ∀ t ∈ ts, t ≠ []) (hts : ts ≠ []) (t : Text) :
    onLines (ts ++ [t]) =
      (if (onLines ts).getLast? = some nl ∨ t.head? = some nl then onLines ts else onLines ts ++ [nl]) ++ t := by
  induction ts with
  | nil => exact absurd rfl hts
  | cons a ts ih =>
      cases ts with
      | nil => rfl
      | cons b ts =>
          have hb : ∀ t ∈ b :: ts, t ≠ [] := fun t ht => h t (List.mem_cons_of_mem _ ht)
          have hlast (l : Text) : (l ++ onLines (b :: ts)).getLast? = (onLines (b :: ts)).getLast? :=
            List.getLast?_append_of_ne_nil _ (onLines_ne_nil hb (by simp))
          have hih := ih hb (by simp)
          rw [List.cons_append] at hih
          rw [List.cons_append, List.cons_append, onLines, hih, onLines, hlast]
          by_cases hc : (onLines (b :: ts)).getLast? = some nl ∨ t.head? = some nl
          · rw [if_pos hc, if_pos hc, List.append_assoc]
          · rw [if_neg hc, if_neg hc]
            simp only [List.append_assoc]

/-- The code's accumulation of segments. -/
theorem foldl_appendSegment (segments : List Text) : segments.foldl appendSegment [] = gathered segments := by
  induction segments using List.reverseRecOn with
  | nil => rfl
  | append_singleton segments s ih =>
      have hall : ∀ t ∈ (segments.map cleaned).filter (· ≠ []), t ≠ [] := fun t ht => by
        simpa using (List.mem_filter.mp ht).2
      rw [List.foldl_append, List.foldl_cons, List.foldl_nil, ih, appendSegment, markerSegmentText_eq, gathered, gathered,
        List.map_append, List.filter_append, List.map_cons, List.map_nil]
      by_cases hs : cleaned s = []
      · rw [if_pos hs, List.filter_cons_of_neg (by simp [hs]), List.filter_nil, List.append_nil]
      · rw [if_neg hs, List.filter_cons_of_pos (by simpa using hs), List.filter_nil]
        by_cases hts : (segments.map cleaned).filter (· ≠ []) = []
        · rw [hts]
          rfl
        · rw [onLines_concat hall hts]
          have hne := onLines_ne_nil hall hts
          by_cases hlast : (onLines ((segments.map cleaned).filter (· ≠ []))).getLast? = some nl ∨ (cleaned s).head? = some nl
          · rw [if_pos hlast, if_neg fun h => hlast.elim h.2.1 h.2.2]
          · obtain ⟨hl, hh⟩ := not_or.mp hlast
            rw [if_neg hlast, if_pos ⟨hne, hl, hh⟩]

theorem afterLineEnd_skip {text rest : Text} (h : AfterLineEnd text rest) : skipMarkerLineEnding text = rest := by
  cases h with
  | crlf => simp [skipMarkerLineEnding]
  | cr h => simp [skipMarkerLineEnding, h]
  | lf => simp [skipMarkerLineEnding, show nl ≠ cr by decide]
  | none hcr hnl => simp [skipMarkerLineEnding, hcr, hnl]

theorem afterLineEnd_exists (text : Text) : AfterLineEnd text (skipMarkerLineEnding text) := by
  match text with
  | [] => exact .none (by simp) (by simp)
  | c :: rest =>
      by_cases hcr : c = cr
      · subst hcr
        match rest with
        | [] => exact .cr (by simp)
        | d :: rest =>
            by_cases hnl : d = nl
            · subst hnl
              rw [afterLineEnd_skip (.crlf rest)]
              exact .crlf rest
            · have hd : (d :: rest).head? ≠ some nl := by simpa using hnl
              rw [afterLineEnd_skip (.cr hd)]
              exact .cr hd
      · by_cases hnl : c = nl
        · subst hnl
          rw [afterLineEnd_skip (.lf rest)]
          exact .lf rest
        · have hplain : AfterLineEnd (c :: rest) (c :: rest) := .none (by simpa using hcr) (by simpa using hnl)
          rwa [afterLineEnd_skip hplain]

theorem findPayload_last {marker l : Text} (line : Text) (hl : nl ∉ l) :
    findMarkerLinePayload marker line l = if trimAscii (line ++ l) = marker then some [] else none := by
  induction l generalizing line with
  | nil => simp [findMarkerLinePayload]
  | cons c cs ih =>
      obtain ⟨hc, hcs⟩ := not_or.mp (mt List.mem_cons.mpr hl)
      rw [findMarkerLinePayload, if_neg (Ne.symm hc), ih _ hcs, List.append_assoc, List.singleton_append]

theorem BeginLine.payload {m : Marker} {capture payload : Text} (h : BeginLine m capture payload) :
    findMarkerLinePayloadStart capture m.beginMark = some payload := by
  obtain ⟨before, line, hterm, hquiet, hline, hbegin, rfl | ⟨rfl, rfl⟩⟩ := h.split
  · rw [findPayload_append _ hterm hquiet, findMarkerLinePayloadStart, findPayload_line _ _ _ _ hline, List.nil_append,
      if_pos hbegin]
  · rw [findPayload_append _ hterm hquiet, findMarkerLinePayloadStart, findPayload_last _ hline, List.nil_append,
      if_pos hbegin]

end JJMCP.Extract
