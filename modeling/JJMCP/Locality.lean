import JJMCP.Tokens

namespace JJMCP.Locality

open Lib.Occurrence Lib.Lines Text Marker Extract Tokens

section

variable {m : Marker} {rest : Text} {e : Nat}

/-- No mark that starts before END reaches past it, whatever the id is: it would
have END inside it. -/
theorem at_before_end (he : At (m.mark .End) rest e) (after : Text) {j : Kind} {q : Nat}
    (hq : At (m.mark j) (rest ++ after) q) (hle : q ≤ e) : At (m.mark j) rest q := by
  have hbound := he.bound (mark_ne_nil m .End)
  by_cases hin : q + (m.mark j).length ≤ rest.length
  · exact (at_append_left after hin).mp hq
  · have hend : At (m.mark .End) (rest ++ after) e := (at_append_left after hbound).mpr he
    have hzero := at_mark_mark (hend.inside hq hle (by omega))
    obtain rfl : q = e := by omega
    obtain rfl := mark_kind_unique hq hend
    exact absurd hbound hin

theorem firstMark_append {p : Nat} {k : Kind} (h : FirstMark m rest p k) (he : At (m.mark .End) rest e)
    (after : Text) : FirstMark m (rest ++ after) p k := by
  refine ⟨(at_append_left after (h.1.bound (mark_ne_nil m k))).mpr h.1, fun j q hq => ?_⟩
  by_contra hlt
  have hpe := h.2 .End e he
  have hin := h.2 j q (at_before_end he after hq (by omega))
  omega

theorem firstMark_take_append {p : Nat} {k : Kind} (h : FirstMark m rest p k) (after : Text) :
    (rest ++ after).take p = rest.take p := by
  have hb := h.1.bound (mark_ne_nil m k)
  exact List.take_append_of_le_length (by omega)

theorem skip_append {t : Text} (after : Text) (h : skipMarkerLineEnding t ≠ []) :
    skipMarkerLineEnding (t ++ after) = skipMarkerLineEnding t ++ after := by
  cases t with
  | nil => exact absurd rfl h
  | cons c t =>
      by_cases hc : c = cr
      · cases t with
        | nil => exact absurd (by simp [skipMarkerLineEnding, hc]) h
        | cons d t => by_cases hd : d = nl <;> simp [skipMarkerLineEnding, hc, hd]
      · by_cases hn : c = nl
        · have hne : nl ≠ cr := by decide
          simp [skipMarkerLineEnding, hn, hne]
        · simp [skipMarkerLineEnding, hc, hn]

/-- The loop ends at END only where END stands. -/
theorem extractFrom_foundEnd (phase : Phase) {r : ExtractedOutput} (hr : r.foundEnd = false)
    (h : (extractFrom m phase r rest).foundEnd = true) : m.mark .End <:+: rest := by
  induction rest using scan_induction (m := m) generalizing phase r with
  | noMark rest hno =>
      rw [extractFrom_noMark phase r hno, record_foundEnd, hr] at h
      exact absurd h (by decide)
  | last rest p hfirst => exact hfirst.1.isInfix
  | next rest p k hfirst hE ih =>
      rw [extractFrom_mark phase r hfirst hE] at h
      refine (ih _ ?_ h).trans (afterMark_suffix m rest p k).isInfix
      split
      · exact (record_foundEnd phase _ r).trans hr
      · exact (record_foundEnd phase _ r).trans hr

theorem afterMark_append {p : Nat} {k : Kind} (h : At (m.mark k) rest p) (after : Text)
    (hend : m.mark .End <:+: afterMark m rest p k) :
    afterMark m (rest ++ after) p k = afterMark m rest p k ++ after := by
  have hne : afterMark m rest p k ≠ [] := fun hnil => noMark_nil m .End (hnil ▸ hend)
  rw [afterMark, List.drop_append_of_le_length (h.bound (mark_ne_nil m k))]
  exact skip_append after hne

/-- A scan that reaches END ends there, whatever is appended. -/
theorem extractFrom_append (phase : Phase) {r : ExtractedOutput} (hr : r.foundEnd = false) (after : Text)
    (h : (extractFrom m phase r rest).foundEnd = true) :
    extractFrom m phase r (rest ++ after) = extractFrom m phase r rest := by
  have hend := extractFrom_foundEnd phase hr h
  obtain ⟨e, he⟩ := infix_iff_at.mp hend
  induction rest using scan_induction (m := m) generalizing phase r e with
  | noMark rest hno => exact absurd hend (hno .End)
  | last rest p hfirst =>
      rw [extractFrom_end phase r (firstMark_append hfirst he after), extractFrom_end phase r hfirst,
        firstMark_take_append hfirst]
  | next rest p k hfirst hE ih =>
      have hnext := h
      rw [extractFrom_mark phase r hfirst hE] at hnext
      have hr' : (if k = .Error then { record phase (rest.take p) r with juliaError := true }
          else record phase (rest.take p) r).foundEnd = false := by
        split
        · exact (record_foundEnd phase _ r).trans hr
        · exact (record_foundEnd phase _ r).trans hr
      have hin := extractFrom_foundEnd _ hr' hnext
      obtain ⟨e', he'⟩ := infix_iff_at.mp hin
      rw [extractFrom_mark phase r (firstMark_append hfirst he after) hE, extractFrom_mark phase r hfirst hE,
        firstMark_take_append hfirst, afterMark_append hfirst.1 after hin]
      exact ih _ hr' hnext hin e' he'

/-- A BEGIN line that text follows is the same line when more is appended. -/
theorem findPayload_extend {marker capture payload : Text} (after line : Text)
    (h : findMarkerLinePayload marker line capture = some payload) (hne : payload ≠ []) :
    findMarkerLinePayload marker line (capture ++ after) = some (payload ++ after) := by
  induction capture generalizing line with
  | nil =>
      rw [findMarkerLinePayload] at h
      split at h
      · exact absurd (Option.some.inj h).symm hne
      · exact absurd h (by simp)
  | cons c cs ih =>
      rw [List.cons_append, findMarkerLinePayload]
      rw [findMarkerLinePayload] at h
      split at h
      next hc =>
        rw [if_pos hc]
        split at h
        next ht =>
          rw [if_pos ht]
          exact congrArg (fun t => some (t ++ after)) (Option.some.inj h)
        next ht =>
          rw [if_neg ht]
          exact ih [] h
      next hc =>
        rw [if_neg hc]
        exact ih _ h

end

/-- Once END is seen, neither older lines before the capture, none of which reads
as BEGIN, nor anything after it changes the extraction. -/
theorem extract_final {m : Marker} {before capture : Text} (after : Text)
    (h : (extractBetweenMarkers capture m).foundEnd = true) (ht : Terminated nl before)
    (hno : ∀ l ∈ lines nl before, trimAscii l ≠ m.beginMark) :
    extractBetweenMarkers (before ++ capture ++ after) m = extractBetweenMarkers capture m := by
  have hbefore : ∀ l ∈ closedLines nl [] before, trimAscii l ≠ m.beginMark :=
    fun l hl => hno l (List.mem_append_left _ hl)
  rw [List.append_assoc, extract_eq, findPayload_append _ ht hbefore, extract_eq]
  rw [extract_eq] at h
  cases hp : findMarkerLinePayloadStart capture m.beginMark with
  | none =>
      rw [hp] at h
      simp at h
  | some payload =>
      rw [hp] at h
      have hend := extractFrom_foundEnd .Stdout rfl h
      have hne : payload ≠ [] := fun hnil => noMark_nil m .End (hnil ▸ hend)
      have hmore := findPayload_extend after [] hp hne
      rw [findMarkerLinePayloadStart, hmore]
      exact extractFrom_append .Stdout rfl after h

/-- The underscores that close END would open an ERROR with the text after them. -/
theorem extract_final_overlapping :
    extractBetweenMarkers (lit "old\n" ++ lit "__JJMCP_BEGIN_1__\nhi\n__JJMCP_END_1__" ++ lit "JJMCP_ERROR_1__\n")
        (makeMarker (lit "1")) =
      extractBetweenMarkers (lit "__JJMCP_BEGIN_1__\nhi\n__JJMCP_END_1__") (makeMarker (lit "1")) :=
  extract_final _ (by decide +kernel) (.inr ⟨lit "old", rfl⟩) (by decide +kernel)

end JJMCP.Locality
