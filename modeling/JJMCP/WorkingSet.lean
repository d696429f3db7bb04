import JJMCP.Scrollback
import JJMCP.Slices
import Mathlib.Data.List.Flatten

namespace JJMCP.WorkingSet

open Lib.Occurrence Lib.Lines Text Marker Extract Slices Truncate Poll Scrollback

theorem splitLoop_length (current t : Text) :
    (unlines nl (splitLoop current t).1).length + (splitLoop current t).2.length ≤ current.length + t.length := by
  induction t generalizing current with
  | nil => simp [splitLoop]
  | cons c cs ih =>
      by_cases hcr : c = cr
      · have hle := ih current
        simp only [splitLoop, hcr, if_true, List.length_cons]
        omega
      · by_cases hnl : c = nl
        · have hle := ih []
          simp only [splitLoop, hnl, show nl ≠ cr by decide, if_false, if_true, unlines_cons, List.length_append,
            List.length_cons, List.length_nil] at hle ⊢
          omega
        · have hle := ih (current ++ [c])
          simp only [splitLoop, hcr, hnl, if_false, List.length_append, List.length_cons, List.length_nil] at hle ⊢
          omega

theorem unlines_sublist {as bs : List Text} (h : as.Sublist bs) : (unlines nl as).length ≤ (unlines nl bs).length :=
  (h.flatMap _).length_le

theorem length_le_unlines (ls : List Text) : ls.length ≤ (unlines nl ls).length := by
  induction ls with
  | nil => exact Nat.le_refl _
  | cons l ls ih =>
      rw [unlines_cons, List.length_append, List.length_cons, List.length_cons]
      omega

theorem countedLines_length (text : Text) : (unlines nl (countedLines text)).length ≤ text.length + 1 := by
  have hle := splitLoop_length [] text
  have hsplit : (unlines nl (splitLines text)).length ≤ text.length + 1 := by
    simp only [splitLines]
    split
    · rw [unlines_append, List.length_append, unlines_cons, List.length_append]
      simp only [unlines_nil, List.length_cons, List.length_nil] at hle ⊢
      omega
    · simp only [List.length_nil] at hle
      omega
  refine le_trans (unlines_sublist ?_) hsplit
  simp only [countedLines]
  split
  · exact List.dropLast_sublist _
  · exact List.Sublist.refl _

theorem joinLines_length (ls : List Text) (a b : Nat) : (joinLines ls a b).length ≤ (unlines nl ls).length := by
  have hgen : ∀ ks : List Text, ∀ out : Text, (ks.foldl (fun out line => (if out = [] then out else out ++ [nl]) ++ line)
      out).length ≤ out.length + (unlines nl ks).length := by
    intro ks
    induction ks with
    | nil => exact fun out => Nat.le_refl _
    | cons k ks ih =>
        intro out
        refine (ih _).trans ?_
        rw [unlines_cons, List.length_append, List.length_append, List.length_cons]
        split
        · omega
        · rw [List.length_append, List.length_singleton]
          omega
  have hsub : ((ls.take b).drop a).Sublist ls := (List.drop_sublist _ _).trans (List.take_sublist _ _)
  have hle := hgen ((ls.take b).drop a) []
  rw [List.length_nil, Nat.zero_add] at hle
  exact hle.trans (unlines_sublist hsub)

section

variable {text : Text} {maxLines maxBytes : Nat}

theorem truncateLinesTail_length (hpos : 0 < maxLines) (h : text.length + 1 < 10 ^ 20) :
    (truncateLinesTail text maxLines).length ≤ text.length + 65 := by
  rw [truncateLinesTail, if_neg (by omega)]
  dsimp only
  split
  · omega
  · have hcounted := countedLines_length text
    have hlines := length_le_unlines (countedLines text)
    have hjoin := joinLines_length (countedLines text) ((countedLines text).length - maxLines) (countedLines text).length
    have hdigits := decimal_length (n := (countedLines text).length - maxLines) (k := 20) (by omega) (by decide)
    have hopen : (lit "[JJMCP truncated: omitted ").length = 26 := by decide
    have hclose : (lit " earlier line(s)]").length = 17 := by decide
    simp only [List.length_append, List.length_cons, hopen, hclose]
    omega

theorem truncateBytesTail_length (hpos : 0 < maxBytes) (h : text.length < 10 ^ 20) :
    (truncateBytesTail text maxBytes).length ≤ maxBytes + 64 := by
  rw [truncateBytesTail, if_neg (by omega)]
  split
  · omega
  next hover =>
    have htake := (List.takeWhile_prefix (p := isUtf8Continuation) (l := text.drop (text.length - maxBytes))).length_le
    have hstart : utf8SafeSuffixStart text (text.length - maxBytes) = text.length - maxBytes +
        ((text.drop (text.length - maxBytes)).takeWhile isUtf8Continuation).length := by
      rw [utf8SafeSuffixStart, if_neg (by omega)]
    rw [List.length_drop] at htake
    have hdigits := decimal_length (n := utf8SafeSuffixStart text (text.length - maxBytes)) (k := 20) (by omega) (by decide)
    have hopen : (lit "[JJMCP truncated: omitted ").length = 26 := by decide
    have hclose : (lit " earlier byte(s)]").length = 17 := by decide
    simp only [List.length_append, List.length_cons, List.length_drop, hopen, hclose]
    omega

theorem truncateToolTail_length (hlines : 0 < maxLines) (hbytes : 0 < maxBytes) (h : text.length + 65 < 10 ^ 20) :
    (truncateToolTail text maxLines maxBytes).length ≤ maxBytes + 64 :=
  truncateBytesTail_length hbytes ((truncateLinesTail_length hlines (by omega)).trans_lt h)

end

section

variable {m : Marker}

theorem slice_record_length (phase phase' : Phase) (seg : Text) (r : ExtractedOutput) :
    (slice phase (record phase' seg r)).length ≤ (slice phase r).length + 1 + seg.length := by
  rw [slice_record]
  split
  · exact (appendSegment_length_le _ seg).trans (Nat.add_le_add_left (markerSegmentText_length seg) _)
  · omega

/-- A token is longer than the newline that joins two segments. -/
theorem slice_extractFrom_length (phase phase' : Phase) (r : ExtractedOutput) (rest : Text) :
    (slice phase (extractFrom m phase' r rest)).length ≤ (slice phase r).length + 1 + rest.length := by
  induction rest using scan_induction (m := m) generalizing phase' r with
  | noMark rest hno =>
      rw [extractFrom_noMark phase' r hno]
      exact slice_record_length phase phase' rest r
  | last rest p hfirst =>
      have hrec := slice_record_length phase phase' (rest.take p) r
      rw [List.length_take] at hrec
      rw [extractFrom_end phase' r hfirst, slice_foundEnd]
      omega
  | next rest p k hfirst hE ih =>
      have hrec := slice_record_length phase phase' (rest.take p) r
      have hafter := afterMark_length hfirst.1
      have hle := ih (phaseAfter k phase') (if k = .Error then { record phase' (rest.take p) r with juliaError := true }
        else record phase' (rest.take p) r)
      rw [slice_marked] at hle
      rw [List.length_take] at hrec
      rw [extractFrom_mark phase' r hfirst hE]
      omega

theorem extract_length (capture : Text) (phase : Phase) :
    (slice phase (extractBetweenMarkers capture m)).length ≤ capture.length + 1 := by
  rw [extract_eq]
  cases hp : findMarkerLinePayloadStart capture m.beginMark with
  | none => cases phase <;> exact Nat.zero_le _
  | some payload =>
      have hle := slice_extractFrom_length (m := m) phase .Stdout { foundBegin := true } payload
      have hpayload := (findPayload_isSuffix hp).length_le
      rw [slice_begin, List.length_nil] at hle
      dsimp only
      omega

theorem mark_length (k : Kind) : (m.mark k).length ≤ m.id.length + 18 := by
  have hs : (stem k).length ≤ 16 := by cases k <;> decide
  have hu : (lit "__").length = 2 := by decide
  simp only [mark, List.length_append, hu]
  omega

section

variable {out t : Text} {n k : Nat}

theorem appendLine_length (ho : out.length ≤ n) (ht : t.length ≤ k) : (appendLine out t).length ≤ n + k + 1 := by
  simp only [appendLine, List.length_append, List.length_singleton]
  omega

theorem appendBlock_length (ho : out.length ≤ n) (ht : t.length ≤ k) : (appendBlock out t).length ≤ n + k + 1 := by
  simp only [appendBlock]
  split
  · omega
  · split
    · rw [List.length_append]
      omega
    · rw [List.length_append, List.length_append, List.length_singleton]
      omega

end

/-- Three slices with their notes and the marker lines fit. -/
theorem compactMarkerAccumulator_length (hid : m.id.length ≤ 64) {e : ExtractedOutput}
    (h : ∀ phase, (slice phase e).length + 65 < 10 ^ 20) (sawOutEnd sawValEnd sawError sawBacktrace sawEnd : Bool) :
    (compactMarkerAccumulator e m sawOutEnd sawValEnd sawError sawBacktrace sawEnd).length ≤ kMaxEvalAccumulatorBytes := by
  have hmark : ∀ k, (m.mark k).length ≤ 82 := fun k => (mark_length k).trans (by omega)
  have hbegin : m.beginMark.length ≤ 80 := by
    have hs : (lit "__JJMCP_BEGIN_").length = 14 := by decide
    have hu : (lit "__").length = 2 := by decide
    simp only [beginMark, List.length_append, hs, hu]
    omega
  have hslice : ∀ phase, (truncateToolTail (slice phase e) kEvalAccumulatorTailLines kMaxMcpTextBytes).length ≤ 262208 :=
    fun phase => truncateToolTail_length (by decide) (by decide) (h phase)
  have hbt : (truncateToolTail e.backtrace 200 kMaxMcpBacktraceBytes).length ≤ 131136 :=
    truncateToolTail_length (by decide) (by decide) (h .Backtrace)
  have hmax : kMaxEvalAccumulatorBytes = 1048576 := rfl
  have hempty : ([] : Text).length ≤ 0 := Nat.le_refl 0
  have hstart := appendBlock_length (appendLine_length hempty hbegin) (hslice .Stdout)
  have herror := appendBlock_length (appendLine_length hstart (hmark .Error)) (hslice .Error)
  have hback := appendBlock_length (appendLine_length herror (hmark .Backtrace)) hbt
  have hvalue := appendBlock_length (appendLine_length hstart (hmark .OutEnd)) (hslice .Value)
  have hvalEnd := appendLine_length hvalue (hmark .ValEnd)
  simp only [slice] at hstart herror hback hvalue hvalEnd
  have hbody : ∀ {out : Text}, out.length ≤ 1000000 →
      (if sawEnd = true then appendLine out (m.mark .End) else out).length ≤ kMaxEvalAccumulatorBytes := by
    intro out hout
    split
    · exact (appendLine_length hout (hmark .End)).trans (by omega)
    · omega
  simp only [compactMarkerAccumulator]
  refine hbody ?_
  split
  · split
    · omega
    · omega
  · split
    · split
      · omega
      · omega
    · omega

theorem dropHead_length (s : PollState) : (dropHead s).accumulator.length ≤ kMaxEvalAccumulatorBytes := by
  obtain ⟨n, hn, heq⟩ := dropHead_drop s
  rw [heq, List.length_drop]
  generalize kMaxEvalAccumulatorBytes = bound at hn ⊢
  omega

theorem emitProgress_lastExtract (pass : Pass) (s : PollState) : (emitProgress pass s).lastExtract = s.lastExtract := by
  simp only [emitProgress]
  split
  · rfl
  · rfl

theorem trimAtBegin_lastExtract (s : PollState) : (trimAtBegin m s).lastExtract = s.lastExtract := by
  simp only [trimAtBegin]
  split
  · rfl
  · rfl

/-- An accumulator that grew past the bound is compacted or loses its head; only
a pass that has seen END keeps it as it is. -/
theorem boundAccumulator_length (hid : m.id.length ≤ 64) {s : PollState}
    (hslice : ∀ phase, (slice phase s.lastExtract).length + 65 < 10 ^ 20)
    (hgoes : (boundAccumulator m s).lastExtract.foundEnd = false) :
    (boundAccumulator m s).accumulator.length ≤ kMaxEvalAccumulatorBytes := by
  simp only [boundAccumulator] at hgoes ⊢
  split
  · split
    · exact compactMarkerAccumulator_length hid hslice _ _ _ _ _
    · exact dropHead_length s
  next hkeeps =>
    rw [if_neg hkeeps] at hgoes
    exact Nat.le_of_not_lt fun hover => hkeeps ⟨hgoes, hover⟩

theorem extractCapture_length (cap accumulator : Text) (phase : Phase) :
    (slice phase (extractCapture m cap accumulator)).length ≤ max cap.length accumulator.length + 1 := by
  simp only [extractCapture]
  split
  · exact (extract_length cap phase).trans (Nat.succ_le_succ (Nat.le_max_left _ _))
  · exact (extract_length accumulator phase).trans (Nat.succ_le_succ (Nat.le_max_right _ _))

theorem splice_length (s : PollState) (cap : Text) :
    (splice s cap).length ≤ s.accumulator.length + cap.length := by
  obtain ⟨old, new, rfl, _, hsplice⟩ := splice_eq s cap
  rw [hsplice, List.length_append, List.length_append]
  omega

/-- The slices come from the capture or from the accumulator with it. -/
theorem pollStep_bounded {pass : Pass} (hid : pass.marker.id.length ≤ 64) {s s' : PollState} {i : PollInput}
    (hsize : ∀ cap, i.captured = .ok cap → cap.length < 2 ^ 64)
    (hs : s.accumulator.length ≤ kMaxEvalAccumulatorBytes) (h : pollStep pass s i = .again s') :
    s'.accumulator.length ≤ kMaxEvalAccumulatorBytes := by
  rcases pollStep_again h with ⟨_, _, rfl⟩ | ⟨cap, hcap, rfl, hgoes⟩
  · exact hs
  · have hcapture := hsize cap hcap
    have hsplice := splice_length s cap
    have hmax : kMaxEvalAccumulatorBytes = 1048576 := rfl
    apply boundAccumulator_length hid ?_ hgoes
    intro phase
    have hle := extractCapture_length (m := pass.marker) cap (splice s cap) phase
    rw [emitProgress_lastExtract, trimAtBegin_lastExtract]
    change (slice phase (extractCapture pass.marker cap (splice s cap))).length + 65 < 10 ^ 20
    omega

end

/-- 2 ^ 64 is the range of the captures' own size type; the notes of the
truncation write sizes out in decimal. -/
theorem working_set_bounded {pass : Pass} (hid : pass.marker.id.length ≤ 64) {is : List PollInput}
    (hsize : ∀ cap ∈ captured is, cap.length < 2 ^ 64) {s : PollState} (h : poll pass {} is = .again s) :
    s.accumulator.length ≤ kMaxEvalAccumulatorBytes := by
  have hrun : ∀ js (t : PollState), (∀ cap ∈ captured js, cap.length < 2 ^ 64) →
      t.accumulator.length ≤ kMaxEvalAccumulatorBytes → poll pass t js = .again s →
      s.accumulator.length ≤ kMaxEvalAccumulatorBytes := by
    intro js
    induction js with
    | nil =>
        intro t _ ht hpoll
        obtain rfl := Polled.again.inj hpoll
        exact ht
    | cons i js ih =>
        intro t hcaps ht hpoll
        obtain ⟨u, hstep, hrest⟩ := poll_cons_again hpoll
        refine ih u ?_ (pollStep_bounded hid ?_ ht hstep) hrest
        · intro cap hcap
          refine hcaps cap ?_
          rw [captured, List.filterMap_cons]
          split
          · exact hcap
          · exact List.mem_cons_of_mem _ hcap
        · intro cap hcap
          refine hcaps cap ?_
          simp [captured, hcap, Except.toOption]
  exact hrun is {} hsize (Nat.zero_le _) h

theorem working_set_bounded_begun :
    ∃ s, poll ⟨makeMarker (lit "1"), false, false⟩ {} [⟨.ok (lit "$ 1\n__JJMCP_BEGIN_1__\n"), false⟩,
        ⟨.error (lit "no pane"), false⟩, ⟨.ok (lit "__JJMCP_BEGIN_1__\nx\n"), false⟩] = .again s ∧
      s.accumulator = lit "__JJMCP_BEGIN_1__\nx\n" ∧ s.accumulator.length ≤ kMaxEvalAccumulatorBytes := by
  have hgoes : Polled.casesOn (motive := fun _ => Bool) (poll ⟨makeMarker (lit "1"), false, false⟩ {}
      [⟨.ok (lit "$ 1\n__JJMCP_BEGIN_1__\n"), false⟩, ⟨.error (lit "no pane"), false⟩,
        ⟨.ok (lit "__JJMCP_BEGIN_1__\nx\n"), false⟩])
      (fun s => decide (s.accumulator = lit "__JJMCP_BEGIN_1__\nx\n")) (fun _ => false) (fun _ => false) false
      (fun _ => false) = true := by
    decide +kernel
  cases hrun : poll ⟨makeMarker (lit "1"), false, false⟩ {} [⟨.ok (lit "$ 1\n__JJMCP_BEGIN_1__\n"), false⟩,
    ⟨.error (lit "no pane"), false⟩, ⟨.ok (lit "__JJMCP_BEGIN_1__\nx\n"), false⟩] with
  | again s =>
      rw [hrun] at hgoes
      exact ⟨s, rfl, of_decide_eq_true hgoes, working_set_bounded (by decide +kernel) (by decide +kernel) hrun⟩
  | done | timedOut | missing | failed =>
      rw [hrun] at hgoes
      exact absurd hgoes Bool.false_ne_true

end JJMCP.WorkingSet
