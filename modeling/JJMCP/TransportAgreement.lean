import JJMCP.EvalCode
import JJMCP.HelperOutput

namespace JJMCP.TransportAgreement

open Lib.Lines Text Marker Extract Emission Truncate Poll EvalCode HelperOutput

/-- The pane at a capture that shows the whole emission, after text in which no
line imitates its BEGIN line. -/
def ShowsEmission (m : Marker) (e : Emission) (cap : Text) : Prop :=
  ∃ before beginEnd lineEnd rest, Terminated nl before ∧ NoBeginLine m before ∧
    cap = before ++ render ⟨m.id, e, beginEnd, lineEnd⟩ ++ rest

def passMarker (pid : Nat) (a : PassAnswers) (s : Session) : Marker :=
  makeMarker (makeMarkerId a.micros pid (s.server.markerSequence + 1))

/-- A pass whose paste arrives and whose last capture is the first to end it and
shows what the runtime printed for the evaluation. -/
structure EmittedPass (pid : Nat) (a : PassAnswers) (c : EvalCall) (detectMissingRuntime : Bool) (s : Session)
    (ev : Evaluation) : Prop where
  sent : a.send.load = .ok () ∧ a.send.paste = .ok ()
  captured : ∃ earlier p cap expired, a.polls = earlier ++ [⟨.ok cap, expired⟩] ∧
    poll ⟨passMarker pid a s, detectMissingRuntime, c.progressActive⟩ {} earlier = .again p ∧
    ShowsEmission (passMarker pid a s) (emission ev) cap

def sharedFields : List Text :=
  [lit "stdout", lit "value_repr", lit "error_message", lit "backtrace", lit "julia_error"]

structure Agree (r r' : ToolResult) : Prop where
  isError : r.isError = r'.isError
  text : r.text = r'.text
  structured : ∀ key ∈ sharedFields, r.structured.get? key = r'.structured.get? key

def Fits (maxLines maxBytes : Nat) (text : Text) : Prop :=
  (countedLines text).length ≤ maxLines ∧ text.length ≤ maxBytes

instance (maxLines maxBytes : Nat) (text : Text) : Decidable (Fits maxLines maxBytes text) :=
  inferInstanceAs (Decidable (_ ∧ _))

def socketReport (ev : Evaluation) : Text :=
  match ev.ending with
  | .returned shown => joined (output ev) (shown.getD [])
  | .threw message backtrace => joined message backtrace

/-- Nothing is cut on either path. -/
structure Within (captureLines : Nat) (ev : Evaluation) : Prop where
  output : Fits captureLines kMaxSocketFieldBytes (output ev)
  shown : ∀ shown, ev.ending = .returned shown → Fits captureLines kMaxSocketFieldBytes (shown.getD [])
  thrown : ∀ message backtrace, ev.ending = .threw message backtrace →
    Fits captureLines kMaxSocketFieldBytes message ∧ Fits 200 kMaxMcpBacktraceBytes backtrace
  reports : Fits captureLines kMaxMcpTextBytes (socketReport ev) ∧
    Fits captureLines kMaxMcpTextBytes (extracted (emission ev)).text

/-- No carriage return and no marker of the pass. -/
def Clean (m : Marker) (ev : Evaluation) : Prop :=
  ∀ text ∈ (parts (emission ev)).map Prod.fst, cr ∉ text ∧ MarkFree m text

/-- What the two paths treat alike: output without a last line end, and no line
end where a text follows another. -/
def SameReport (ev : Evaluation) : Prop :=
  match ev.ending with
  | .returned shown =>
      (output ev).getLast? ≠ some nl ∧ (output ev = [] ∨ (shown.getD []).head? ≠ some nl)
  | .threw message backtrace =>
      output ev = [] ∧ (message = [] ∨ message.getLast? = some nl ∨ backtrace.head? ≠ some nl)

theorem finishTurn_lastExtract {pass : Pass} {s : PollState} (h : s.lastExtract.foundEnd = true) :
    (finishTurn pass s).lastExtract = s.lastExtract := by
  have htrim : (trimAtBegin pass.marker s).lastExtract = s.lastExtract := by
    unfold trimAtBegin
    split <;> rfl
  have hemit : (emitProgress pass (trimAtBegin pass.marker s)).lastExtract = s.lastExtract := by
    rw [← htrim]
    unfold emitProgress
    split <;> rfl
  rw [finishTurn, boundAccumulator, if_neg (by simp [hemit, h]), hemit]

theorem pollStep_done {pass : Pass} {s : PollState} {cap : Text} {expired : Bool} {e : ExtractedOutput}
    (hbegin : e.foundBegin = true) (hend : e.foundEnd = true)
    (h : extractCapture pass.marker cap (splice s cap) = e) :
    ∃ p, pollStep pass s ⟨.ok cap, expired⟩ = .done p ∧ p.lastExtract = e := by
  have hread : (readCapture pass.marker cap s).lastExtract = e := h
  have hfinish : (finishTurn pass (readCapture pass.marker cap s)).lastExtract = e := by
    rw [finishTurn_lastExtract (by rw [hread, hend]), hread]
  refine ⟨_, ?_, hfinish⟩
  simp [pollStep, hread, hbegin, hfinish, hend]

theorem pollStep_shows {pass : Pass} (hgen : GeneratorForm pass.marker.id) {e : Emission}
    (hfree : ∀ text ∈ (parts e).map Prod.fst, MarkFree pass.marker text) {cap : Text}
    (hcap : ShowsEmission pass.marker e cap) (s : PollState) (expired : Bool) :
    ∃ p, pollStep pass s ⟨.ok cap, expired⟩ = .done p ∧ p.lastExtract = extracted e := by
  obtain ⟨before, beginEnd, lineEnd, rest, hterm, hquiet, rfl⟩ := hcap
  have hext : extractBetweenMarkers (before ++ render ⟨pass.marker.id, e, beginEnd, lineEnd⟩ ++ rest) pass.marker =
      extracted e :=
    @extract_block ⟨pass.marker.id, e, beginEnd, lineEnd⟩ hgen hfree before hterm hquiet rest
  have hbegin : (extracted e).foundBegin = true := rfl
  exact pollStep_done hbegin rfl (by rw [extractCapture, hext, if_pos hbegin])

theorem runMarkerEval_done {pid : Nat} {a : PassAnswers} {b : Binding} {c : EvalCall} {detect : Bool} {s : Session}
    {q : PollState} (hsent : a.send.load = .ok () ∧ a.send.paste = .ok ())
    (hpoll : poll ⟨passMarker pid a s, detect, c.progressActive⟩ {} a.polls = .done q) :
    (runMarkerEval pid a b c detect s).2 =
      .stop (some (doneResult a (passMarker pid a s) c.captureLines q.lastExtract)) := by
  unfold runMarkerEval sendText nextMarkerId
  simp only [hsent.1, hsent.2]
  rw [show makeMarker (makeMarkerId a.micros pid (s.server.markerSequence + 1)) = passMarker pid a s from rfl, hpoll]

theorem runMarkerEval_emitted {pid : Nat} {a : PassAnswers} {b : Binding} {c : EvalCall} {detect : Bool}
    {s : Session} {ev : Evaluation} (h : EmittedPass pid a c detect s ev) (hclean : Clean (passMarker pid a s) ev) :
    (runMarkerEval pid a b c detect s).2 =
      .stop (some (doneResult a (passMarker pid a s) c.captureLines (extracted (emission ev)))) := by
  obtain ⟨earlier, p, cap, expired, hpolls, hagain, hcap⟩ := h.captured
  obtain ⟨q, hdone, hext⟩ := @pollStep_shows ⟨passMarker pid a s, detect, c.progressActive⟩
    (generatorForm_makeMarkerId _ _ _) _ (fun text ht => (hclean text ht).2) _ hcap p expired
  have hpoll : poll ⟨passMarker pid a s, detect, c.progressActive⟩ {} a.polls = .done q := by
    rw [hpolls]
    exact poll_concat_done hagain hdone
  rw [runMarkerEval_done h.sent hpoll, hext]

theorem truncateToolTail_fits {maxLines maxBytes : Nat} {text : Text} (hlines : 0 < maxLines) (hbytes : 0 < maxBytes)
    (h : Fits maxLines maxBytes text) : truncateToolTail text maxLines maxBytes = text := by
  have hwhole : truncateLinesTail text maxLines = text := by
    rw [truncateLinesTail, if_neg (by omega)]
    dsimp only
    rw [if_pos h.1]
  rw [truncateToolTail, hwhole, truncateBytesTail, if_neg (by omega), if_pos h.2]

/-- A line end less does not make more lines. -/
theorem countedLines_concat (text : Text) : (countedLines text).length ≤ (countedLines (text ++ [nl])).length := by
  have hconcat : countedLines (text ++ [nl]) = (splitLoop [] text).1 ++ [(splitLoop [] text).2] := by
    simp [countedLines, splitLines, splitLoop_closed, splitLoop]
  have hle : (countedLines text).length ≤ (splitLines text).length := by
    simp only [countedLines]
    split
    · simp
    · exact Nat.le_refl _
  refine hle.trans ?_
  rw [hconcat, splitLines]
  dsimp only
  split <;> simp

theorem Fits.concat {maxLines maxBytes : Nat} {text : Text} (h : Fits maxLines maxBytes (text ++ [nl])) :
    Fits maxLines maxBytes text := by
  refine ⟨(countedLines_concat text).trans h.1, ?_⟩
  have hlen := h.2
  rw [List.length_append] at hlen
  omega

theorem Fits.mono {maxLines maxBytes maxBytes' : Nat} {text : Text} (h : Fits maxLines maxBytes text)
    (hle : maxBytes ≤ maxBytes') : Fits maxLines maxBytes' text := ⟨h.1, h.2.trans hle⟩

/-- The two ways to put a text behind another differ where it starts with a line end. -/
theorem appendSegment_joined {out segment text : Text} (h : markerSegmentText segment = text) :
    appendSegment out segment = joined out text ↔
      ¬ (out ≠ [] ∧ out.getLast? ≠ some nl ∧ text.head? = some nl) := by
  rw [appendSegment, h, joined]
  by_cases htext : text = []
  · simp [htext]
  · simp only [htext, if_false]
    by_cases hopen : out ≠ [] ∧ out.getLast? ≠ some nl
    · by_cases hhead : text.head? = some nl
      · rw [if_neg (fun h => h.2.2 hhead), if_pos hopen]
        refine iff_of_false (fun heq => ?_) fun h => h ⟨hopen.1, hopen.2, hhead⟩
        have hlen := congrArg List.length heq
        simp at hlen
      · rw [if_pos ⟨hopen.1, hopen.2, hhead⟩, if_pos hopen]
        exact iff_of_true rfl fun h => hhead h.2.2
    · rw [if_neg (fun h => hopen ⟨h.1, h.2.1⟩), if_neg hopen]
      exact iff_of_true rfl fun h => hopen ⟨h.1, h.2.1⟩

theorem appendSegment_length {out segment : Text} :
    out.length + (markerSegmentText segment).length ≤ (appendSegment out segment).length := by
  rw [appendSegment]
  split
  next h => simp [h]
  · split
    · simp only [List.length_append, List.length_singleton]
      omega
    · rw [List.length_append]

theorem joined_length (first second : Text) : (joined first second).length ≤ first.length + 1 + second.length := by
  rw [joined]
  split
  · omega
  · split
    · simp only [List.length_append, List.length_singleton]
      exact Nat.le_refl _
    · rw [List.length_append]
      omega

theorem appendSegment_isPrefix (out segment : Text) : out <+: appendSegment out segment := by
  rw [appendSegment]
  split
  · exact List.prefix_rfl
  · split
    · rw [List.append_assoc]
      exact List.prefix_append _ _
    · exact List.prefix_append _ _

theorem joined_isPrefix (first second : Text) : first <+: joined first second := by
  rw [joined]
  split
  · exact List.prefix_rfl
  · split
    · rw [List.append_assoc]
      exact List.prefix_append _ _
    · exact List.prefix_append _ _

/-- Output before an error is in the report of the pane only. -/
theorem report_stdout {out message backtrace : Text} (hout : out ≠ []) (hlast : out.getLast? ≠ some nl)
    (hm : cr ∉ message) (hb : cr ∉ backtrace) :
    appendSegment (appendSegment out (message ++ [nl])) (backtrace ++ [nl]) ≠ joined message backtrace := by
  intro heq
  have hjoined := joined_length message backtrace
  have houter := @appendSegment_length (appendSegment out (message ++ [nl])) (backtrace ++ [nl])
  have hinner := @appendSegment_length out (message ++ [nl])
  rw [markerSegmentText_concat hb, heq] at houter
  rw [markerSegmentText_concat hm] at hinner
  have hone : 0 < out.length := List.length_pos_iff.mpr hout
  by_cases hempty : message = []
  · subst hempty
    have hback : joined [] backtrace = backtrace := by
      rw [joined]
      split <;> simp [*]
    rw [hback] at houter
    omega
  · -- a message that adds no line end of its own starts with one, and the output does not
    have hlen : out.length = 1 := by omega
    obtain ⟨c, rfl⟩ := List.length_eq_one_iff.mp hlen
    have hc : c ≠ nl := fun he => hlast (he ▸ rfl)
    by_cases hhead : message.head? = some nl
    · obtain ⟨rest, hrest⟩ : [c] <+: joined message backtrace :=
        (appendSegment_isPrefix [c] _).trans (heq ▸ appendSegment_isPrefix _ _)
      obtain ⟨tail, rfl⟩ := List.head?_eq_some_iff.mp hhead
      obtain ⟨rest', hrest'⟩ := joined_isPrefix (nl :: tail) backtrace
      rw [← hrest'] at hrest
      exact hc (List.cons.inj hrest).1
    · have hinserted : appendSegment [c] (message ++ [nl]) = [c] ++ [nl] ++ message := by
        rw [appendSegment, markerSegmentText_concat hm, if_neg hempty, if_pos ⟨by simp, hlast, hhead⟩]
      rw [hinserted] at houter
      simp only [List.length_append, List.length_singleton] at houter
      omega

theorem socket_fields (r : SocketEvalResponse) (name : Text) (n : Nat) :
    (socketResponseToToolResult r name n).isError = !r.ok ∧
    (socketResponseToToolResult r name n).structured.get? (lit "stdout") =
      some (.str (truncateToolTail r.stdoutText n kMaxMcpTextBytes)) ∧
    (socketResponseToToolResult r name n).structured.get? (lit "value_repr") =
      some (.str (truncateToolTail r.valueShow n kMaxMcpTextBytes)) ∧
    (socketResponseToToolResult r name n).structured.get? (lit "error_message") =
      some (.str (truncateToolTail r.errorMessage n kMaxMcpTextBytes)) ∧
    (socketResponseToToolResult r name n).structured.get? (lit "backtrace") =
      some (.str (truncateToolTail r.backtrace 200 kMaxMcpBacktraceBytes)) ∧
    (socketResponseToToolResult r name n).structured.get? (lit "julia_error") = some (.bool (!r.ok)) := by
  unfold socketResponseToToolResult
  cases r.ok <;> exact ⟨rfl, rfl, rfl, rfl, rfl, rfl⟩

theorem pane_fields (a : PassAnswers) (m : Marker) (n : Nat) (e : ExtractedOutput) :
    (doneResult a m n e).structured.get? (lit "stdout") = some (.str (truncateToolTail e.stdoutText n kMaxMcpTextBytes)) ∧
    (doneResult a m n e).structured.get? (lit "value_repr") =
      some (.str (truncateToolTail e.valueRepr n kMaxMcpTextBytes)) ∧
    (doneResult a m n e).structured.get? (lit "error_message") =
      some (.str (truncateToolTail e.errorMessage n kMaxMcpTextBytes)) ∧
    (doneResult a m n e).structured.get? (lit "backtrace") =
      some (.str (truncateToolTail e.backtrace 200 kMaxMcpBacktraceBytes)) ∧
    (doneResult a m n e).structured.get? (lit "julia_error") = some (.bool e.juliaError) :=
  ⟨rfl, rfl, rfl, rfl, rfl⟩

section

variable {ev : Evaluation} {captureLines : Nat}

theorem runEval_returned (h : Within captureLines ev) {shown : Option Text} (hend : ev.ending = .returned shown)
    (elapsedMs : Int) :
    runEval ev kMaxSocketFieldBytes elapsedMs = ⟨true, output ev, [], shown.getD [], [], [], elapsedMs⟩ := by
  have hpos : 0 < kMaxSocketFieldBytes := by decide
  have hnil : truncateTail [] kMaxSocketFieldBytes = [] := truncateTail_fits hpos (Nat.zero_le _)
  simp only [runEval, hend]
  rw [drainPipeTail_fits hpos h.output.2, drainPipeTail_fits hpos (Nat.zero_le _), hnil,
    truncateTail_fits hpos (h.shown shown hend).2]
  rfl

theorem runEval_threw (h : Within captureLines ev) {message backtrace : Text}
    (hend : ev.ending = .threw message backtrace) (elapsedMs : Int) :
    runEval ev kMaxSocketFieldBytes elapsedMs = ⟨false, output ev, [], [], message, backtrace, elapsedMs⟩ := by
  have hpos : 0 < kMaxSocketFieldBytes := by decide
  have hnil : truncateTail [] kMaxSocketFieldBytes = [] := truncateTail_fits hpos (Nat.zero_le _)
  obtain ⟨hm, hb⟩ := h.thrown message backtrace hend
  simp only [runEval, hend]
  rw [drainPipeTail_fits hpos h.output.2, drainPipeTail_fits hpos (Nat.zero_le _), hnil,
    truncateTail_fits hpos hm.2, truncateTail_fits hpos (hb.2.trans (by decide))]
  rfl

theorem fits_segment {maxLines maxBytes : Nat} {text : Text} (hcr : cr ∉ text) (h : Fits maxLines maxBytes text) :
    Fits maxLines maxBytes (markerSegmentText text) := by
  by_cases hlast : text.getLast? = some nl
  · obtain ⟨line, rfl⟩ := List.getLast?_eq_some_iff.mp hlast
    rw [markerSegmentText_concat fun hc => hcr (List.mem_append_left _ hc)]
    exact h.concat
  · rwa [markerSegmentText_plain hcr hlast]

theorem segment_eq_iff {text : Text} (hcr : cr ∉ text) : text = markerSegmentText text ↔ text.getLast? ≠ some nl := by
  constructor
  · intro heq hlast
    obtain ⟨line, rfl⟩ := List.getLast?_eq_some_iff.mp hlast
    rw [markerSegmentText_concat fun hc => hcr (List.mem_append_left _ hc)] at heq
    simpa using congrArg List.length heq
  · exact fun hlast => (markerSegmentText_plain hcr hlast).symm

variable {m : Marker} (hlines : 0 < captureLines) (hwithin : Within captureLines ev) (hclean : Clean m ev)

include hclean in
theorem cr_output : cr ∉ output ev := by
  refine (hclean (output ev) ?_).1
  unfold emission
  cases ev.ending with
  | returned shown => cases shown <;> simp [parts]
  | threw message backtrace => simp [parts]

include hclean in
theorem extracted_returned {shown : Option Text} (hend : ev.ending = .returned shown) :
    (extracted (emission ev)).juliaError = false ∧ (extracted (emission ev)).valueRepr = shown.getD [] ∧
      (extracted (emission ev)).errorMessage = [] ∧ (extracted (emission ev)).backtrace = [] := by
  cases shown with
  | none =>
      rw [emission, hend]
      exact ⟨rfl, rfl, rfl, rfl⟩
  | some shown =>
      have hmem : shown ++ [nl] ∈ (parts (emission ev)).map Prod.fst := by
        rw [emission, hend]
        simp [parts]
      have hcr : cr ∉ shown := fun hc => (hclean _ hmem).1 (List.mem_append_left _ hc)
      rw [emission, hend]
      exact ⟨rfl, markerSegmentText_concat hcr, rfl, rfl⟩

include hclean in
theorem cr_threw {message backtrace : Text} (hend : ev.ending = .threw message backtrace) :
    cr ∉ message ∧ cr ∉ backtrace := by
  have hmem : ∀ text, text = message ∨ text = backtrace → text ++ [nl] ∈ (parts (emission ev)).map Prod.fst := by
    rw [emission, hend]
    rintro text (rfl | rfl) <;> simp [parts]
  exact ⟨fun hc => (hclean _ (hmem _ (.inl rfl))).1 (List.mem_append_left _ hc),
    fun hc => (hclean _ (hmem _ (.inr rfl))).1 (List.mem_append_left _ hc)⟩

include hclean in
theorem extracted_threw {message backtrace : Text} (hend : ev.ending = .threw message backtrace) :
    (extracted (emission ev)).juliaError = true ∧ (extracted (emission ev)).valueRepr = [] ∧
      (extracted (emission ev)).errorMessage = message ∧ (extracted (emission ev)).backtrace = backtrace := by
  obtain ⟨hm, hb⟩ := cr_threw hclean hend
  rw [emission, hend]
  exact ⟨rfl, rfl, markerSegmentText_concat hm, markerSegmentText_concat hb⟩

theorem extracted_stdout (ev : Evaluation) :
    (extracted (emission ev)).stdoutText = markerSegmentText (output ev) := by
  unfold emission
  cases ev.ending with
  | returned shown => cases shown <;> rfl
  | threw message backtrace => rfl

include hwithin hclean in
/-- The response and the extraction hold the same but for the output's last line end. -/
theorem runEval_extracted (elapsedMs : Int) :
    (runEval ev kMaxSocketFieldBytes elapsedMs).stdoutText = output ev ∧
      (!(runEval ev kMaxSocketFieldBytes elapsedMs).ok) = (extracted (emission ev)).juliaError ∧
      (runEval ev kMaxSocketFieldBytes elapsedMs).valueShow = (extracted (emission ev)).valueRepr ∧
      (runEval ev kMaxSocketFieldBytes elapsedMs).errorMessage = (extracted (emission ev)).errorMessage ∧
      (runEval ev kMaxSocketFieldBytes elapsedMs).backtrace = (extracted (emission ev)).backtrace := by
  cases hend : ev.ending with
  | returned shown =>
      obtain ⟨herr, hvalue, hmessage, hbt⟩ := extracted_returned hclean hend
      rw [runEval_returned hwithin hend, herr, hvalue, hmessage, hbt]
      exact ⟨rfl, rfl, rfl, rfl, rfl⟩
  | threw message backtrace =>
      obtain ⟨herr, hvalue, hmessage, hbt⟩ := extracted_threw hclean hend
      rw [runEval_threw hwithin hend, herr, hvalue, hmessage, hbt]
      exact ⟨rfl, rfl, rfl, rfl, rfl⟩

include hlines hwithin in
theorem socket_report (elapsedMs : Int) :
    (socketResponseToToolResult (runEval ev kMaxSocketFieldBytes elapsedMs) (lit "socket") captureLines).text =
      socketReport ev := by
  have hbytes : 0 < kMaxMcpTextBytes := by decide
  have hle : kMaxSocketFieldBytes ≤ kMaxMcpTextBytes := by decide
  have hcut : ∀ text : Text, text.length ≤ kMaxMcpTextBytes → truncateBytesTail text kMaxMcpTextBytes = text := by
    intro text h
    rw [truncateBytesTail, if_neg (by omega), if_pos h]
  have hreport := hwithin.reports.1.2
  cases hend : ev.ending with
  | returned shown =>
      simp only [socketReport, hend] at hreport ⊢
      rw [runEval_returned hwithin hend, socketResponseToToolResult, if_pos rfl]
      dsimp only
      rw [truncateToolTail_fits hlines hbytes (hwithin.output.mono hle),
        truncateToolTail_fits hlines hbytes ((hwithin.shown shown hend).mono hle), hcut _ hreport]
  | threw message backtrace =>
      obtain ⟨hm, hb⟩ := hwithin.thrown message backtrace hend
      simp only [socketReport, hend] at hreport ⊢
      rw [runEval_threw hwithin hend, socketResponseToToolResult, if_neg (by simp)]
      dsimp only
      rw [truncateToolTail_fits hlines hbytes (hm.mono hle), truncateToolTail_fits (by decide) (by decide) hb,
        hcut _ hreport]

include hlines hwithin hclean in
/-- With nothing cut, only the reports and the output's last line end can differ. -/
theorem agree_reports (a : PassAnswers) (elapsedMs : Int) :
    Agree (socketResponseToToolResult (runEval ev kMaxSocketFieldBytes elapsedMs) (lit "socket") captureLines)
        (doneResult a m captureLines (extracted (emission ev))) ↔
      (output ev).getLast? ≠ some nl ∧ socketReport ev = (extracted (emission ev)).text := by
  have hle : kMaxSocketFieldBytes ≤ kMaxMcpTextBytes := by decide
  have hcr := cr_output hclean
  obtain ⟨hout, hok, hvalue, hmessage, hbt⟩ := runEval_extracted hwithin hclean elapsedMs
  obtain ⟨sError, sOut, sValue, sMessage, sBt, sJulia⟩ :=
    socket_fields (runEval ev kMaxSocketFieldBytes elapsedMs) (lit "socket") captureLines
  obtain ⟨pOut, pValue, pMessage, pBt, pJulia⟩ := pane_fields a m captureLines (extracted (emission ev))
  have hstdout : (socketResponseToToolResult (runEval ev kMaxSocketFieldBytes elapsedMs) (lit "socket")
      captureLines).structured.get? (lit "stdout") =
      (doneResult a m captureLines (extracted (emission ev))).structured.get? (lit "stdout") ↔
      (output ev).getLast? ≠ some nl := by
    rw [sOut, pOut, hout, extracted_stdout,
      truncateToolTail_fits hlines (by decide) (hwithin.output.mono hle),
      truncateToolTail_fits hlines (by decide) (fits_segment hcr (hwithin.output.mono hle)), ← segment_eq_iff hcr]
    simp
  have hreport : (doneResult a m captureLines (extracted (emission ev))).text = (extracted (emission ev)).text :=
    truncateToolTail_fits hlines (by decide) hwithin.reports.2
  constructor
  · intro h
    refine ⟨hstdout.mp (h.structured _ (by simp [sharedFields])), ?_⟩
    rw [← socket_report hlines hwithin elapsedMs, h.text, hreport]
  · rintro ⟨hlast, htext⟩
    refine ⟨sError.trans hok, ?_, ?_⟩
    · rw [socket_report hlines hwithin elapsedMs, htext, hreport]
    · simp only [sharedFields, List.forall_mem_cons, List.not_mem_nil, false_implies, implies_true, and_true]
      refine ⟨hstdout.mpr hlast, ?_, ?_, ?_, ?_⟩
      · rw [sValue, pValue, hvalue]
      · rw [sMessage, pMessage, hmessage]
      · rw [sBt, pBt, hbt]
      · rw [sJulia, pJulia, hok]

include hclean in
theorem reports_eq_iff (hlast : (output ev).getLast? ≠ some nl) :
    socketReport ev = (extracted (emission ev)).text ↔ SameReport ev := by
  have hcr := cr_output hclean
  have hseg := markerSegmentText_plain hcr hlast
  cases hend : ev.ending with
  | returned shown =>
      obtain ⟨_, hvalue, _⟩ := extracted_returned hclean hend
      have htext : (extracted (emission ev)).text = appendSegment (output ev) (valueRepr (emission ev)) := by
        rw [emission, hend]
        cases shown <;>
          simp [extracted, parts, valueRepr, appendSegment_nil_left, hseg]
      simp only [socketReport, SameReport, hend]
      rw [htext, eq_comm, appendSegment_joined hvalue]
      simp only [hlast, ne_eq, not_false_eq_true, true_and, not_and_or, not_not]
  | threw message backtrace =>
      obtain ⟨hm, hb⟩ := cr_threw hclean hend
      have htext : (extracted (emission ev)).text =
          appendSegment (appendSegment (output ev) (message ++ [nl])) (backtrace ++ [nl]) := by
        rw [emission, hend]
        simp [extracted, parts, appendSegment_nil_left, hseg]
      simp only [socketReport, SameReport, hend]
      rw [htext, eq_comm]
      by_cases hout : output ev = []
      · rw [hout, appendSegment_nil_left, markerSegmentText_concat hm,
          appendSegment_joined (markerSegmentText_concat hb)]
        simp only [ne_eq, true_and, not_and_or, not_not]
      · exact iff_of_false (report_stdout hout hlast hm hb) fun h => hout h.1

/-- The two transports report an evaluation alike exactly when its output has no
last line end, and its reports put no line end between two texts. -/
theorem transports_agree_iff {pid : Nat} {a : PassAnswers} {b : Binding} {c : EvalCall} {detect : Bool} {s : Session}
    {r : ToolResult} (hlines : 0 < c.captureLines) (hwithin : Within c.captureLines ev)
    (hclean : Clean (passMarker pid a s) ev) (hpass : EmittedPass pid a c detect s ev)
    (hr : (runMarkerEval pid a b c detect s).2 = .stop (some r)) (elapsedMs : Int) :
    Agree (socketResponseToToolResult (runEval ev kMaxSocketFieldBytes elapsedMs) (lit "socket") c.captureLines) r ↔
      SameReport ev := by
  rw [runMarkerEval_emitted hpass hclean] at hr
  obtain rfl := Option.some.inj (PassResult.stop.inj hr)
  rw [agree_reports hlines hwithin hclean a elapsedMs]
  by_cases hlast : (output ev).getLast? = some nl
  · refine iff_of_false (fun h => h.1 hlast) fun h => ?_
    unfold SameReport at h
    cases hend : ev.ending with
    | returned shown =>
        rw [hend] at h
        exact h.1 hlast
    | threw message backtrace =>
        rw [hend] at h
        simp [h.1] at hlast
  · rw [reports_eq_iff hclean hlast, and_iff_right hlast]

end

/-- An evaluation that prints one text and returns. -/
def printing (text : Text) (shown : Option Text) : Evaluation := { printed := [text], ending := .returned shown }

/-- A pass whose only capture is the emission. -/
def onePoll (ev : Evaluation) : PassAnswers where
  micros := 7
  polls := [⟨.ok (render ⟨makeMarkerId 7 41 1, emission ev, .lf, fun _ => .lf⟩), false⟩]

def freshSession : Session := { server := { configPath := ⟨true, []⟩ } }

theorem onePoll_emitted (ev : Evaluation) (c : EvalCall) : EmittedPass 41 (onePoll ev) c true freshSession ev := by
  refine ⟨⟨rfl, rfl⟩, [], {}, _, _, rfl, rfl, [], .lf, fun _ => .lf, [], terminated_nil, ?_, ?_⟩
  · exact fun l hl => absurd hl List.not_mem_nil
  · rw [List.nil_append, List.append_nil]
    rfl

theorem printing_clean {text : Text} {shown : Option Text} {id : Text}
    (h : ∀ t ∈ (parts (emission (printing text shown))).map Prod.fst, cr ∉ t ∧ ¬ id <:+: t) :
    Clean (makeMarker id) (printing text shown) :=
  fun t ht => ⟨(h t ht).1, markFree_of_id (h t ht).2⟩

theorem printing_within {text : Text} {shown : Option Text}
    (hout : Fits 2000 kMaxSocketFieldBytes text) (hshown : Fits 2000 kMaxSocketFieldBytes (shown.getD []))
    (hreports : Fits 2000 kMaxMcpTextBytes (joined text (shown.getD [])) ∧
      Fits 2000 kMaxMcpTextBytes (extracted (emission (printing text shown))).text) :
    Within 2000 (printing text shown) := by
  have houtput : output (printing text shown) = text := by simp [output, printing]
  refine ⟨by rwa [houtput], ?_, fun message backtrace h => Ending.noConfusion h, ?_⟩
  · rintro shown' h
    obtain rfl := Ending.returned.inj h
    exact hshown
  · refine ⟨?_, hreports.2⟩
    rw [socketReport, houtput]
    exact hreports.1

theorem transports_agree_printed :
    ∃ r, (runMarkerEval 41 (onePoll (printing (lit "hi") (some (lit "42")))) ⟨lit "%1", lit "%1", [], []⟩
        { code := lit "print(\"hi\"); 42" } true freshSession).2 = .stop (some r) ∧
      Agree (socketResponseToToolResult (runEval (printing (lit "hi") (some (lit "42"))) kMaxSocketFieldBytes 3)
        (lit "socket") 2000) r := by
  have hclean : Clean (passMarker 41 (onePoll (printing (lit "hi") (some (lit "42")))) freshSession)
      (printing (lit "hi") (some (lit "42"))) := printing_clean (by decide +kernel)
  have hwithin : Within 2000 (printing (lit "hi") (some (lit "42"))) :=
    printing_within (by decide +kernel) (by decide +kernel) (by decide +kernel)
  have hpass := onePoll_emitted (printing (lit "hi") (some (lit "42"))) { code := lit "print(\"hi\"); 42" }
  have hrun := runMarkerEval_emitted (b := ⟨lit "%1", lit "%1", [], []⟩) hpass hclean
  exact ⟨_, hrun, (transports_agree_iff (by decide) hwithin hclean hpass hrun 3).mpr ⟨by decide, .inr (by decide)⟩⟩

/-- println leaves its line end on the socket path only. -/
theorem not_transports_agree :
    ¬ ∀ (pid : Nat) (a : PassAnswers) (b : Binding) (c : EvalCall) (detect : Bool) (s : Session) (ev : Evaluation)
      (r : ToolResult) (elapsedMs : Int), 0 < c.captureLines → Within c.captureLines ev →
      Clean (passMarker pid a s) ev → EmittedPass pid a c detect s ev →
      (runMarkerEval pid a b c detect s).2 = .stop (some r) →
      Agree (socketResponseToToolResult (runEval ev kMaxSocketFieldBytes elapsedMs) (lit "socket") c.captureLines) r := by
  intro h
  have hclean : Clean (passMarker 41 (onePoll (printing (lit "hi\n") none)) freshSession)
      (printing (lit "hi\n") none) := printing_clean (by decide +kernel)
  have hwithin : Within 2000 (printing (lit "hi\n") none) :=
    printing_within (by decide +kernel) (by decide +kernel) (by decide +kernel)
  have hpass := onePoll_emitted (printing (lit "hi\n") none) { code := lit "println(\"hi\")" }
  have hrun := runMarkerEval_emitted (b := ⟨lit "%1", lit "%1", [], []⟩) hpass hclean
  have hagree := h _ _ _ _ _ _ _ _ 3 (by decide) hwithin hclean hpass hrun
  exact ((agree_reports (by decide) hwithin hclean _ 3).mp hagree).1 (by decide)

end JJMCP.TransportAgreement
