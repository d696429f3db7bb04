import JJMCP.PollComplete
import JJMCP.Scrollback
import JJMCP.Tools
import JJMCP.TransportAgreement

namespace JJMCP

/-- A pass in a pane that is written to: what each capture shows is a window on
the lines at that moment, and the emission starts at one of the last lines. -/
structure PaneRun where
  pid : Nat
  answers : PassAnswers
  binding : Binding
  call : EvalCall
  detectMissingRuntime : Bool
  session : Session
  lines : Nat
  stream : Text
  moments : List Nat
  last : Nat
  begins : Nat

inductive Course
  | socket (captureLines : Nat) (elapsedMs : Int)
  | pane (run : PaneRun)

end JJMCP

namespace JJMCP.TranscriptKeeps

open Lib.Occurrence Lib.Lines Text Marker Extract Emission Truncate Poll Scrollback EvalCode HelperOutput
  TransportAgreement Tools

def kMaxTranscriptOutputBytes : Nat := 8 * 1024 * 1024

/-- cap_output -/
def capOutput (output : Text) : Text :=
  if output.length ≤ kMaxTranscriptOutputBytes then output
  else
    let omitted := output.length - kMaxTranscriptOutputBytes
    lit "[jjmcp transcript: " ++ decimal omitted ++ lit " earlier bytes omitted]\n" ++ output.drop omitted

/-- The recorded output contains what was printed, up to carriage returns and
its last line end. -/
def Keeps (e : TranscriptEntry) (ev : Evaluation) : Prop :=
  cleaned (output ev) <:+: (capOutput e.output).filter (· ≠ cr)

def Kept (ev : Evaluation) (r : ToolResult) (tool : ToolCall) (d : Dispatcher) : Prop :=
  ∃ e, (recordTranscript tool r d).appended = d.appended ++ [e] ∧ Keeps e ev

def PaneRun.marker (p : PaneRun) : Marker := passMarker p.pid p.answers p.session

def PaneRun.pass (p : PaneRun) : Pass := ⟨PaneRun.marker p, p.detectMissingRuntime, p.call.progressActive⟩

def PaneRun.pane (p : PaneRun) (t : Nat) : List Text := paneLines (p.stream.take t)

def PaneRun.shows (p : PaneRun) (t : Nat) : Text := capturePane p.lines (p.stream.take t)

/-- The last capture ends the pass normally, when the pane holds the emission. -/
structure PaneEnds (p : PaneRun) (ev : Evaluation) (r : ToolResult) : Prop where
  sent : p.answers.send.load = .ok () ∧ p.answers.send.paste = .ok ()
  grows : (p.moments ++ [p.last]).Pairwise (· ≤ ·)
  reads : ∃ earlier expired s q, p.answers.polls = earlier ++ [⟨.ok (PaneRun.shows p p.last), expired⟩] ∧
    captured earlier = captures p.lines p.stream p.moments ∧ poll (PaneRun.pass p) {} earlier = .again s ∧
    pollStep (PaneRun.pass p) s ⟨.ok (PaneRun.shows p p.last), expired⟩ = .done q
  prints : ∃ beginEnd lineEnd rest, unlines nl ((PaneRun.pane p p.last).drop p.begins) =
    render ⟨(PaneRun.marker p).id, emission ev, beginEnd, lineEnd⟩ ++ rest
  result : (runMarkerEval p.pid p.answers p.binding p.call p.detectMissingRuntime p.session).2 = .stop (some r)

def Ends (ev : Evaluation) (r : ToolResult) : Course → Prop
  | .socket captureLines elapsedMs =>
      r = socketResponseToToolResult (runEval ev kMaxSocketFieldBytes elapsedMs) (lit "socket") captureLines
  | .pane p => PaneEnds p ev r

/-- From the first capture that shows BEGIN, at its line, up to the last capture
but one: every two captures that follow one another join, and the text from
BEGIN on stays below the limit for compaction. -/
structure Gathered (p : PaneRun) (first : Nat) (later : List Nat) : Prop where
  begun : firstLine p.lines (p.stream.take first) ≤ p.begins ∧
    p.begins < (closedLines nl [] (p.stream.take first)).length
  shares : (first :: later ++ [p.last]).IsChain fun t t' => Shares p.lines (p.stream.take t) (p.stream.take t')
  joins : (first :: later ++ [p.last]).IsChain fun t t' => Joins p.lines (p.stream.take t) (p.stream.take t')
  below : ∀ t ∈ first :: later,
    (unlines nl ((PaneRun.pane p t).drop p.begins)).length ≤ kMaxEvalAccumulatorBytes

structure PaneSpared (p : PaneRun) (ev : Evaluation) : Prop where
  room : (content (emission ev)).text.length ≤ kMaxTranscriptOutputBytes
  free : ∀ text ∈ (parts (emission ev)).map Prod.fst, MarkFree (PaneRun.marker p) text
  fresh : ∀ l ∈ (PaneRun.pane p p.last).take p.begins, ¬ (PaneRun.marker p).beginMark <:+: l
  once : ∀ l ∈ (PaneRun.pane p p.last).drop (p.begins + 1), trimAscii l ≠ (PaneRun.marker p).beginMark
  window : firstLine p.lines (p.stream.take p.last) ≤ p.begins ∨
    ∃ early first later, p.moments = early ++ first :: later ∧
      (∀ t ∈ early, ¬ (PaneRun.marker p).beginMark <:+: PaneRun.shows p t) ∧ Gathered p first later

/-- Every text but the output is shorter than a 64-bit size can say. -/
def Sized (ev : Evaluation) : Prop :=
  match ev.ending with
  | .returned shown => (shown.getD []).length < 2 ^ 64
  | .threw message backtrace => message.length < 2 ^ 64 ∧ backtrace.length < 2 ^ 64

/-- None of the caps before the transcript's own cuts the output. -/
def Spared (ev : Evaluation) : Course → Prop
  | .socket _ _ => (output ev).length ≤ kMaxSocketFieldBytes ∧ Sized ev
  | .pane p => PaneSpared p ev

theorem markerSegmentText_isPrefix (text : Text) : markerSegmentText text <+: text.filter (· ≠ cr) := by
  rw [markerSegmentText]
  split
  · exact List.dropLast_prefix _
  · exact List.prefix_rfl

/-- A full output with room that holds the printed text is what the entry records. -/
theorem kept_of_fullOutput {ev : Evaluation} {r : ToolResult} {tool : ToolCall} {d : Dispatcher}
    (hon : Transcript.enabled d.transcript = true)
    (hfull : markerSegmentText (output ev) <:+: r.fullOutput.filter (· ≠ cr))
    (hroom : r.fullOutput.length ≤ kMaxTranscriptOutputBytes) : Kept ev r tool d := by
  have hpath : d.transcript.path ≠ [] := by simpa [Transcript.enabled] using hon
  rw [Kept, recordTranscript, if_pos hon, append, if_neg hpath]
  refine ⟨_, rfl, ?_⟩
  rw [Keeps, ← markerSegmentText_eq]
  dsimp only
  split
  next hnil =>
    rw [hnil, List.filter_nil, List.infix_nil] at hfull
    rw [hfull]
    exact List.nil_infix
  next => rwa [capOutput, if_pos hroom]

section Socket

theorem cutStart_le (text : Text) {start : Nat} (h : start ≤ text.length) :
    start ≤ cutStart text start ∧ cutStart text start ≤ text.length := by
  have htake := (List.takeWhile_prefix (p := isUtf8Continuation) (l := text.drop start)).length_le
  rw [List.length_drop] at htake
  rw [cutStart]
  omega

theorem omittedNote_length {n : Nat} (h : n < 2 ^ 64) : (omittedNote n).length ≤ 100 := by
  have hdigits := decimal_length (n := n) (k := 20) (by omega) (by decide)
  have hopen : (lit "[JJMCP truncated: omitted ").length = 26 := by decide
  have hclose : (lit " earlier byte(s)]").length = 17 := by decide
  simp only [omittedNote, List.length_append, hopen, hclose, List.length_singleton]
  omega

theorem truncateTail_length {text : Text} {maxBytes : Nat} (hpos : 0 < maxBytes) (h : text.length < 2 ^ 64) :
    (truncateTail text maxBytes).length ≤ maxBytes + 100 := by
  rw [truncateTail, if_neg (by omega)]
  split
  · omega
  next hover =>
    obtain ⟨hle, hend⟩ := cutStart_le text (Nat.sub_le text.length maxBytes)
    have hnote := omittedNote_length (n := cutStart text (text.length - maxBytes)) (by omega)
    dsimp only
    rw [List.length_append, List.length_drop]
    omega

theorem socket_kept {ev : Evaluation} {captureLines : Nat} {elapsedMs : Int} {tool : ToolCall} {d : Dispatcher}
    (hon : Transcript.enabled d.transcript = true) (hout : (output ev).length ≤ kMaxSocketFieldBytes)
    (hsized : Sized ev) :
    Kept ev (socketResponseToToolResult (runEval ev kMaxSocketFieldBytes elapsedMs) (lit "socket") captureLines)
      tool d := by
  have hpos : 0 < kMaxSocketFieldBytes := by decide
  have hdrain : drainPipeTail ev.printed kMaxSocketFieldBytes = output ev := drainPipeTail_fits hpos hout
  have hfields : kMaxSocketFieldBytes = 240 * 1024 := rfl
  have hlimit : kMaxTranscriptOutputBytes = 8 * 1024 * 1024 := rfl
  -- in both endings the output comes first, and each text after it is at most a field long
  have hfull : ∃ first second, (socketResponseToToolResult (runEval ev kMaxSocketFieldBytes elapsedMs)
      (lit "socket") captureLines).fullOutput = joined (joined (output ev) first) second ∧
      first.length ≤ kMaxSocketFieldBytes + 100 ∧ second.length ≤ kMaxSocketFieldBytes + 100 := by
    unfold Sized at hsized
    cases hend : ev.ending with
    | returned shown =>
        rw [hend] at hsized
        refine ⟨truncateTail (shown.getD []) kMaxSocketFieldBytes, [], ?_, truncateTail_length hpos hsized,
          Nat.zero_le _⟩
        simp [runEval, hend, socketResponseToToolResult, hdrain, joined]
    | threw message backtrace =>
        rw [hend] at hsized
        refine ⟨_, _, ?_, truncateTail_length hpos hsized.1, truncateTail_length hpos hsized.2⟩
        simp [runEval, hend, socketResponseToToolResult, hdrain]
  obtain ⟨first, second, heq, hfirst, hsecond⟩ := hfull
  apply kept_of_fullOutput hon
  · have hopens : output ev <+: joined (joined (output ev) first) second :=
      (joined_isPrefix _ _).trans (joined_isPrefix _ _)
    rw [heq]
    exact ((markerSegmentText_isPrefix _).trans (hopens.filter _)).isInfix
  · have hinner := joined_length (output ev) first
    have houter := joined_length (joined (output ev) first) second
    rw [heq]
    omega

theorem output_printing (text : Text) (shown : Option Text) : output (printing text shown) = text := by
  simp [output, printing]

/-- What the helper keeps of one letter printed over and over. -/
theorem drainPipeTail_replicate {n maxBytes : Nat} (hpos : 0 < maxBytes) (h : maxBytes < n) :
    drainPipeTail [List.replicate n 120] maxBytes = omittedNote (n - maxBytes) ++ List.replicate maxBytes 120 := by
  have hstart : cutStart (List.replicate n 120) (n - maxBytes) = n - maxBytes := by
    obtain ⟨k, hk⟩ : ∃ k, n - (n - maxBytes) = k + 1 := ⟨maxBytes - 1, by omega⟩
    rw [cutStart, List.drop_replicate, hk, List.replicate_succ, List.takeWhile_cons_of_neg (by decide)]
    rfl
  have hlen : ¬ (List.replicate n (120 : UInt8)).length ≤ maxBytes := by
    rw [List.length_replicate]
    omega
  rw [drainPipeTail, List.foldl_cons, List.foldl_nil, appendTail, if_neg (by dsimp only; omega)]
  dsimp only
  rw [List.nil_append, if_neg hlen, List.length_replicate, hstart, List.drop_replicate, tailString,
    if_neg (by dsimp only; omega), if_neg (by dsimp only; omega)]
  dsimp only
  rw [Nat.sub_sub_self h.le, Nat.zero_add]

theorem count_omittedNote (n : Nat) : (omittedNote n).count 120 = 0 := by
  have hdigits : (decimal n).count 120 = 0 := by
    refine List.count_eq_zero.mpr fun h => ?_
    exact absurd (decimal_digit h).2 (by decide)
  have hopen : (lit "[JJMCP truncated: omitted ").count 120 = 0 := by decide
  have hclose : (lit " earlier byte(s)]" ++ [nl]).count 120 = 0 := by decide
  rw [omittedNote, List.count_append, List.count_append, hdigits, hopen, hclose]

/-- A longer output over the socket is not kept. -/
theorem socket_lost {n captureLines : Nat} {elapsedMs : Int} {tool : ToolCall} {d : Dispatcher}
    (hon : Transcript.enabled d.transcript = true) (hn : kMaxSocketFieldBytes < n) (hsize : n < 2 ^ 64) :
    ¬ Kept (printing (List.replicate n 120) none)
      (socketResponseToToolResult (runEval (printing (List.replicate n 120) none) kMaxSocketFieldBytes elapsedMs)
        (lit "socket") captureLines) tool d := by
  rintro ⟨e, happended, hkeeps⟩
  have hpath : d.transcript.path ≠ [] := by simpa [Transcript.enabled] using hon
  have hfields : kMaxSocketFieldBytes = 240 * 1024 := rfl
  have hlimit : kMaxTranscriptOutputBytes = 8 * 1024 * 1024 := rfl
  have hnote := omittedNote_length (n := n - kMaxSocketFieldBytes) (by omega)
  have hfull : (socketResponseToToolResult (runEval (printing (List.replicate n 120) none) kMaxSocketFieldBytes
      elapsedMs) (lit "socket") captureLines).fullOutput =
      omittedNote (n - kMaxSocketFieldBytes) ++ List.replicate kMaxSocketFieldBytes 120 := by
    have hpos : 0 < kMaxSocketFieldBytes := by decide
    have hdrain := drainPipeTail_replicate hpos hn
    have hnone : truncateTail [] kMaxSocketFieldBytes = [] := truncateTail_fits hpos (Nat.zero_le _)
    simp [runEval, printing, socketResponseToToolResult, hdrain, hnone, joined]
  have hout : e.output = omittedNote (n - kMaxSocketFieldBytes) ++ List.replicate kMaxSocketFieldBytes 120 := by
    rw [recordTranscript, if_pos hon, append, if_neg hpath] at happended
    have he := List.append_cancel_left happended
    rw [← (List.cons.inj he).1]
    dsimp only
    rw [hfull, if_neg]
    intro hnil
    have hlen := congrArg List.length hnil
    rw [List.length_append, List.length_replicate, List.length_nil] at hlen
    omega
  have hprinted : markerSegmentText (List.replicate n 120) = List.replicate n 120 := by
    refine markerSegmentText_plain ?_ ?_
    · exact fun hmem => absurd (List.eq_of_mem_replicate hmem) (by decide)
    · rw [List.getLast?_replicate]
      split <;> decide
  rw [Keeps, output_printing, ← markerSegmentText_eq, hprinted, hout, capOutput, if_pos] at hkeeps
  · have hcount := (hkeeps.sublist.trans List.filter_sublist).count_le 120
    rw [List.count_replicate_self, List.count_append, count_omittedNote, List.count_replicate_self] at hcount
    omega
  · rw [List.length_append, List.length_replicate]
    omega

/-- Over the socket, the length up to which every output is kept is the field's,
not the transcript's. -/
theorem socket_kept_iff {n captureLines : Nat} {elapsedMs : Int} {tool : ToolCall} {d : Dispatcher}
    (hon : Transcript.enabled d.transcript = true) (hsize : n < 2 ^ 64) :
    (∀ ev, (output ev).length ≤ n → Sized ev →
      Kept ev (socketResponseToToolResult (runEval ev kMaxSocketFieldBytes elapsedMs) (lit "socket") captureLines)
        tool d) ↔ n ≤ kMaxSocketFieldBytes := by
  constructor
  · intro h
    by_contra hlt
    refine socket_lost hon (Nat.lt_of_not_le hlt) hsize (h _ ?_ (Nat.zero_lt_succ _))
    rw [output_printing, List.length_replicate]
  · intro hn ev hout hsized
    exact socket_kept hon (hout.trans hn) hsized

end Socket

section Begin

variable {m : Marker}

/-- A terminated text in which the pass has not begun. -/
def Unbegun (m : Marker) (t : Text) : Prop := Terminated nl t ∧ ¬ m.beginMark <:+: t

/-- A loop that has not seen BEGIN. -/
structure Silent (m : Marker) (s : PollState) : Prop where
  accumulator : Unbegun m s.accumulator
  lastCapture : Unbegun m s.lastCapture
  untrimmed : s.beginTrimmed = false

/-- A pane may keep the carriage return of BEGIN's line. -/
def IsBegin (m : Marker) (line : Text) : Prop := line = m.beginMark ∨ line = m.beginMark ++ [cr]

theorem unbegun_nil (m : Marker) : Unbegun m [] := ⟨terminated_nil, by simp⟩

theorem Unbegun.isSuffix {t u : Text} (h : Unbegun m t) (hs : u <:+ t) : Unbegun m u := by
  obtain ⟨gone, rfl⟩ := hs
  exact ⟨h.1.suffix, fun hi => h.2 (List.infix_append_of_infix_right hi)⟩

theorem Unbegun.append (hm : m.OneLine) {a b : Text} (ha : Unbegun m a) (hb : Unbegun m b) : Unbegun m (a ++ b) := by
  refine ⟨ha.1.append hb.1, ?_⟩
  rw [infix_append_terminated _ ha.1 (nl_notMem_beginMark.mpr hm) (beginMark_ne_nil m), not_or]
  exact ⟨ha.2, hb.2⟩

theorem unbegun_unlines (hm : m.OneLine) {ls : List Text} (h : ∀ l ∈ ls, ¬ m.beginMark <:+: l) :
    Unbegun m (unlines nl ls) := by
  refine ⟨terminated_unlines ls, fun hi => ?_⟩
  obtain ⟨l, hl, hin⟩ := (infix_unlines ls (nl_notMem_beginMark.mpr hm) (beginMark_ne_nil m)).mp hi
  exact h l hl hin

theorem Unbegun.noBeginLine {t : Text} (h : Unbegun m t) : NoBeginLine m t := by
  intro l hl heq
  have hline : l <:+: t := mem_closedLines_isInfix hl
  exact h.2 (heq ▸ (trimAscii_isInfix l).trans hline)

theorem extract_unbegun {t : Text} (h : Unbegun m t) : extractBetweenMarkers t m = {} :=
  Tokens.extract_noBegin h.2

theorem extract_noBeginLine {t : Text} (hterm : Terminated nl t) (h : NoBeginLine m t) :
    extractBetweenMarkers t m = {} := by
  have hnone : findMarkerLinePayloadStart t m.beginMark = none := by
    have happend := findPayload_append [] hterm h
    rw [List.append_nil] at happend
    have hempty : trimAscii [] ≠ m.beginMark := (beginMark_ne_nil m).symm
    rw [happend, findMarkerLinePayloadStart, findMarkerLinePayload, if_neg hempty]
  rw [extract_eq, hnone]

theorem Silent.turn {pass : Pass} {s : PollState} (hm : pass.marker.OneLine) (h : Silent pass.marker s) {cap : Text}
    (hcap : Unbegun pass.marker cap) : Silent pass.marker (finishTurn pass (readCapture pass.marker cap s)) := by
  obtain ⟨old, new, hcut, _, hsplice⟩ := splice_eq s cap
  have hacc : Unbegun pass.marker (splice s cap) := by
    rw [hsplice]
    exact h.accumulator.append hm (hcap.isSuffix ⟨old, hcut.symm⟩)
  have hext : (readCapture pass.marker cap s).lastExtract = {} := by
    simp only [readCapture, extractCapture, extract_unbegun hcap, extract_unbegun hacc]
    rfl
  rw [PollComplete.finishTurn_nothing pass hext]
  split
  · obtain ⟨k, _, hk⟩ := dropHead_drop (readCapture pass.marker cap s)
    rw [hk]
    exact ⟨hacc.isSuffix (List.drop_suffix k _), hcap, h.untrimmed⟩
  · exact ⟨hacc, hcap, h.untrimmed⟩

theorem poll_silent {pass : Pass} {s s' : PollState} {is : List PollInput} (hm : pass.marker.OneLine)
    (h : Silent pass.marker s) (hcaps : ∀ cap ∈ captured is, Unbegun pass.marker cap)
    (hrun : poll pass s is = .again s') : Silent pass.marker s' := by
  induction is generalizing s with
  | nil =>
      obtain rfl := Polled.again.inj hrun
      exact h
  | cons i is ih =>
      obtain ⟨t, hstep, hrest⟩ := poll_cons_again hrun
      have hlater : ∀ cap ∈ captured is, Unbegun pass.marker cap := by
        intro cap hcap
        have hmore : captured (i :: is) = captured [i] ++ captured is := captured_append [i] is
        exact hcaps cap (hmore ▸ List.mem_append_right _ hcap)
      apply ih ?_ hlater hrest
      rcases pollStep_again hstep with ⟨error, _, rfl⟩ | ⟨cap, hcap, rfl, _⟩
      · exact ⟨h.accumulator, h.lastCapture, h.untrimmed⟩
      · exact h.turn hm (hcaps cap (by simp [captured, hcap, Except.toOption]))

section

variable {line : Text} (hline : IsBegin m line)
include hline

theorem IsBegin.isPrefix : m.beginMark <+: line := by
  rcases hline with rfl | rfl
  · exact List.prefix_rfl
  · exact List.prefix_append _ _

theorem IsBegin.trimmed : trimAscii line = m.beginMark := by
  rcases hline with rfl | rfl
  · exact trimAscii_beginMark m
  · rw [trimAscii_concat_blank (by decide), trimAscii_beginMark]

theorem IsBegin.nl_notMem (hm : m.OneLine) : nl ∉ line := by
  have hmark := nl_notMem_beginMark.mpr hm
  have hcr : nl ∉ [cr] := by decide
  rcases hline with rfl | rfl
  · exact hmark
  · rw [List.mem_append, not_or]
    exact ⟨hmark, hcr⟩

theorem IsBegin.found (hm : m.OneLine) {before : Text} (hbefore : Unbegun m before) (rest : Text) :
    (extractBetweenMarkers (before ++ (line ++ nl :: rest)) m).foundBegin = true := by
  rw [extract_eq, findPayload_append _ hbefore.1 hbefore.noBeginLine, findMarkerLinePayloadStart,
    findPayload_line _ _ _ _ (IsBegin.nl_notMem hline hm), List.nil_append, if_pos (IsBegin.trimmed hline)]
  exact Tokens.extractLoop_foundBegin m _ _ _ _

/-- A silent loop takes BEGIN's line and all below it as new. -/
theorem Silent.gains (hm : m.OneLine) {s : PollState} (h : Silent m s) {before : Text} (hbefore : Unbegun m before)
    (rest : Text) :
    ∃ mid, Unbegun m mid ∧ splice s (before ++ (line ++ nl :: rest)) = s.accumulator ++ mid ++ (line ++ nl :: rest) := by
  obtain ⟨old, new, hcut, hold, hsplice⟩ := splice_eq s (before ++ (line ++ nl :: rest))
  rcases List.append_eq_append_iff.mp hcut with ⟨below, hbelow, htail⟩ | ⟨mid, hmid, hnew⟩
  · have hunbegun : Unbegun m below :=
      h.lastCapture.isSuffix ((List.suffix_append before below).trans (hbelow ▸ hold))
    rcases hunbegun.1 with rfl | ⟨l, rfl⟩
    · refine ⟨[], unbegun_nil m, ?_⟩
      rw [hsplice, htail]
      simp
    · -- the old part would close a line that starts with BEGIN
      rcases List.append_eq_append_iff.mp htail with ⟨x, hx, _⟩ | ⟨x, hx, _⟩
      · refine absurd ?_ hunbegun.2
        rw [hx]
        exact (IsBegin.isPrefix hline).isInfix.trans (List.prefix_append _ _).isInfix
      · refine absurd ?_ (IsBegin.nl_notMem hline hm)
        rw [hx]
        simp
  · refine ⟨mid, hbefore.isSuffix ⟨old, hmid.symm⟩, ?_⟩
    rw [hsplice, hnew, List.append_assoc]

/-- The trim leaves what starts at BEGIN's line. -/
theorem Silent.begin {pass : Pass} (hpass : pass.marker = m) (hm : m.OneLine) {s : PollState} (h : Silent m s)
    {before rest : Text} (hbefore : Unbegun m before)
    (hsize : (line ++ nl :: rest).length ≤ kMaxEvalAccumulatorBytes) :
    Trails before (finishTurn pass (readCapture m (before ++ (line ++ nl :: rest)) s))
      (readAll m {} [before ++ (line ++ nl :: rest)]) := by
  obtain ⟨mid, hmid, hsplice⟩ := Silent.gains hline hm h hbefore rest
  have hjunk : Unbegun m (s.accumulator ++ mid) := h.accumulator.append hm hmid
  have hfound : (extractCapture m (before ++ (line ++ nl :: rest))
      (splice s (before ++ (line ++ nl :: rest)))).foundBegin = true := by
    have hlive := IsBegin.found hline hm hbefore rest
    rw [extractCapture, if_pos hlive]
    exact hlive
  obtain ⟨tail, htail⟩ := IsBegin.isPrefix hline
  rw [← htail, List.append_assoc] at hsplice hfound hsize ⊢
  have htrim := PollComplete.trim_accumulator (s := readCapture m (before ++ (m.beginMark ++ (tail ++ nl :: rest))) s)
    hm hjunk.1 hjunk.2 hsplice h.untrimmed hfound
  refine Trails.finishTurn ?_ ?_
  · rw [hpass, htrim]
    exact ⟨rfl, rfl, by simp, rfl⟩
  · change (before ++ (m.beginMark ++ (tail ++ nl :: rest))).length ≤ _
    rw [List.length_append]
    omega

end

end Begin

section Pane

theorem captured_split {is : List PollInput} {as bs : List Text} {cap : Text} (h : captured is = as ++ cap :: bs) :
    ∃ pre i post, is = pre ++ i :: post ∧ captured pre = as ∧ i.captured = .ok cap ∧ captured post = bs := by
  obtain ⟨front, back, rfl, hfront, hback⟩ := List.filterMap_eq_append_iff.mp h
  obtain ⟨lost, i, post, rfl, hlost, hi, hpost⟩ := List.filterMap_eq_cons_iff.mp hback
  refine ⟨front ++ lost, i, post, by simp, ?_, ?_, hpost⟩
  · rw [captured_append, captured, captured, hfront, List.filterMap_eq_nil_iff.mpr hlost, List.append_nil]
  · cases hcap : i.captured with
    | error e => simp [hcap, Except.toOption] at hi
    | ok c =>
        rw [hcap] at hi
        exact congrArg _ (Option.some.inj hi)

theorem unlines_drop_split (ls : List Text) {f b : Nat} (h : f ≤ b) :
    unlines nl (ls.drop f) = unlines nl ((ls.take b).drop f) ++ unlines nl (ls.drop b) := by
  have hsplit := List.drop_take_append_drop ls f (b - f)
  rw [Nat.add_sub_cancel' h] at hsplit
  rw [← unlines_append, List.drop_take, hsplit]

/-- Where the captures join, every earlier pane opens the last one. -/
theorem stands_last {lines last : Nat} {stream : Text} {ts : List Nat}
    (h : (ts ++ [last]).IsChain fun t t' => Joins lines (stream.take t) (stream.take t')) :
    ∀ t ∈ ts, paneLines (stream.take t) <+: paneLines (stream.take last) := by
  have hstands : (ts ++ [last]).IsChain fun t t' => paneLines (stream.take t) <+: paneLines (stream.take t') :=
    h.imp fun _ _ hj => hj.stands
  have : IsTrans Nat fun t t' => paneLines (stream.take t) <+: paneLines (stream.take t') :=
    ⟨fun _ _ _ hab hbc => hab.trans hbc⟩
  obtain ⟨_, _, hlast⟩ := List.pairwise_append.mp (List.isChain_iff_pairwise.mp hstands)
  exact fun t ht => hlast t ht last (List.mem_singleton.mpr rfl)

variable {p : PaneRun} {ev : Evaluation} {r : ToolResult}

theorem marker_oneLine (p : PaneRun) : (PaneRun.marker p).OneLine :=
  generatorForm_oneLine (generatorForm_makeMarkerId _ _ _)

theorem begin_line (hends : PaneEnds p ev r) :
    ∃ line ls, (PaneRun.pane p p.last).drop p.begins = line :: ls ∧ IsBegin (PaneRun.marker p) line := by
  obtain ⟨beginEnd, lineEnd, rest, hprints⟩ := hends.prints
  have hmark := nl_notMem_beginMark.mpr (marker_oneLine p)
  cases hdrop : (PaneRun.pane p p.last).drop p.begins with
  | nil =>
      rw [hdrop] at hprints
      exact absurd hprints (by simp [render, marker, lineEndText])
  | cons line ls =>
      have hline : nl ∉ line := by
        have hmem : line ∈ (PaneRun.pane p p.last).drop p.begins := hdrop ▸ List.mem_cons_self
        exact nl_notMem_paneLines (p.stream.take p.last) line (List.mem_of_mem_drop hmem)
      refine ⟨line, ls, rfl, ?_⟩
      rw [hdrop, unlines_cons] at hprints
      cases beginEnd with
      | lf =>
          have hlines : line ++ nl :: unlines nl ls = (PaneRun.marker p).beginMark ++
              nl :: (renderParts (PaneRun.marker p) lineEnd (parts (emission ev)) ++ rest) := by
            rw [hprints, render, List.append_assoc, List.append_assoc]
            rfl
          exact .inl (prefix_sep hline hmark ⟨[], (List.append_nil _).trans hlines⟩).1
      | crlf =>
          have hcr : nl ∉ (PaneRun.marker p).beginMark ++ [cr] := by
            rw [List.mem_append, not_or]
            exact ⟨hmark, by decide⟩
          have hlines : line ++ nl :: unlines nl ls = ((PaneRun.marker p).beginMark ++ [cr]) ++
              nl :: (renderParts (PaneRun.marker p) lineEnd (parts (emission ev)) ++ rest) := by
            rw [hprints, render, List.append_assoc, List.append_assoc, List.append_assoc]
            rfl
          exact .inr (prefix_sep hline hcr ⟨[], (List.append_nil _).trans hlines⟩).1

/-- What the window at this moment shows above BEGIN. -/
def above (p : PaneRun) (t : Nat) : Text :=
  unlines nl (((PaneRun.pane p p.last).take p.begins).drop (firstLine p.lines (p.stream.take t)))

theorem above_unbegun (hspared : PaneSpared p ev) (t : Nat) : Unbegun (PaneRun.marker p) (above p t) :=
  unbegun_unlines (marker_oneLine p) fun l hl => hspared.fresh l (List.mem_of_mem_drop hl)

section

variable {first : Nat} {later : List Nat} (h : Gathered p first later)
  (hgrow : (first :: later ++ [p.last]).Pairwise (· ≤ ·))
include h hgrow

theorem Gathered.pane_isPrefix {t : Nat} (ht : t ∈ first :: later ++ [p.last]) :
    p.begins < (PaneRun.pane p t).length ∧ PaneRun.pane p t <+: PaneRun.pane p p.last := by
  have hle : first ≤ t := by
    rcases List.mem_cons.mp ht with rfl | ht
    · exact Nat.le_refl _
    · exact List.rel_of_pairwise_cons hgrow ht
  constructor
  · have hfirst := h.begun.2.trans_le (closedLines_paneLines (p.stream.take first)).length_le
    exact hfirst.trans_le (paneLines_length (List.take_prefix_take_left hle))
  · rcases List.mem_append.mp ht with ht | ht
    · exact stands_last h.joins t ht
    · rw [List.mem_singleton.mp ht]

/-- A stretch of lines from the first window on is what stands above BEGIN there,
and what the pane holds from BEGIN on. -/
theorem Gathered.covered {t : Nat} (ht : t ∈ first :: later ++ [p.last]) :
    unlines nl (Scrollback.covered p.lines p.stream first t) =
      above p first ++ unlines nl ((PaneRun.pane p t).drop p.begins) := by
  obtain ⟨hlen, rest, hrest⟩ := Gathered.pane_isPrefix h hgrow ht
  have htake : (PaneRun.pane p p.last).take p.begins = (PaneRun.pane p t).take p.begins := by
    rw [← hrest, List.take_append_of_le_length hlen.le]
  rw [above, htake]
  exact unlines_drop_split _ h.begun.1

theorem Gathered.readAll {t : Nat} {ms : List Nat} (hms : ms <+: first :: later ++ [p.last])
    (hhead : ms.head? = some first) (hlast : ms.getLast? = some t) :
    (readAll (PaneRun.marker p) {} (captures p.lines p.stream ms)).accumulator =
      above p first ++ unlines nl ((PaneRun.pane p t).drop p.begins) := by
  have hshown := (shownOnce_iff (m := PaneRun.marker p) hgrow h.shares).mpr h.joins ms hms first hhead t hlast
  rw [hshown]
  exact Gathered.covered h hgrow (hms.subset (List.mem_of_getLast? hlast))

theorem Gathered.begin_shown (hends : PaneEnds p ev r) :
    ∃ line ls, IsBegin (PaneRun.marker p) line ∧ (PaneRun.pane p first).drop p.begins = line :: ls ∧
      PaneRun.shows p first = above p first ++ (line ++ nl :: unlines nl ls) := by
  obtain ⟨line, _, hdrop, hline⟩ := begin_line hends
  obtain ⟨hlen, rest, hrest⟩ := Gathered.pane_isPrefix h hgrow (t := first) (by simp)
  rw [← hrest, List.drop_append_of_le_length hlen.le] at hdrop
  cases hcase : (PaneRun.pane p first).drop p.begins with
  | nil => exact absurd (List.drop_eq_nil_iff.mp hcase) (Nat.not_le_of_lt hlen)
  | cons l ls =>
      rw [hcase] at hdrop
      obtain rfl := (List.cons.inj hdrop).1
      refine ⟨l, ls, hline, rfl, ?_⟩
      rw [← unlines_cons, ← hcase]
      exact Gathered.covered h hgrow (by simp)

/-- A loop silent up to the capture that shows BEGIN trails the captures from there on. -/
theorem Gathered.trails (hends : PaneEnds p ev r) (hspared : PaneSpared p ev) {i : PollInput} {post : List PollInput}
    {s s' : PollState} (hs : Silent (PaneRun.marker p) s) (hi : i.captured = .ok (PaneRun.shows p first))
    (hpost : captured post = captures p.lines p.stream later) (hrun : poll (PaneRun.pass p) s (i :: post) = .again s') :
    Trails (above p first) s' (Scrollback.readAll (PaneRun.marker p) {} (captures p.lines p.stream (first :: later))) := by
  obtain ⟨line, ls, hline, hdrop, hshows⟩ := Gathered.begin_shown h hgrow hends
  obtain ⟨u, hstep, hrest⟩ := poll_cons_again hrun
  have hbegun : Trails (above p first) u (Scrollback.readAll (PaneRun.marker p) {} [PaneRun.shows p first]) := by
    rcases pollStep_again hstep with ⟨error, herror, _⟩ | ⟨cap, hok, rfl, _⟩
    · rw [hi] at herror
      cases herror
    · rw [hi] at hok
      obtain rfl := Except.ok.inj hok
      have hbelow := h.below first (by simp)
      rw [hdrop, unlines_cons] at hbelow
      rw [hshows]
      exact Silent.begin hline rfl (marker_oneLine p) hs (above_unbegun hspared first) hbelow
  obtain ⟨t, ht⟩ : ∃ t, (first :: later).getLast? = some t := ⟨_, List.getLast?_cons⟩
  have hall : [PaneRun.shows p first] ++ captured post = captures p.lines p.stream (first :: later) := by
    rw [hpost]
    rfl
  have hsize := congrArg List.length (Gathered.readAll h hgrow (List.prefix_append _ _) rfl ht)
  have hbelow := h.below t (List.mem_of_getLast? ht)
  rw [List.length_append] at hsize
  rw [← hall] at hsize ⊢
  refine @poll_trails (PaneRun.pass p) _ _ _ _ _ hbegun ?_ hrest
  exact hsize.trans_le (Nat.add_le_add_left hbelow _)

end

/-- The loop that gathers ends with the lines from BEGIN on in its accumulator. -/
theorem Gathered.splice {first : Nat} {early later : List Nat} {earlier : List PollInput} {s : PollState}
    (h : Gathered p first later) (hends : PaneEnds p ev r) (hspared : PaneSpared p ev)
    (hmoments : p.moments = early ++ first :: later)
    (hearly : ∀ t ∈ early, ¬ (PaneRun.marker p).beginMark <:+: PaneRun.shows p t)
    (hcaptured : captured earlier = captures p.lines p.stream p.moments)
    (hrun : poll (PaneRun.pass p) {} earlier = .again s) :
    Poll.splice s (PaneRun.shows p p.last) = unlines nl ((PaneRun.pane p p.last).drop p.begins) := by
  have hgrow : (first :: later ++ [p.last]).Pairwise (· ≤ ·) := by
    have hall := hends.grows
    rw [hmoments, List.append_assoc] at hall
    exact (List.pairwise_append.mp hall).2.1
  have hcaps : captured earlier = captures p.lines p.stream early ++ PaneRun.shows p first ::
      captures p.lines p.stream later := by
    rw [hcaptured, hmoments, captures, List.map_append, List.map_cons]
    rfl
  obtain ⟨pre, i, post, rfl, hpre, hi, hpost⟩ := captured_split hcaps
  obtain ⟨u, hquiet, hrest⟩ := poll_append_again hrun
  have hsilent : Silent (PaneRun.marker p) u := by
    refine @poll_silent (PaneRun.pass p) _ _ _ (marker_oneLine p) ⟨unbegun_nil _, unbegun_nil _, rfl⟩ ?_ hquiet
    rw [hpre]
    intro cap hmem
    obtain ⟨t, ht, rfl⟩ := List.mem_map.mp hmem
    exact ⟨terminated_unlines _, hearly t ht⟩
  have htrails := Gathered.trails h hgrow hends hspared hsilent hi hpost hrest
  have hlast := (@Trails.readCapture (PaneRun.marker p) _ _ _ htrails (PaneRun.shows p p.last)).accumulator
  have hall := Gathered.readAll h hgrow List.prefix_rfl rfl List.getLast?_concat
  rw [captures_concat, readAll_concat] at hall
  exact (List.append_cancel_left (hlast.symm.trans hall))

theorem window_extracts (hends : PaneEnds p ev r) (hspared : PaneSpared p ev)
    (hwindow : firstLine p.lines (p.stream.take p.last) ≤ p.begins) (s : PollState) (expired : Bool) :
    ∃ q, pollStep (PaneRun.pass p) s ⟨.ok (PaneRun.shows p p.last), expired⟩ = .done q ∧
      q.lastExtract = extracted (emission ev) := by
  obtain ⟨beginEnd, lineEnd, rest, hprints⟩ := hends.prints
  have hbefore := above_unbegun hspared p.last
  refine pollStep_shows (generatorForm_makeMarkerId _ _ _) hspared.free ?_ s expired
  refine ⟨above p p.last, beginEnd, lineEnd, rest, hbefore.1, hbefore.noBeginLine, ?_⟩
  rw [List.append_assoc]
  exact (unlines_drop_split _ hwindow).trans (congrArg (above p p.last ++ ·) hprints)

theorem scrolled_extracts (hends : PaneEnds p ev r) (hspared : PaneSpared p ev)
    (hwindow : p.begins < firstLine p.lines (p.stream.take p.last)) {s : PollState}
    (hsplice : splice s (PaneRun.shows p p.last) = unlines nl ((PaneRun.pane p p.last).drop p.begins)) (expired : Bool) :
    ∃ q, pollStep (PaneRun.pass p) s ⟨.ok (PaneRun.shows p p.last), expired⟩ = .done q ∧
      q.lastExtract = extracted (emission ev) := by
  obtain ⟨beginEnd, lineEnd, rest, hprints⟩ := hends.prints
  have hlive : extractBetweenMarkers (PaneRun.shows p p.last) (PaneRun.marker p) = {} := by
    apply extract_noBeginLine (terminated_unlines _)
    intro l hl
    have hlines : closedLines nl [] (PaneRun.shows p p.last) = (PaneRun.pane p p.last).drop (firstLine p.lines
        (p.stream.take p.last)) :=
      closedLines_unlines fun l hl => nl_notMem_paneLines (p.stream.take p.last) l (List.mem_of_mem_drop hl)
    exact hspared.once l ((List.drop_suffix_drop_left _ hwindow).subset (hlines ▸ hl))
  have hgathered : extractBetweenMarkers (unlines nl ((PaneRun.pane p p.last).drop p.begins)) (PaneRun.marker p) =
      extracted (emission ev) := by
    rw [hprints]
    exact @extract_block ⟨(PaneRun.marker p).id, emission ev, beginEnd, lineEnd⟩ (generatorForm_makeMarkerId _ _ _)
      hspared.free [] terminated_nil (unbegun_nil _).noBeginLine rest
  refine pollStep_done rfl rfl ?_
  rw [hsplice]
  change extractCapture (PaneRun.marker p) _ _ = _
  rw [extractCapture, hlive, if_neg Bool.false_ne_true, hgathered]

theorem pane_fullOutput (hends : PaneEnds p ev r) (hspared : PaneSpared p ev) :
    r.fullOutput = (extracted (emission ev)).text := by
  obtain ⟨earlier, expired, s, q, hpolls, hcaptured, hrun, hdone⟩ := hends.reads
  obtain ⟨q', hdone', hext⟩ : ∃ q', pollStep (PaneRun.pass p) s ⟨.ok (PaneRun.shows p p.last), expired⟩ = .done q' ∧
      q'.lastExtract = extracted (emission ev) := by
    by_cases hwindow : firstLine p.lines (p.stream.take p.last) ≤ p.begins
    · exact window_extracts hends hspared hwindow s expired
    · obtain ⟨early, first, later, hmoments, hearly, hgathered⟩ := hspared.window.resolve_left hwindow
      have hsplice := Gathered.splice hgathered hends hspared hmoments hearly hcaptured hrun
      exact scrolled_extracts hends hspared (Nat.lt_of_not_le hwindow) hsplice expired
  have hpoll : poll (PaneRun.pass p) {} p.answers.polls = .done q' := by
    rw [hpolls]
    exact poll_concat_done hrun hdone'
  have hresult := hends.result
  rw [runMarkerEval_done hends.sent hpoll] at hresult
  obtain rfl := Option.some.inj (PassResult.stop.inj hresult)
  rw [← hext]
  rfl

/-- The report starts with the printed text. -/
theorem stdout_isPrefix (ev : Evaluation) : markerSegmentText (output ev) <+: (extracted (emission ev)).text := by
  have hgrow : ∀ (segs : List Text) (out : Text), out <+: segs.foldl appendSegment out := by
    intro segs
    induction segs with
    | nil => exact fun out => List.prefix_rfl
    | cons seg segs ih => exact fun out => (appendSegment_isPrefix out seg).trans (ih _)
  obtain ⟨segs, hsegs⟩ : ∃ segs, (parts (emission ev)).map Prod.fst = output ev :: segs := by
    unfold emission
    cases ev.ending with
    | returned shown => cases shown <;> exact ⟨_, rfl⟩
    | threw message backtrace => exact ⟨_, rfl⟩
  have htext : (extracted (emission ev)).text = segs.foldl appendSegment (markerSegmentText (output ev)) := by
    rw [extracted, hsegs, List.foldl_cons, appendSegment_nil_left]
  rw [htext]
  exact hgrow segs _

theorem pane_kept {tool : ToolCall} {d : Dispatcher} (hon : Transcript.enabled d.transcript = true)
    (hends : PaneEnds p ev r) (hspared : PaneSpared p ev) : Kept ev r tool d := by
  have hfull := pane_fullOutput hends hspared
  apply kept_of_fullOutput hon
  · have hclean : (markerSegmentText (output ev)).filter (· ≠ cr) = markerSegmentText (output ev) := by
      refine List.filter_eq_self.mpr fun c hc => ?_
      exact (List.mem_filter.mp ((markerSegmentText_isPrefix _).subset hc)).2
    rw [← hclean, hfull]
    exact ((stdout_isPrefix ev).filter _).isInfix
  · rw [hfull, extracted_eq]
    exact hspared.room

end Pane

/-- Over every run: a call whose output meets none of the smaller limits keeps it
in its transcript entry. -/
theorem transcript_keeps {ev : Evaluation} {r : ToolResult} (course : Course) (hends : Ends ev r course)
    (hspared : Spared ev course) (tool : ToolCall) {d : Dispatcher} (hon : Transcript.enabled d.transcript = true) :
    Kept ev r tool d := by
  cases course with
  | socket captureLines elapsedMs =>
      obtain rfl := hends
      exact socket_kept hon hspared.1 hspared.2
  | pane p => exact pane_kept hon hends hspared

/-- Six lines in a window of three: BEGIN has scrolled out at the last capture. -/
def scrolledStream : Text :=
  render ⟨makeMarkerId 7 41 1, emission (printing (lit "a\nb\n") none), .lf, fun _ => .lf⟩

def scrolledRun : PaneRun where
  pid := 41
  answers :=
    { micros := 7, polls := [25, 52, 98].map fun t => ⟨.ok (capturePane 3 (scrolledStream.take t)), false⟩ }
  binding := ⟨lit "%1", lit "%1", [], []⟩
  call := { code := lit "println(\"a\"); println(\"b\")" }
  detectMissingRuntime := true
  session := freshSession
  lines := 3
  stream := scrolledStream
  moments := [25, 52]
  last := 98
  begins := 0

deriving instance DecidableEq for Polled

def stateOf (polled : Polled) : PollState := polled.state?.getD {}

/-- The loop's state when BEGIN is about to scroll out. -/
def scrolledState : PollState :=
  stateOf (poll (PaneRun.pass scrolledRun) {} (scrolledRun.answers.polls.take 2))

def transcriptOn : Dispatcher := { session := freshSession, transcript := { path := lit "calls.log" } }

def evalTool : ToolCall where
  name := lit "jjmcp_eval"
  arguments := [(lit "code", .str (lit "println(\"a\"); println(\"b\")"))]
  answers := { eval := { paneInfo := .ok { paneId := lit "%1" } }, paneInfo := .ok { paneId := lit "%1" } }

theorem transcript_keeps_scrolled :
    ∃ r, PaneEnds scrolledRun (printing (lit "a\nb\n") none) r ∧
      Kept (printing (lit "a\nb\n") none) r evalTool transcriptOn := by
  have hagain : poll (PaneRun.pass scrolledRun) {} (scrolledRun.answers.polls.take 2) = .again scrolledState := by
    decide +kernel
  have hdone : pollStep (PaneRun.pass scrolledRun) scrolledState ⟨.ok (PaneRun.shows scrolledRun 98), false⟩ =
      .done (stateOf (pollStep (PaneRun.pass scrolledRun) scrolledState
        ⟨.ok (PaneRun.shows scrolledRun 98), false⟩)) := by
    decide +kernel
  have hpolls : scrolledRun.answers.polls =
      scrolledRun.answers.polls.take 2 ++ [⟨.ok (PaneRun.shows scrolledRun 98), false⟩] := rfl
  have hpoll : poll (PaneRun.pass scrolledRun) {} scrolledRun.answers.polls =
      .done (stateOf (pollStep (PaneRun.pass scrolledRun) scrolledState
        ⟨.ok (PaneRun.shows scrolledRun 98), false⟩)) := by
    rw [hpolls]
    exact poll_concat_done hagain hdone
  have hcaptured : captured (scrolledRun.answers.polls.take 2) = captures 3 scrolledStream [25, 52] := by
    decide +kernel
  have hends : PaneEnds scrolledRun (printing (lit "a\nb\n") none) _ :=
    { sent := ⟨rfl, rfl⟩
      grows := by decide
      reads := ⟨_, false, _, _, hpolls, hcaptured, hagain, hdone⟩
      prints := ⟨.lf, fun _ => .lf, [], by decide +kernel⟩
      result := runMarkerEval_done ⟨rfl, rfl⟩ hpoll }
  have hgathered : Gathered scrolledRun 25 [52] :=
    { begun := by decide +kernel
      shares := List.isChain_cons_cons.mpr ⟨⟨1, by decide +kernel⟩, List.isChain_pair.mpr ⟨3, by decide +kernel⟩⟩
      joins := List.isChain_cons_cons.mpr ⟨by decide +kernel, List.isChain_pair.mpr (by decide +kernel)⟩
      below := by decide +kernel }
  have hid : ∀ text ∈ (parts (emission (printing (lit "a\nb\n") none))).map Prod.fst,
      ¬ (PaneRun.marker scrolledRun).id <:+: text := by
    decide +kernel
  have hspared : PaneSpared scrolledRun (printing (lit "a\nb\n") none) :=
    { room := by decide +kernel
      free := fun text htext => markFree_of_id (hid text htext)
      fresh := by simp [scrolledRun]
      once := by decide +kernel
      window := .inr ⟨[], 25, [52], rfl, by simp, hgathered⟩ }
  exact ⟨_, hends, transcript_keeps (.pane scrolledRun) hends hspared evalTool rfl⟩

/-- The helper is asked for less than the transcript has room for. -/
theorem not_transcript_keeps :
    ¬ ∀ (ev : Evaluation) (course : Course) (r : ToolResult) (tool : ToolCall) (d : Dispatcher), Ends ev r course →
      (output ev).length ≤ kMaxTranscriptOutputBytes → Transcript.enabled d.transcript = true → Kept ev r tool d := by
  intro h
  have hkept := h (printing (List.replicate 245761 120) none) (.socket 2000 3) _ evalTool transcriptOn rfl
    (by rw [output_printing, List.length_replicate]; decide) rfl
  exact socket_lost rfl (by decide) (by decide) hkept

end JJMCP.TranscriptKeeps
