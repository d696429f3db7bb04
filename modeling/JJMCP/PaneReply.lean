import JJMCP.CompactionRounds
import JJMCP.Scrollback
import JJMCP.TransportAgreement
import JJMCP.WorkingSet

namespace JJMCP

/-- What a pane is written: the block of one evaluation, what stood above it and
what comes after it. -/
structure Story where
  before : Text
  block : Block
  after : Text

end JJMCP

namespace JJMCP.PaneReply

open Lib.Occurrence Lib.Lines Text Marker Extract Emission Tokens Poll Compaction CompactionRounds Scrollback WorkingSet
open EvalCode TransportAgreement

variable {m : Marker}

def stream (p : Story) : Text := p.before ++ render p.block ++ p.after

/-- How much is written when END's marker is. -/
def endWritten (p : Story) : Nat :=
  p.before.length + (render p.block).length - (lineEndText (p.block.lineEnd .End)).length

/-- No text imitates a marker of the block. -/
structure Genuine (p : Story) : Prop where
  generated : GeneratorForm p.block.id
  terminated : Terminated nl p.before
  noBegin : NoBeginLine (marker p.block) p.before
  noEnd : ¬ (marker p.block).mark .End <:+: p.before
  free : ∀ s ∈ segments p.block, MarkFree (marker p.block) s
  unsplit : Unsplit (marker p.block) (stream p)

/-- Closed lines without END, of which no carriage return hides one. -/
structure Running (m : Marker) (t : Text) : Prop where
  terminated : Terminated nl t
  unsplit : Unsplit m t
  noEnd : ¬ m.mark .End <:+: t

theorem running_nil (m : Marker) : Running m [] :=
  ⟨terminated_nil, (tidy_nil m).unsplit, noMark_nil m .End⟩

theorem Running.isSuffix {t u : Text} (h : Running m t) (hs : u <:+ t) : Running m u :=
  ⟨h.terminated.isSuffix hs, h.unsplit.isInfix hs.isInfix, fun hi => h.noEnd (hi.trans hs.isInfix)⟩

theorem Running.append (hm : m.OneLine) {a b : Text} (ha : Running m a) (hb : Running m b) : Running m (a ++ b) := by
  refine ⟨ha.terminated.append hb.terminated, ha.unsplit.append hm ha.terminated hb.unsplit, ?_⟩
  rw [infix_append_terminated _ ha.terminated (nl_notMem_mark hm .End) (mark_ne_nil m .End), not_or]
  exact ⟨ha.noEnd, hb.noEnd⟩

theorem running_unlines (hm : m.OneLine) {ls : List Text} (h : ∀ l ∈ ls, Unsplit m l ∧ ¬ m.mark .End <:+: l) :
    Running m (unlines nl ls) := by
  refine ⟨terminated_unlines ls, fun s k hs hf => ?_, fun hi => ?_⟩
  · have hne : s ≠ [] := by
      rintro rfl
      exact mark_ne_nil m k (by simpa using hf.symm)
    obtain ⟨l, hl, hin⟩ := (infix_unlines ls (nl_notMem_of_filter hm hf) hne).mp hs
    exact (h l hl).1 s k hin hf
  · obtain ⟨l, hl, hin⟩ := (infix_unlines ls (nl_notMem_mark hm .End) (mark_ne_nil m .End)).mp hi
    exact (h l hl).2 hin

theorem mem_paneLines_isInfix {w l : Text} (h : l ∈ paneLines w) : l <:+: w := by
  rcases List.mem_append.mp h with h | h
  · simpa using mem_closedLines_isInfix h
  · split at h
    · exact absurd h List.not_mem_nil
    · obtain rfl := List.mem_singleton.mp h
      have hall := @unlines_closedLines _ nl _ [] w
      exact ⟨_, [], by simpa using hall⟩

theorem running_capturePane (hm : m.OneLine) {w : Text} (hu : Unsplit m w) (hw : ¬ m.mark .End <:+: w) (lines : Nat) :
    Running m (capturePane lines w) := by
  refine running_unlines hm fun l hl => ?_
  have hin := mem_paneLines_isInfix (List.mem_of_mem_drop hl)
  exact ⟨hu.isInfix hin, fun hi => hw (hi.trans hin)⟩

/-- The extraction finds END only where it is. -/
theorem extractFrom_noEnd (phase : Phase) (r : ExtractedOutput) {t : Text} (h : ¬ m.mark .End <:+: t) :
    (extractFrom m phase r t).foundEnd = r.foundEnd := by
  induction t using scan_induction (m := m) generalizing phase r with
  | noMark rest hno => rw [extractFrom_noMark phase r hno, record_foundEnd]
  | last rest p hfirst => exact absurd hfirst.1.isInfix h
  | next rest p k hfirst hE ih =>
      rw [extractFrom_mark phase r hfirst hE, ih _ _ fun hi => h (hi.trans (afterMark_suffix m rest p k).isInfix)]
      split <;> simp

theorem extract_running {t : Text} (hm : m.OneLine) (h : Running m t) :
    (extractBetweenMarkers t m).foundEnd = false ∧ QuietSlices m (extractBetweenMarkers t m) := by
  have hquiet : QuietSlices m {} := ⟨quiet_nil m, quiet_nil m, quiet_nil m, quiet_nil m⟩
  rw [extract_eq]
  cases hp : findMarkerLinePayloadStart t m.beginMark with
  | none => exact ⟨rfl, hquiet⟩
  | some rest =>
      have hs := (findPayload_isSuffix hp).isInfix
      refine ⟨extractFrom_noEnd _ _ fun hi => h.noEnd (hi.trans hs), ?_⟩
      exact extractFrom_quiet hm _ _ _ (h.unsplit.isInfix hs) ⟨hquiet.1, hquiet.2, hquiet.3, hquiet.4⟩

/-- A loop none of whose captures showed END. -/
structure Waits (m : Marker) (s : PollState) : Prop where
  accumulator : Running m s.accumulator
  lastCapture : Terminated nl s.lastCapture

theorem waits_init (m : Marker) : Waits m {} := ⟨running_nil m, terminated_nil⟩

theorem splice_running (hm : m.OneLine) {s : PollState} (h : Waits m s) {cap : Text} (hcap : Running m cap) :
    Running m (splice s cap) := by
  obtain ⟨old, new, hcut, -, hsplice⟩ := splice_eq s cap
  rw [hsplice]
  exact h.accumulator.append hm (hcap.isSuffix ⟨old, hcut.symm⟩)

theorem trimAtBegin_waits {s : PollState} (h : Waits m s) : Waits m (trimAtBegin m s) := by
  unfold trimAtBegin
  split
  · split
    · exact ⟨h.accumulator, h.lastCapture⟩
    · exact ⟨h.accumulator.isSuffix (List.drop_suffix _ _), h.lastCapture⟩
  · exact h

theorem running_compacted (hm : m.OneLine) (hcr : cr ∉ m.id) {out : Text} {error : Prop} (h : Compacted m out error) :
    Running m out := by
  obtain ⟨rest, rfl, htidy, hend, -⟩ := h
  have hline : Running m (m.beginMark ++ [nl]) := by
    refine ⟨terminated_concat _, unsplit_of_noCr ?_, noMark_beginLine m hm .End⟩
    have hstem : cr ∉ lit "__JJMCP_BEGIN_" := by decide
    have hu : cr ∉ lit "__" := by decide
    have hnl : cr ∉ [nl] := by decide
    simp only [beginMark, List.mem_append, not_or]
    exact ⟨⟨⟨hstem, hcr⟩, hu⟩, hnl⟩
  rw [show m.beginMark ++ nl :: rest = (m.beginMark ++ [nl]) ++ rest by simp]
  exact hline.append hm ⟨htidy.terminated, htidy.unsplit, hend⟩

/-- The compaction and the dropped half do not make up END. -/
theorem boundAccumulator_waits (hm : m.OneLine) (hcr : cr ∉ m.id) {s : PollState} (h : Waits m s)
    (hext : s.lastExtract.foundEnd = false ∧ QuietSlices m s.lastExtract) :
    Waits m (boundAccumulator m s) ∧ (boundAccumulator m s).lastExtract.foundEnd = false := by
  unfold boundAccumulator
  split
  · split
    · have hsaw : (find (m.mark .End) s.accumulator).isSome = false :=
        Bool.eq_false_iff.mpr fun hs => h.accumulator.noEnd (find_isSome.mp hs)
      have hout : Running m (compact m s).accumulator := by
        simp only [compact, hsaw]
        exact running_compacted hm hcr (compactMarkerAccumulator_compacted hm hext.2 _ _ _ _)
      exact ⟨⟨hout, h.lastCapture⟩, (extract_running hm hout).1⟩
    · obtain ⟨n, -, hdrop⟩ := dropHead_drop s
      rw [hdrop]
      exact ⟨⟨h.accumulator.isSuffix (List.drop_suffix n _), h.lastCapture⟩, hext.1⟩
  · exact ⟨h, hext.1⟩

theorem Waits.turn {pass : Pass} (hm : pass.marker.OneLine) (hcr : cr ∉ pass.marker.id) {s : PollState}
    (h : Waits pass.marker s) {cap : Text} (hcap : Running pass.marker cap) :
    Waits pass.marker (finishTurn pass (readCapture pass.marker cap s)) ∧
      (finishTurn pass (readCapture pass.marker cap s)).lastExtract.foundEnd = false := by
  have hread : Waits pass.marker (readCapture pass.marker cap s) := ⟨splice_running hm h hcap, hcap.terminated⟩
  have hext : (extractCapture pass.marker cap (splice s cap)).foundEnd = false ∧
      QuietSlices pass.marker (extractCapture pass.marker cap (splice s cap)) := by
    simp only [extractCapture]
    split
    · exact extract_running hm hcap
    · exact extract_running hm hread.accumulator
  have htrim := trimAtBegin_waits hread
  obtain ⟨hacc, hlast, -⟩ := emitProgress_accumulator pass (trimAtBegin pass.marker (readCapture pass.marker cap s))
  have hemit : Waits pass.marker (emitProgress pass (trimAtBegin pass.marker (readCapture pass.marker cap s))) :=
    ⟨hacc ▸ htrim.accumulator, hlast ▸ htrim.lastCapture⟩
  refine boundAccumulator_waits hm hcr hemit ?_
  rw [emitProgress_lastExtract, trimAtBegin_lastExtract]
  exact hext

/-- No turn is past the deadline, and no more captures in a row fail than the loop takes. -/
def patient (failures : Nat) : List PollInput → Bool
  | [] => true
  | i :: is => !i.expired && match i.captured with
      | .error _ => failures + 1 ≤ kMaxCaptureFailures && patient (failures + 1) is
      | .ok _ => patient 0 is

theorem generatorForm_noCr {id : Text} (h : GeneratorForm id) : cr ∉ id := by
  obtain ⟨a, b, c, ha, hb, hc, rfl⟩ := h
  have hn : ¬ ((48 : UInt8) ≤ cr ∧ cr ≤ 57) := by decide
  have hu : cr ∉ lit "_" := by decide
  simp only [List.mem_append, not_or]
  exact ⟨⟨⟨⟨digits_notMem ha hn, hu⟩, digits_notMem hb hn⟩, hu⟩, digits_notMem hc hn⟩

theorem finishTurn_captureFailures (pass : Pass) (s : PollState) :
    (finishTurn pass s).captureFailures = s.captureFailures := by
  have htrim : (trimAtBegin pass.marker s).captureFailures = s.captureFailures := by
    unfold trimAtBegin
    split <;> rfl
  have hemit : (emitProgress pass (trimAtBegin pass.marker s)).captureFailures = s.captureFailures := by
    rw [← htrim]
    unfold emitProgress
    split <;> rfl
  rw [← hemit, finishTurn]
  generalize emitProgress pass (trimAtBegin pass.marker s) = u
  unfold boundAccumulator
  split
  · split
    · rfl
    · obtain ⟨n, -, hdrop⟩ := dropHead_drop u
      rw [hdrop]
  · rfl

/-- A capture without END leaves the loop waiting, unless it looks as if the REPL
had rejected the code. -/
theorem Waits.pollStep {pass : Pass} (hm : pass.marker.OneLine) (hcr : cr ∉ pass.marker.id) {s : PollState}
    (h : Waits pass.marker s) {i : PollInput} (hi : i.expired = false) {cap : Text} (hcap : i.captured = .ok cap)
    (hrun : Running pass.marker cap)
    (hstarted : jjmcpRuntimeMissing cap pass.marker.id = true → (extractBetweenMarkers cap pass.marker).foundBegin = true) :
    ∃ t, pollStep pass s i = .again t ∧ Waits pass.marker t ∧ t.captureFailures = 0 := by
  obtain ⟨hw, hend⟩ := h.turn hm hcr hrun
  have hgoes : ¬ (pass.detectMissingRuntime = true ∧ (readCapture pass.marker cap s).lastExtract.foundBegin = false ∧
      jjmcpRuntimeMissing cap pass.marker.id = true) := by
    rintro ⟨-, hnone, hlooks⟩
    have hlive := hstarted hlooks
    have hread : (readCapture pass.marker cap s).lastExtract = extractBetweenMarkers cap pass.marker := by
      rw [readCapture, extractCapture, if_pos hlive]
    rw [hread, hlive] at hnone
    cases hnone
  refine ⟨finishTurn pass (readCapture pass.marker cap s), ?_, hw, finishTurn_captureFailures pass _⟩
  simp only [Poll.pollStep, hcap]
  rw [if_neg hgoes, hend, hi, if_neg Bool.false_ne_true, if_neg Bool.false_ne_true]

/-- While no capture shows END the loop goes on. -/
theorem poll_waits {pass : Pass} (hm : pass.marker.OneLine) (hcr : cr ∉ pass.marker.id) {is : List PollInput}
    {s : PollState} (h : Waits pass.marker s) (hpatient : patient s.captureFailures is = true)
    (hcaps : ∀ cap ∈ captured is, Running pass.marker cap ∧ (jjmcpRuntimeMissing cap pass.marker.id = true →
      (extractBetweenMarkers cap pass.marker).foundBegin = true)) :
    ∃ t, poll pass s is = .again t ∧ Waits pass.marker t := by
  induction is generalizing s with
  | nil => exact ⟨s, rfl, h⟩
  | cons i is ih =>
      have hmore : captured (i :: is) = captured [i] ++ captured is := captured_append [i] is
      rw [hmore] at hcaps
      rw [patient, Bool.and_eq_true, Bool.not_eq_true'] at hpatient
      obtain ⟨hopen, hrest⟩ := hpatient
      cases hcap : i.captured with
      | error e =>
          rw [hcap, Bool.and_eq_true, decide_eq_true_eq] at hrest
          have hlost : Waits pass.marker { s with captureFailures := s.captureFailures + 1 } := ⟨h.accumulator, h.lastCapture⟩
          obtain ⟨t, ht, hw⟩ := ih hlost hrest.2 fun cap hc => hcaps cap (List.mem_append_right _ hc)
          refine ⟨t, ?_, hw⟩
          simp only [poll, Poll.pollStep, hcap, hopen]
          rw [if_neg (Nat.not_lt.mpr hrest.1), if_neg Bool.false_ne_true]
          exact ht
      | ok cap =>
          rw [hcap] at hrest
          obtain ⟨hrun, hstarted⟩ := hcaps cap (by simp [captured, hcap, Except.toOption])
          obtain ⟨u, hstep, hu, hzero⟩ := h.pollStep hm hcr hopen hcap hrun hstarted
          obtain ⟨t, ht, hw⟩ := ih hu (hzero ▸ hrest) fun cap hc => hcaps cap (List.mem_append_right _ hc)
          exact ⟨t, by simpa only [poll, hstep] using ht, hw⟩

theorem parts_last (e : Emission) : ∃ init last, parts e = init ++ [(last, .End)] ∧ .End ∉ init.map Prod.snd := by
  cases e with
  | value s v => exact ⟨[(s, .OutEnd), (v, .ValEnd)], [], rfl, by simp⟩
  | error s e b => exact ⟨[(s, .Error), (e, .Backtrace)], b, rfl, by simp⟩
  | partialValue s v e b => exact ⟨[(s, .OutEnd), (v, .Error), (e, .Backtrace)], b, rfl, by simp⟩

/-- No marker ends before a segment does, nor inside the marker that closes it. -/
theorem noMark_cut (hJ : 74 ∉ m.id) {seg : Text} (hseg : MarkFree m seg) (k : Kind) :
    NoMark m (seg ++ (m.mark k).dropLast) := by
  intro j hj
  obtain ⟨q, hq⟩ := infix_iff_at.mp hj
  have hlast : (m.mark k).dropLast ++ [(m.mark k).getLast (mark_ne_nil m k)] = m.mark k :=
    List.dropLast_append_getLast (mark_ne_nil m k)
  have hbound := hq.bound (mark_ne_nil m j)
  have hwhole : At (m.mark j) (seg ++ (m.mark k ++ [])) q := by
    rw [List.append_nil, ← hlast, ← List.append_assoc]
    exact (at_append_left _ hbound).mpr hq
  have hle := segment_le_at hJ hseg hwhole
  rw [← Nat.add_sub_cancel' hle, at_append_right, List.append_nil] at hwhole
  have hzero := at_mark_mark hwhole
  rw [hzero] at hwhole
  obtain rfl := mark_kind_unique (show At (m.mark k) (m.mark k) 0 from List.prefix_rfl) hwhole
  have hpos := List.length_pos_iff.mpr (mark_ne_nil m k)
  rw [List.length_append, List.length_dropLast] at hbound
  omega

/-- Text up to END's marker: BEGIN's line, the parts above the last, and the last segment. -/
def upToEnd (p : Story) (init : List (Text × Kind)) (last : Text) : Text :=
  p.before ++ (((marker p.block).beginMark ++ lineEndText p.block.beginEnd) ++
    (renderParts (marker p.block) p.block.lineEnd init ++ (last ++ (marker p.block).mark .End)))

theorem stream_cut {p : Story} {init : List (Text × Kind)} {last : Text}
    (hparts : parts p.block.emission = init ++ [(last, .End)]) :
    stream p = upToEnd p init last ++ (lineEndText (p.block.lineEnd .End) ++ p.after) ∧
      endWritten p = (upToEnd p init last).length := by
  have hrender : p.before ++ render p.block = upToEnd p init last ++ lineEndText (p.block.lineEnd .End) := by
    rw [render, hparts]
    simp [renderParts, upToEnd]
  have hlen := congrArg List.length hrender
  rw [List.length_append, List.length_append] at hlen
  refine ⟨by rw [stream, hrender, List.append_assoc], ?_⟩
  rw [endWritten, hlen, Nat.add_sub_cancel]

theorem no_end_early {p : Story} (hp : Genuine p) {t : Nat} (ht : t < endWritten p) :
    ¬ (marker p.block).mark .End <:+: (stream p).take t := by
  obtain ⟨init, last, hparts, hkinds⟩ := parts_last p.block.emission
  obtain ⟨hstream, hlen⟩ := stream_cut hparts
  have hm : (marker p.block).OneLine := generatorForm_oneLine hp.generated
  have hJ : 74 ∉ (marker p.block).id := generatorForm_noJ hp.generated
  have hfree : ∀ x ∈ init ++ [(last, Kind.End)], MarkFree (marker p.block) x.1 := by
    rw [← hparts]
    exact fun x hx => hp.free x.1 (List.mem_map_of_mem hx)
  have hlast : NoMark (marker p.block) (last ++ ((marker p.block).mark .End).dropLast) :=
    noMark_cut hJ (hfree (last, .End) (by simp)) .End
  have hinit : ∀ x ∈ init, MarkFree (marker p.block) x.1 := fun x hx => hfree x (List.mem_append_left _ hx)
  have hno : ∀ x ∈ init, NoMark (marker p.block) x.1 :=
    fun x hx k hk => hinit x hx k ((List.prefix_append _ _).isInfix.trans hk)
  have hclean : Clean (marker p.block) (renderParts (marker p.block) p.block.lineEnd init ++
      (last ++ ((marker p.block).mark .End).dropLast)) := clean_markFree hm hJ hinit hlast
  have hparts' := unended_rendered hkinds hno hlast hclean
  have hcut : (upToEnd p init last).dropLast = p.before ++ (((marker p.block).beginMark ++ lineEndText p.block.beginEnd) ++
      (renderParts (marker p.block) p.block.lineEnd init ++ (last ++ ((marker p.block).mark .End).dropLast))) := by
    have hend := mark_ne_nil (marker p.block) .End
    rw [upToEnd, List.dropLast_append_of_ne_nil (by simp), List.dropLast_append_of_ne_nil (by simp),
      List.dropLast_append_of_ne_nil (by simp), List.dropLast_append_of_ne_nil hend]
  have hpre : (stream p).take t <+: (upToEnd p init last).dropLast := by
    rw [hstream, List.take_append_of_le_length (by omega), List.dropLast_eq_take]
    exact List.take_prefix_take_left (by omega)
  intro hi
  have hend := hi.trans hpre.isInfix
  rw [hcut, infix_append_terminated _ hp.terminated (nl_notMem_mark hm .End) (mark_ne_nil _ .End),
    infix_append_terminated _ (terminated_beginLine p.block) (nl_notMem_mark hm .End) (mark_ne_nil _ .End)] at hend
  rcases hend with h | h | h
  · exact hp.noEnd h
  · exact Routing.noMark_beginEnd _ _ .End h
  · exact hparts' h

theorem unlines_paneLines (w : Text) :
    unlines nl (paneLines w) = w ++ if openLine nl [] w = [] then [] else [nl] := by
  have hall := @unlines_closedLines _ nl _ [] w
  rw [List.nil_append] at hall
  rw [paneLines, unlines_append]
  split
  next h => simpa [h] using hall
  next h =>
    conv_rhs => rw [← hall]
    simp

/-- A capture closes the line that END's marker stands on, however much of the line end is written. -/
theorem closed_after (w : Text) (e : LineEnd) (after : Text) (k : Nat) (hw : w.getLast? = some 95) :
    ∃ e' x, unlines nl (paneLines (w ++ (lineEndText e ++ after).take k)) = w ++ (lineEndText e' ++ x) := by
  have hopen : ∀ c, c ≠ nl → openLine nl [] (w ++ [c]) ≠ [] := by
    intro c hc
    rw [(lines_append [] w [c]).2]
    simp [openLine, hc]
  have hbare : openLine nl [] w ≠ [] := by
    rw [← List.dropLast_append_getLast? _ hw, (lines_append [] w.dropLast [95]).2]
    simp [openLine, nl]
  cases e with
  | lf =>
      cases k with
      | zero => exact ⟨.lf, [], by simp [unlines_paneLines, hbare, lineEndText]⟩
      | succ k =>
          refine ⟨.lf, after.take k ++ (if openLine nl [] (w ++ nl :: after.take k) = [] then [] else [nl]), ?_⟩
          rw [unlines_paneLines, show lineEndText .lf ++ after = nl :: after from rfl, List.take_succ_cons]
          simp only [lineEndText, List.append_assoc, List.cons_append, List.nil_append]
  | crlf =>
      rcases k with _ | _ | k
      · exact ⟨.lf, [], by simp [unlines_paneLines, hbare, lineEndText]⟩
      · exact ⟨.crlf, [], by simp [unlines_paneLines, hopen cr (by decide), lineEndText]⟩
      · refine ⟨.crlf, after.take k ++ (if openLine nl [] (w ++ cr :: nl :: after.take k) = [] then [] else [nl]), ?_⟩
        rw [unlines_paneLines, show lineEndText .crlf ++ after = cr :: nl :: after from rfl, List.take_succ_cons,
          List.take_succ_cons]
        simp only [lineEndText, List.append_assoc, List.cons_append, List.nil_append]

def closedBy (b : Block) (e : LineEnd) : Block := { b with lineEnd := Function.update b.lineEnd .End e }

theorem render_closedBy {p : Story} {init : List (Text × Kind)} {last : Text}
    (hparts : parts p.block.emission = init ++ [(last, .End)]) (hkinds : .End ∉ init.map Prod.snd) (e : LineEnd) :
    upToEnd p init last ++ lineEndText e = p.before ++ render (closedBy p.block e) := by
  have hinit : renderParts (marker p.block) (Function.update p.block.lineEnd .End e) init =
      renderParts (marker p.block) p.block.lineEnd init := by
    refine List.flatMap_congr fun x hx => ?_
    have hne : x.2 ≠ .End := fun he => hkinds (he ▸ List.mem_map_of_mem hx)
    rw [Function.update_of_ne hne]
  rw [render, show marker (closedBy p.block e) = marker p.block from rfl,
    show (closedBy p.block e).emission = p.block.emission from rfl, hparts,
    show (closedBy p.block e).lineEnd = Function.update p.block.lineEnd .End e from rfl]
  rw [renderParts, List.flatMap_append, ← renderParts, hinit]
  simp [closedBy, upToEnd]

/-- Where BEGIN's line is on the capture that shows END's marker, all of the block is. -/
theorem shows_emission {p : Story} (hp : Genuine p) {lines last : Nat} (hlast : endWritten p ≤ last)
    (hfits : firstLine lines ((stream p).take last) ≤ (closedLines nl [] p.before).length) :
    ShowsEmission (marker p.block) p.block.emission (capturePane lines ((stream p).take last)) := by
  obtain ⟨init, seg, hparts, hkinds⟩ := parts_last p.block.emission
  obtain ⟨hstream, hlen⟩ := stream_cut hparts
  obtain ⟨s, hs⟩ := mark_solid (marker p.block) .End
  have htake : (stream p).take last =
      upToEnd p init seg ++ (lineEndText (p.block.lineEnd .End) ++ p.after).take (last - endWritten p) := by
    rw [hstream, List.take_append, List.take_of_length_le (hlen ▸ hlast), hlen]
  have hends : (upToEnd p init seg).getLast? = some 95 := by
    simp only [upToEnd, hs, ← List.append_assoc, List.getLast?_concat]
  obtain ⟨e, x, hclosed⟩ := closed_after _ (p.block.lineEnd .End) p.after (last - endWritten p) hends
  rw [← htake, ← List.append_assoc, render_closedBy hparts hkinds] at hclosed
  have hpre : p.before <+: (stream p).take last := by
    rw [htake, upToEnd, List.append_assoc]
    exact List.prefix_append _ _
  obtain ⟨rest, hrest⟩ := (closedLines_isPrefix hpre).trans (closedLines_paneLines ((stream p).take last))
  have hbefore : unlines nl (closedLines nl [] p.before) = p.before := by
    have hall := @unlines_closedLines _ nl _ [] p.before
    rwa [openLine_terminated hp.terminated, List.append_nil, List.nil_append] at hall
  have hbelow : unlines nl rest = render (closedBy p.block e) ++ x := by
    rw [← hrest, unlines_append, hbefore, List.append_assoc, List.append_cancel_left_eq] at hclosed
    exact hclosed
  rw [capturePane, ← hrest, List.drop_append_of_le_length hfits, unlines_append, hbelow, ← List.append_assoc]
  have hshown : ∀ l ∈ (closedLines nl [] p.before).drop (firstLine lines ((stream p).take last)),
      trimAscii l ≠ (marker p.block).beginMark := fun l hl => hp.noBegin l (List.mem_of_mem_drop hl)
  have hone : ∀ l ∈ (closedLines nl [] p.before).drop (firstLine lines ((stream p).take last)), nl ∉ l :=
    fun l hl => (@sep_notMem_lines _ nl _ [] List.not_mem_nil p.before).1 l (List.mem_of_mem_drop hl)
  refine ⟨_, p.block.beginEnd, (closedBy p.block e).lineEnd, x, terminated_unlines _, ?_, rfl⟩
  rw [NoBeginLine, closedLines_unlines hone]
  exact hshown

/-- A pass whose captures show the pane as it is written, the last of them END with
BEGIN's line still on it, replies what the block holds: which of the captures came when,
which of them failed and how far the block was written at each does not matter. -/
theorem reply_is_block (pid : Nat) (a : PassAnswers) (b : Binding) (c : EvalCall) (detect : Bool) (s : Session)
    {p : Story} (hp : Genuine p) (hid : marker p.block = passMarker pid a s)
    (hsent : a.send.load = .ok () ∧ a.send.paste = .ok ()) {early later : List PollInput} {i : PollInput}
    {lines last : Nat} {ts : List Nat} (hpolls : a.polls = early ++ i :: later) (hpatient : patient 0 early = true)
    (hearly : captured early = captures lines (stream p) ts) (hts : ∀ t ∈ ts, t < endWritten p)
    (hstarted : ∀ cap ∈ captured early, jjmcpRuntimeMissing cap p.block.id = true →
      (extractBetweenMarkers cap (marker p.block)).foundBegin = true)
    (hi : i.captured = .ok (capturePane lines ((stream p).take last))) (hlast : endWritten p ≤ last)
    (hfits : firstLine lines ((stream p).take last) ≤ (closedLines nl [] p.before).length) :
    (runMarkerEval pid a b c detect s).2 =
      .stop (some (doneResult a (marker p.block) c.captureLines (content p.block.emission))) := by
  have hm : (marker p.block).OneLine := generatorForm_oneLine hp.generated
  have hcr : cr ∉ (marker p.block).id := generatorForm_noCr hp.generated
  let pass : Pass := ⟨marker p.block, detect, c.progressActive⟩
  have hcaps : ∀ cap ∈ captured early, Running (marker p.block) cap ∧ (jjmcpRuntimeMissing cap p.block.id = true →
      (extractBetweenMarkers cap (marker p.block)).foundBegin = true) := by
    intro cap hcap
    refine ⟨?_, hstarted cap hcap⟩
    rw [hearly] at hcap
    obtain ⟨t, ht, rfl⟩ := List.mem_map.mp hcap
    exact running_capturePane hm (hp.unsplit.isInfix (List.take_prefix t _).isInfix) (no_end_early hp (hts t ht)) lines
  obtain ⟨u, hrun, -⟩ := @poll_waits pass hm hcr _ _ (waits_init _) hpatient hcaps
  obtain ⟨q, hstep, hext⟩ := @pollStep_shows pass hp.generated _ hp.free _
    (shows_emission hp hlast hfits) u i.expired
  have hpoll : poll pass {} a.polls = .done q := by
    have hturn : i = ⟨.ok (capturePane lines ((stream p).take last)), i.expired⟩ := by rw [← hi]
    rw [hpolls, poll_append, hrun]
    simp only [poll]
    rw [hturn, hstep]
  have hpass : poll ⟨passMarker pid a s, detect, c.progressActive⟩ {} a.polls = .done q := by
    rw [← hid]
    exact hpoll
  rw [runMarkerEval_done hsent hpass, hext, hid, extracted_eq]

def printed : Story where
  before := lit "julia> @JJMCP_COMMAND \"7_41_1\" 10000 begin\n"
  block := ⟨lit "7_41_1", .value (lit "hello\n") (lit "2"), .lf, fun _ => .lf⟩
  after := lit "\njulia> "

def printedAt (t : Nat) : PollInput := ⟨.ok (capturePane 100 ((stream printed).take t)), false⟩

/-- BEGIN's line is half written at the first capture, and the second fails. -/
def printedEarly : List PollInput := [printedAt 50, ⟨.error (lit "no server"), false⟩, printedAt 75]

def printedAnswers : PassAnswers where
  micros := 7
  polls := printedEarly ++ [printedAt 155]

theorem printed_genuine : Genuine printed where
  generated := ⟨lit "7", lit "41", lit "1", by decide, by decide, by decide, rfl⟩
  terminated := .inr ⟨printed.before.dropLast, by decide⟩
  noBegin := by decide
  noEnd := by decide
  free := fun s hs => markFree_of_id (by
    have hall : ∀ s ∈ segments printed.block, ¬ lit "7_41_1" <:+: s := by decide
    exact hall s hs)
  unsplit := unsplit_of_noCr (by decide)

theorem reply_is_block_printed :
    (runMarkerEval 41 printedAnswers ⟨lit "%3", lit "%3", [], []⟩ { code := lit "f()" } true
      { server := { configPath := ⟨true, []⟩ } }).2 =
      .stop (some (doneResult printedAnswers (marker printed.block) 2000 (content printed.block.emission))) := by
  have hpolls : printedAnswers.polls = printedEarly ++ printedAt 155 :: [] := rfl
  have hearly : captured printedEarly = captures 100 (stream printed) [50, 75] := rfl
  have hlast : (printedAt 155).captured = .ok (capturePane 100 ((stream printed).take 155)) := rfl
  exact reply_is_block 41 printedAnswers _ { code := lit "f()" } true _ printed_genuine rfl ⟨rfl, rfl⟩ hpolls (by decide)
    hearly (by decide +kernel) (by decide +kernel) hlast (by decide +kernel) (by decide +kernel)

end JJMCP.PaneReply
