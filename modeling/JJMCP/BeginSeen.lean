import JJMCP.Compaction
import JJMCP.MarkerIds
import JJMCP.Scrollback
import JJMCP.Submission

namespace JJMCP.BeginSeen

open Lib.Occurrence Lib.Lines Text Marker Extract Truncate Poll Compaction Scrollback
open Config EvalCode Submission

variable {m : Marker}

/-- One of the closed lines is BEGIN's. -/
def Shows (m : Marker) (text : Text) : Prop := ∃ l ∈ closedLines nl [] text, trimAscii l = m.beginMark

/-- What capture-pane prints: closed lines, of which only BEGIN's own ends in the
BEGIN string. -/
structure Printed (m : Marker) (cap : Text) : Prop where
  closed : Terminated nl cap
  alone : ∀ l ∈ closedLines nl [] cap, m.beginMark <:+ trimAscii l → trimAscii l = m.beginMark

theorem shows_append {a : Text} (b : Text) (ha : Terminated nl a) : Shows m (a ++ b) ↔ Shows m a ∨ Shows m b := by
  simp only [Shows, closedLines_append_terminated b ha, List.mem_append, or_and_right, exists_or]

theorem not_shows_nil : ¬ Shows m [] := by
  rintro ⟨l, hl, -⟩
  exact absurd hl List.not_mem_nil

theorem Shows.isInfix {t : Text} (h : Shows m t) : m.beginMark <:+: t := by
  obtain ⟨l, hl, hline⟩ := h
  exact hline ▸ (trimAscii_isInfix l).trans (mem_closedLines_isInfix hl)

theorem printed_nil : Printed m [] :=
  ⟨terminated_nil, fun _ hl => absurd hl List.not_mem_nil⟩

theorem findPayload_isSome (marker line t : Text) :
    (findMarkerLinePayload marker line t).isSome = true ↔
      ∃ l ∈ closedLines nl line t ++ [openLine nl line t], trimAscii l = marker := by
  induction t generalizing line with
  | nil =>
      by_cases h : trimAscii line = marker
      · simp [findMarkerLinePayload, closedLines, openLine, h]
      · simp [findMarkerLinePayload, closedLines, openLine, h]
  | cons c cs ih =>
      by_cases hc : c = nl
      · by_cases h : trimAscii line = marker
        · simp [findMarkerLinePayload, closedLines, hc, h]
        · simp only [findMarkerLinePayload, closedLines, openLine, hc, if_true, h, if_false, ih, List.cons_append,
            List.mem_cons, exists_eq_or_imp, false_or]
      · simp only [findMarkerLinePayload, closedLines, openLine, hc, if_false, ih]

theorem foundBegin_iff {t : Text} (ht : Terminated nl t) :
    (extractBetweenMarkers t m).foundBegin = true ↔ Shows m t := by
  have hlines := findPayload_isSome m.beginMark [] t
  have hempty : trimAscii [] ≠ m.beginMark := (beginMark_ne_nil m).symm
  rw [openLine_terminated ht] at hlines
  simp only [List.mem_append, List.mem_singleton, or_and_right, exists_or, exists_eq_left, hempty, or_false] at hlines
  rw [Shows, ← hlines, extract_eq, findMarkerLinePayloadStart]
  cases findMarkerLinePayload m.beginMark [] t with
  | none => simp
  | some rest => exact iff_of_true (Tokens.extractLoop_foundBegin m _ _ _ _) rfl

theorem beginMark_isSuffix_trimAscii {l : Text} (h : trimAscii l = m.beginMark) (before : Text) :
    m.beginMark <:+ trimAscii (before ++ l) := by
  obtain ⟨a, b, hl, -, hb⟩ := trimAscii_split l
  obtain ⟨s, hs⟩ := beginMark_solid m
  have hblank : ∀ b t : Text, (∀ c ∈ b, isBlank c = true) → trimAscii (t ++ b) = trimAscii t := by
    intro b
    induction b using List.reverseRecOn with
    | nil => simp
    | append_singleton b c ih =>
        intro t hall
        rw [← List.append_assoc, trimAscii_concat_blank (hall c (by simp)), ih t fun d hd => hall d (by simp [hd])]
  rw [hl, h, ← List.append_assoc, ← List.append_assoc, hblank b _ hb, hs]
  exact suffix_trimAscii (by decide) (by decide) _ _

/-- What closes a printed text shows BEGIN only where the text does: a line that
was cut at its start is not BEGIN's. -/
theorem Printed.shows_of_suffix {cap old : Text} (h : Printed m cap) (hold : old <:+ cap) (hshows : Shows m old) :
    Shows m cap := by
  obtain ⟨before, rfl⟩ := hold
  obtain ⟨l, hl, hline⟩ := hshows
  obtain ⟨hlines, -⟩ := @lines_append _ nl _ [] before old
  rw [closedLines_pending (openLine nl [] before)] at hlines
  cases hclosed : closedLines nl [] old with
  | nil => simp [hclosed] at hl
  | cons first rest =>
      rw [hclosed, List.modifyHead_cons] at hlines
      rw [hclosed] at hl
      rcases List.mem_cons.mp hl with rfl | hl
      · have hmem : openLine nl [] before ++ l ∈ closedLines nl [] (before ++ old) := by simp [hlines]
        exact ⟨_, hmem, h.alone _ hmem (beginMark_isSuffix_trimAscii hline _)⟩
      · exact ⟨l, by simp [hlines, hl], hline⟩

/-- The loop has found BEGIN exactly if one of the captures shows it, and keeps
the line in the accumulator from there on. -/
structure Tracks (m : Marker) (caps : List Text) (s : PollState) : Prop where
  accumulator : Terminated nl s.accumulator
  printed : Printed m s.lastCapture
  last : Shows m s.lastCapture → Shows m s.accumulator
  shown : Shows m s.accumulator ↔ ∃ cap ∈ caps, Shows m cap
  found : s.lastExtract.foundBegin = true ↔ Shows m s.accumulator

theorem tracks_init (m : Marker) : Tracks m [] {} where
  accumulator := terminated_nil
  printed := printed_nil
  last := id
  shown := iff_of_false not_shows_nil (by simp)
  found := iff_of_false Bool.false_ne_true not_shows_nil

theorem Tracks.readCapture {caps : List Text} {s : PollState} (h : Tracks m caps s) {cap : Text} (hcap : Printed m cap) :
    Tracks m (caps ++ [cap]) (readCapture m cap s) := by
  obtain ⟨old, new, hcut, hold, hsplice⟩ := splice_eq s cap
  have hterm : Terminated nl old := h.printed.closed.isSuffix hold
  have hacc : Terminated nl (splice s cap) := by
    rw [hsplice]
    exact h.accumulator.append (hcap.closed.isSuffix ⟨old, hcut.symm⟩)
  have hcapture : Shows m cap ↔ Shows m old ∨ Shows m new := by rw [hcut, shows_append new hterm]
  have hgained : Shows m (splice s cap) ↔ Shows m s.accumulator ∨ Shows m new := by
    rw [hsplice, shows_append new h.accumulator]
  have hseen : Shows m old → Shows m s.accumulator := fun ho => h.last (h.printed.shows_of_suffix hold ho)
  have hall : Shows m (splice s cap) ↔ Shows m s.accumulator ∨ Shows m cap := by
    rw [hgained, hcapture]
    tauto
  refine ⟨hacc, hcap, fun hc => hall.mpr (.inr hc), ?_, ?_⟩
  · rw [show (Poll.readCapture m cap s).accumulator = splice s cap from rfl, hall, h.shown]
    simp [or_and_right, exists_or]
  · change (extractCapture m cap (splice s cap)).foundBegin = true ↔ Shows m (splice s cap)
    simp only [extractCapture]
    split
    next hlive => exact iff_of_true hlive (hall.mpr (.inr ((foundBegin_iff hcap.closed).mp hlive)))
    next => exact foundBegin_iff hacc

theorem terminated_rdropWhile (t : Text) : Terminated nl (t.rdropWhile (· ≠ nl)) := by
  induction t using List.reverseRecOn with
  | nil => exact terminated_nil
  | append_singleton t c ih =>
      by_cases hc : c = nl
      · rw [List.rdropWhile_concat_neg _ _ _ (by simp [hc]), hc]
        exact terminated_concat t
      · rwa [List.rdropWhile_concat_pos _ _ _ (by simp [hc])]

/-- The trim cuts at the start of a line, and no line above it holds the BEGIN string. -/
theorem trim_cut {t : Text} {p : Nat} (hp : find m.beginMark t = some p) :
    ∃ above, Terminated nl above ∧ ¬ m.beginMark <:+: above ∧ t = above ++ t.drop (lineStart t p) := by
  obtain ⟨_, _, hfirst⟩ := find_eq_some.mp hp
  have hle := (List.rdropWhile_prefix (· ≠ nl) (t.take (p + 1))).length_le
  have hpre := (List.rdropWhile_prefix (· ≠ nl) (t.take (p + 1))).trans (List.take_prefix _ _)
  refine ⟨(t.take (p + 1)).rdropWhile (· ≠ nl), terminated_rdropWhile _, ?_, ?_⟩
  · intro hin
    obtain ⟨q, hq⟩ := infix_iff_at.mp hin
    have hb := hq.bound (beginMark_ne_nil m)
    have hlong : 2 ≤ m.beginMark.length := by
      obtain ⟨s, hs⟩ := beginMark_solid m
      simp [hs]
    rw [List.length_take] at hle
    refine hfirst q (by omega) ?_
    obtain ⟨below, hbelow⟩ := hpre
    rw [← hbelow]
    exact (at_append_left _ hb).mpr hq
  · exact (List.prefix_iff_eq_append.mp hpre).symm

theorem Tracks.trimAtBegin {caps : List Text} {s : PollState} (h : Tracks m caps s) :
    Tracks m caps (trimAtBegin m s) := by
  unfold Poll.trimAtBegin
  split
  · cases hp : find m.beginMark s.accumulator with
    | none => exact ⟨h.accumulator, h.printed, h.last, h.shown, h.found⟩
    | some p =>
        obtain ⟨above, habove, hno, hcut⟩ := trim_cut hp
        have hshows : Shows m s.accumulator ↔ Shows m (s.accumulator.drop (lineStart s.accumulator p)) := by
          conv_lhs => rw [hcut]
          rw [shows_append _ habove, or_iff_right fun ha => hno ha.isInfix]
        exact ⟨h.accumulator.isSuffix (List.drop_suffix _ _), h.printed, fun hl => hshows.mp (h.last hl),
          hshows.symm.trans h.shown, h.found.trans hshows⟩
  · exact h

theorem Tracks.emitProgress {caps : List Text} {s : PollState} (h : Tracks m caps s) (pass : Pass) :
    Tracks m caps (emitProgress pass s) := by
  unfold Poll.emitProgress
  split
  · exact ⟨h.accumulator, h.printed, h.last, h.shown, h.found⟩
  · exact h

/-- BEGIN's line and closed lines below it. -/
def Opens (m : Marker) (out : Text) : Prop := ∃ rest, Terminated nl rest ∧ out = m.beginMark ++ nl :: rest

theorem Opens.append {out t : Text} (h : Opens m out) (ht : Terminated nl t) : Opens m (out ++ t) := by
  obtain ⟨rest, hrest, rfl⟩ := h
  exact ⟨rest ++ t, hrest.append ht, by simp⟩

theorem Opens.line {out : Text} (h : Opens m out) (line : Text) : Opens m (appendLine out line) := by
  rw [appendLine, List.append_assoc]
  exact h.append (terminated_concat line)

theorem terminated_blockText (t : Text) : Terminated nl (blockText t) := by
  simp only [blockText, appendBlock, List.nil_append]
  split
  · exact terminated_nil
  · split
    next hl => exact .inr ⟨t.dropLast, (List.dropLast_append_getLast? nl hl).symm⟩
    next => exact terminated_concat t

theorem Opens.block {out : Text} (h : Opens m out) (t : Text) : Opens m (appendBlock out t) := by
  rw [appendBlock_eq]
  exact h.append (terminated_blockText t)

theorem opens_compact (m : Marker) (e : ExtractedOutput) (sawOutEnd sawValEnd sawError sawBacktrace sawEnd : Bool) :
    Opens m (compactMarkerAccumulator e m sawOutEnd sawValEnd sawError sawBacktrace sawEnd) := by
  have hbegin : Opens m (appendLine [] m.beginMark) := ⟨[], terminated_nil, rfl⟩
  have hout := hbegin.block (truncateToolTail e.stdoutText kEvalAccumulatorTailLines kMaxMcpTextBytes)
  have hend : ∀ {out}, Opens m out → Opens m (if sawEnd = true then appendLine out (m.mark .End) else out) := by
    intro out h
    split
    · exact h.line _
    · exact h
  unfold compactMarkerAccumulator
  apply hend
  split
  · have herror := (hout.line (m.mark .Error)).block
      (truncateToolTail e.errorMessage kEvalAccumulatorTailLines kMaxMcpTextBytes)
    dsimp only
    split
    · exact (herror.line _).block _
    · exact herror
  · split
    · have hvalue := (hout.line (m.mark .OutEnd)).block
        (truncateToolTail e.valueRepr kEvalAccumulatorTailLines kMaxMcpTextBytes)
      dsimp only
      split
      · exact hvalue.line _
      · exact hvalue
    · exact hout

theorem Opens.shows (hm : m.OneLine) {out : Text} (h : Opens m out) : Terminated nl out ∧ Shows m out := by
  obtain ⟨rest, hrest, rfl⟩ := h
  have hline : Terminated nl (m.beginMark ++ [nl]) := terminated_concat _
  rw [show m.beginMark ++ nl :: rest = m.beginMark ++ [nl] ++ rest by simp]
  refine ⟨hline.append hrest, (shows_append rest hline).mpr (.inl ⟨m.beginMark, ?_, trimAscii_beginMark m⟩)⟩
  rw [closedLines_line (nl_notMem_beginMark.mpr hm)]
  exact List.mem_singleton.mpr rfl

theorem Tracks.compact (hm : m.OneLine) {caps : List Text} {s : PollState} (h : Tracks m caps s)
    (hfound : s.lastExtract.foundBegin = true) : Tracks m caps (compact m s) := by
  obtain ⟨hterm, hshows⟩ := (opens_compact m s.lastExtract _ _ _ _ _).shows hm
  exact ⟨hterm, h.printed, fun _ => hshows, iff_of_true hshows (h.shown.mp (h.found.mp hfound)), foundBegin_iff hterm⟩

/-- The older half goes up to the end of a line. -/
theorem dropHead_cut {s : PollState} (h : Terminated nl s.accumulator) :
    ∃ k, Terminated nl (s.accumulator.take k) ∧ dropHead s = { s with accumulator := s.accumulator.drop k } := by
  simp only [Poll.dropHead]
  generalize s.accumulator.length - kMaxEvalAccumulatorBytes / 2 = drop
  cases hp : find [nl] (s.accumulator.drop drop) with
  | none =>
      have hnil : s.accumulator.drop drop = [] := by
        rcases h.isSuffix (List.drop_suffix drop _) with hnil | ⟨l, hl⟩
        · exact hnil
        · refine absurd ?_ (find_eq_none.mp hp)
          rw [hl]
          exact (List.suffix_append l [nl]).isInfix
      refine ⟨drop, ?_, rfl⟩
      rwa [List.take_of_length_le (List.drop_eq_nil_iff.mp hnil)]
  | some lineEnd =>
      obtain ⟨_, ⟨rest, hrest⟩, _⟩ := find_eq_some.mp hp
      refine ⟨drop + lineEnd + 1, .inr ⟨s.accumulator.take (drop + lineEnd), ?_⟩, rfl⟩
      rw [List.take_add, ← List.drop_drop, ← hrest]
      rfl

theorem Tracks.dropHead {caps : List Text} {s : PollState} (h : Tracks m caps s)
    (hfound : s.lastExtract.foundBegin ≠ true) : Tracks m caps (dropHead s) := by
  have hnone := mt h.found.mpr hfound
  obtain ⟨k, hcut, hdrop⟩ := dropHead_cut h.accumulator
  have hrest : ¬ Shows m (s.accumulator.drop k) := by
    intro hs
    refine hnone ?_
    rw [← List.take_append_drop k s.accumulator]
    exact (shows_append _ hcut).mpr (.inr hs)
  rw [hdrop]
  exact ⟨h.accumulator.isSuffix (List.drop_suffix k _), h.printed, fun hl => absurd (h.last hl) hnone,
    iff_of_false hrest (mt h.shown.mpr hnone), iff_of_false hfound hrest⟩

theorem Tracks.finishTurn {pass : Pass} (hm : pass.marker.OneLine) {caps : List Text} {s : PollState}
    (h : Tracks pass.marker caps s) : Tracks pass.marker caps (finishTurn pass s) := by
  have hemit := h.trimAtBegin.emitProgress pass
  unfold Poll.finishTurn boundAccumulator
  split
  · split
    next hfound => exact hemit.compact hm hfound
    next hfound => exact hemit.dropHead hfound
  · exact hemit

/-- A turn that reads a capture leaves the loop with that capture's state, unless
the REPL rejected the code and no capture so far shows BEGIN. -/
theorem Tracks.pollStep {pass : Pass} (hm : pass.marker.OneLine) {caps : List Text} {s : PollState}
    (h : Tracks pass.marker caps s) {i : PollInput} (hi : ∀ cap ∈ captured [i], Printed pass.marker cap) :
    (∀ t, (pollStep pass s i).state? = some t → Tracks pass.marker (caps ++ captured [i]) t) ∧
      (pollStep pass s i = .missing → ∀ cap ∈ caps ++ captured [i], ¬ Shows pass.marker cap) := by
  cases hcap : i.captured with
  | error e =>
      have hnone : captured [i] = [] := by simp [captured, hcap, Except.toOption]
      have hkept : Tracks pass.marker caps { s with captureFailures := s.captureFailures + 1 } :=
        ⟨h.accumulator, h.printed, h.last, h.shown, h.found⟩
      rw [hnone, List.append_nil]
      simp only [Poll.pollStep, hcap]
      split
      · simp [Polled.state?]
      · split
        · simpa [Polled.state?] using hkept
        · simpa [Polled.state?] using hkept
  | ok cap =>
      have hone : captured [i] = [cap] := by simp [captured, hcap, Except.toOption]
      rw [hone] at hi ⊢
      have hread := h.readCapture (hi cap (List.mem_singleton.mpr rfl))
      have hturn := hread.finishTurn hm
      simp only [Poll.pollStep, hcap]
      split
      next hmissing =>
        refine ⟨by simp [Polled.state?], fun _ c hc hshows => ?_⟩
        have hfound := hread.found.mpr (hread.shown.mpr ⟨c, hc, hshows⟩)
        simp [hfound] at hmissing
      next =>
        split
        · simpa [Polled.state?] using hturn
        · split
          · simpa [Polled.state?] using hturn
          · simpa [Polled.state?] using hturn

theorem poll_tracks {pass : Pass} (hm : pass.marker.OneLine) {is : List PollInput} {s : PollState}
    (hcaps : ∀ cap ∈ captured is, Printed pass.marker cap) (hrun : poll pass {} is = .again s) :
    Tracks pass.marker (captured is) s := by
  induction is using List.reverseRecOn generalizing s with
  | nil => exact Polled.again.inj hrun ▸ tracks_init pass.marker
  | append_singleton is i ih =>
      rw [captured_append] at hcaps ⊢
      obtain ⟨t, ht, hlast⟩ := poll_append_again hrun
      obtain ⟨u, hstep, hu⟩ := poll_cons_again hlast
      obtain rfl := Polled.again.inj hu
      have hbefore := ih (fun cap hc => hcaps cap (List.mem_append_left _ hc)) ht
      exact (hbefore.pollStep hm fun cap hc => hcaps cap (List.mem_append_right _ hc)).1 u (by rw [hstep]; rfl)

/-- In every run of the loop over printed captures, the state after a turn has
BEGIN exactly if a capture up to that turn shows it. Once found it stays found,
through the trim, the dropped halves and every compaction. -/
theorem begin_stays_found {pass : Pass} (hm : pass.marker.OneLine) {is : List PollInput} {i : PollInput}
    {s t : PollState} (hcaps : ∀ cap ∈ captured (is ++ [i]), Printed pass.marker cap)
    (hrun : poll pass {} is = .again s) (hturn : (pollStep pass s i).state? = some t) :
    t.lastExtract.foundBegin = true ↔ ∃ cap ∈ captured (is ++ [i]), Shows pass.marker cap := by
  rw [captured_append] at hcaps ⊢
  have hbefore := poll_tracks hm (fun cap hc => hcaps cap (List.mem_append_left _ hc)) hrun
  have hafter := (hbefore.pollStep hm fun cap hc => hcaps cap (List.mem_append_right _ hc)).1 t hturn
  exact hafter.found.trans hafter.shown

def startedPass : Pass := { marker := makeMarker (lit "1"), detectMissingRuntime := true }

def startedTurn : PollInput := { captured := .ok (lit "begin\n__JJMCP_BEGIN_1__\n1\n2\n") }

def scrolledTurn : PollInput := { captured := .ok (lit "2\n3\n") }

def startedState : PollState := (poll startedPass {} [startedTurn]).state?.getD {}

/-- BEGIN has left the pane with the second capture. -/
theorem begin_stays_found_scrolled :
    ((pollStep startedPass startedState scrolledTurn).state?.getD {}).lastExtract.foundBegin = true := by
  have hrun : poll startedPass {} [startedTurn] = .again startedState := rfl
  have hturn : (pollStep startedPass startedState scrolledTurn).state? =
      some ((pollStep startedPass startedState scrolledTurn).state?.getD {}) := by decide +kernel
  have hlines : ∀ cap ∈ captured [startedTurn, scrolledTurn], cap.getLast? = some nl ∧
      ∀ l ∈ closedLines nl [] cap, startedPass.marker.beginMark <:+ trimAscii l →
        trimAscii l = startedPass.marker.beginMark := by decide +kernel
  have hprinted : ∀ cap ∈ captured [startedTurn, scrolledTurn], Printed startedPass.marker cap := fun cap hc =>
    ⟨.inr ⟨cap.dropLast, (List.dropLast_append_getLast? nl (hlines cap hc).1).symm⟩, (hlines cap hc).2⟩
  have hshows : ∃ cap ∈ captured [startedTurn, scrolledTurn], Shows startedPass.marker cap := by
    unfold Shows
    decide +kernel
  have hm : startedPass.marker.OneLine := show nl ∉ lit "1" by decide
  exact (begin_stays_found hm hprinted hrun hturn).mpr hshows

def isPaste : Event → Bool
  | .paste _ _ _ => true
  | _ => false

theorem oneLine_of_pasted {pid : Nat} {s s' : Session} (h : MarkerIds.Moves pid s s') {b : Binding} {c : EvalCall}
    {m : Marker} {new : List Event} (hnew : s'.events = s.events ++ new) (hm : wrapperPaste b c m ∈ new) : m.OneLine := by
  obtain ⟨ids, hrun⟩ := h
  obtain ⟨-, new', hnew', hsub⟩ := hrun.issues
  obtain rfl := List.append_cancel_left (hnew.symm.trans hnew')
  have hid : m.id ∈ new.filterMap MarkerIds.pastedId :=
    List.mem_filterMap.mpr ⟨_, hm, MarkerIds.pastedId_wrapper _ _ _ _ _⟩
  obtain ⟨micros, sequence, hform⟩ := hrun.generator _ (hsub.subset hid)
  exact Emission.generatorForm_oneLine (hform ▸ Emission.generatorForm_makeMarkerId micros pid sequence)

/-- A call pastes the code a second time only after a turn whose capture shows the
rejection of the first paste, and then no capture up to that turn shows BEGIN:
code that was seen to start is not run again. -/
theorem started_code_not_rerun (json : JsonLib) (a : EvalAnswers) (c : EvalCall) {s : Session} {b : Binding}
    (hb : s.server.binding = some b) (htwo : 1 < ((submitted json a c s).filter isPaste).length) :
    ∃ m is i js, wrapperPaste b c m ∈ submitted json a c s ∧ a.pass.polls = is ++ i :: js ∧
      (∃ cap, i.captured = .ok cap ∧ jjmcpRuntimeMissing cap m.id = true) ∧
      ((∀ cap ∈ captured (is ++ [i]), Printed m cap) → ∀ cap ∈ captured (is ++ [i]), ¬ Shows m cap) := by
  obtain ⟨viaSocket, viaPane, hadds, horder, hended⟩ := evalCode_adds json a c hb
  have hsub := hadds.submitted
  have hsocket : viaSocket.filter isPaste = [] := by
    by_cases hs : viaSocket = []
    · rw [hs, List.filter_nil]
    · rw [(horder.request hs).2]
      rfl
  have hpane : 1 < viaPane.length := by
    rw [hsub, List.filter_append, hsocket, List.nil_append] at htwo
    exact htwo.trans_le (List.length_filter_le _ _)
  obtain ⟨m, rest, hviaPane, -, hmissing⟩ := hended hpane
  have hmem : wrapperPaste b c m ∈ submitted json a c s := by
    rw [hsub, hviaPane]
    simp
  obtain ⟨new, hnew, hfilter⟩ := hadds
  have hm : m.OneLine := by
    rw [hsub, ← hfilter] at hmem
    exact oneLine_of_pasted (MarkerIds.evalCode_moves json a c s) hnew (List.mem_of_mem_filter hmem)
  obtain ⟨is, i, js, t, hpolls, hrun, hstep⟩ := poll_missing hmissing
  obtain ⟨cap, hcap, -, hscan⟩ := pollStep_missing hstep
  refine ⟨m, is, i, js, hmem, hpolls, ⟨cap, hcap, hscan⟩, fun hcaps => ?_⟩
  rw [captured_append] at hcaps ⊢
  have hbefore := poll_tracks hm (fun cap hc => hcaps cap (List.mem_append_left _ hc)) hrun
  exact (hbefore.pollStep hm fun cap hc => hcaps cap (List.mem_append_right _ hc)).2 hstep

theorem started_code_not_rerun_restarted :
    ∃ m is i js, wrapperPaste ⟨lit "%3", lit "%3", [], []⟩ { code := lit "1", transport := lit "tmux" } m ∈
        submitted unusedJson restartedAnswers { code := lit "1", transport := lit "tmux" } restartedSession ∧
      restartedAnswers.pass.polls = is ++ i :: js ∧
      (∃ cap, i.captured = .ok cap ∧ jjmcpRuntimeMissing cap m.id = true) ∧
      ((∀ cap ∈ captured (is ++ [i]), Printed m cap) → ∀ cap ∈ captured (is ++ [i]), ¬ Shows m cap) :=
  started_code_not_rerun unusedJson restartedAnswers { code := lit "1", transport := lit "tmux" } rfl (by decide +kernel)

end JJMCP.BeginSeen
