import JJMCP.Extract
import JJMCP.Overlap
import JJMCP.Truncate

namespace JJMCP

structure PollState where
  accumulator : Text := []
  lastCapture : Text := []
  lastExtract : ExtractedOutput := {}
  beginTrimmed : Bool := false
  captureFailures : Nat := 0
  lastProgressSize : Nat := 0
  progress : List (Nat × Text) := []
  deriving DecidableEq, Repr

structure Pass where
  marker : Marker
  detectMissingRuntime : Bool
  progressActive : Bool := false

/-- One turn of the loop: the answer of capture_pane, and whether the clock has
reached the deadline when the turn ends. -/
structure PollInput where
  captured : Except Text Text
  expired : Bool := false

inductive Polled
  | again (s : PollState)
  | done (s : PollState)
  | timedOut (s : PollState)
  | missing
  | failed (error : Text)

def Polled.state? : Polled → Option PollState
  | .again s | .done s | .timedOut s => some s
  | .missing | .failed _ => none

end JJMCP

namespace JJMCP.Poll

open Lib.Occurrence Text Marker Extract Overlap Truncate

def kEvalAccumulatorTailLines : Nat := 2000
def kMaxEvalAccumulatorBytes : Nat := 1024 * 1024
def kMaxCaptureFailures : Nat := 5
def kProgressMinDelta : Nat := 4096
def kProgressMaxTail : Nat := 4096

def appendLine (out line : Text) : Text := out ++ line ++ [nl]

def appendBlock (out text : Text) : Text :=
  if text = [] then out
  else if text.getLast? = some nl then out ++ text
  else out ++ text ++ [nl]

def compactMarkerAccumulator (e : ExtractedOutput) (m : Marker)
    (sawOutEnd sawValEnd sawError sawBacktrace sawEnd : Bool) : Text :=
  let out := appendLine [] m.beginMark
  let out := appendBlock out (truncateToolTail e.stdoutText kEvalAccumulatorTailLines kMaxMcpTextBytes)
  let out :=
    if sawError then
      let out := appendLine out (m.mark .Error)
      let out := appendBlock out (truncateToolTail e.errorMessage kEvalAccumulatorTailLines kMaxMcpTextBytes)
      if sawBacktrace then
        appendBlock (appendLine out (m.mark .Backtrace)) (truncateToolTail e.backtrace 200 kMaxMcpBacktraceBytes)
      else out
    else if sawOutEnd then
      let out := appendLine out (m.mark .OutEnd)
      let out := appendBlock out (truncateToolTail e.valueRepr kEvalAccumulatorTailLines kMaxMcpTextBytes)
      if sawValEnd then appendLine out (m.mark .ValEnd) else out
    else out
  if sawEnd then appendLine out (m.mark .End) else out

def jjmcpRuntimeMissing (capture markerId : Text) : Bool :=
  match rfind markerId capture with
  | none => false
  | some echo =>
      match find (lit "UndefVarError") (capture.drop echo) with
      | none => false
      | some p => (find (lit "JJMCP_COMMAND") (capture.drop (echo + p))).isSome

def splice (s : PollState) (cap : Text) : Text :=
  if s.accumulator = [] then cap
  else if cap = s.lastCapture then s.accumulator
  else
    let overlap := computeCaptureOverlap s.lastCapture cap
    if overlap < cap.length then s.accumulator ++ cap.drop overlap else s.accumulator

/-- The live capture goes before the accumulator. -/
def extractCapture (m : Marker) (cap accumulator : Text) : ExtractedOutput :=
  let e := extractBetweenMarkers cap m
  if e.foundBegin then e else extractBetweenMarkers accumulator m

def readCapture (m : Marker) (cap : Text) (s : PollState) : PollState :=
  { s with
    captureFailures := 0
    accumulator := splice s cap
    lastCapture := cap
    lastExtract := extractCapture m cap (splice s cap) }

def lineStart (text : Text) (pos : Nat) : Nat := ((text.take (pos + 1)).rdropWhile (· ≠ nl)).length

def trimAtBegin (m : Marker) (s : PollState) : PollState :=
  if s.beginTrimmed = false ∧ s.lastExtract.foundBegin = true then
    { s with
      accumulator :=
        match find m.beginMark s.accumulator with
        | none => s.accumulator
        | some beginPos => s.accumulator.drop (lineStart s.accumulator beginPos)
      beginTrimmed := true }
  else s

def emitProgress (pass : Pass) (s : PollState) : PollState :=
  if pass.progressActive = true ∧ s.lastExtract.foundBegin = true ∧
      s.lastProgressSize + kProgressMinDelta ≤ s.lastExtract.text.length then
    { s with
      progress := s.progress ++ [(s.progress.length + 1,
        truncateBytesTail (s.lastExtract.text.drop s.lastProgressSize) kProgressMaxTail)]
      lastProgressSize := s.lastExtract.text.length }
  else s

def compact (m : Marker) (s : PollState) : PollState :=
  let saw := fun k => (find (m.mark k) s.accumulator).isSome
  let accumulator := compactMarkerAccumulator s.lastExtract m (saw .OutEnd) (saw .ValEnd) (saw .Error)
    (saw .Backtrace) (saw .End)
  { s with
    accumulator := accumulator
    lastExtract := extractBetweenMarkers accumulator m
    lastProgressSize := 0 }

/-- Without BEGIN the oldest half goes, up to the end of a line. -/
def dropHead (s : PollState) : PollState :=
  let drop := s.accumulator.length - kMaxEvalAccumulatorBytes / 2
  { s with
    accumulator :=
      match find [nl] (s.accumulator.drop drop) with
      | none => s.accumulator.drop drop
      | some lineEnd => s.accumulator.drop (drop + lineEnd + 1) }

def boundAccumulator (m : Marker) (s : PollState) : PollState :=
  if s.lastExtract.foundEnd = false ∧ kMaxEvalAccumulatorBytes < s.accumulator.length then
    if s.lastExtract.foundBegin then compact m s else dropHead s
  else s

def finishTurn (pass : Pass) (s : PollState) : PollState :=
  boundAccumulator pass.marker (emitProgress pass (trimAtBegin pass.marker s))

def pollStep (pass : Pass) (s : PollState) (i : PollInput) : Polled :=
  match i.captured with
  | .error error =>
      let s := { s with captureFailures := s.captureFailures + 1 }
      if kMaxCaptureFailures < s.captureFailures then .failed error
      else if i.expired then .timedOut s else .again s
  | .ok cap =>
      let s := readCapture pass.marker cap s
      if pass.detectMissingRuntime = true ∧ s.lastExtract.foundBegin = false ∧
          jjmcpRuntimeMissing cap pass.marker.id = true then .missing
      else
        let s := finishTurn pass s
        if s.lastExtract.foundEnd then .done s
        else if i.expired then .timedOut s else .again s

def poll (pass : Pass) (s : PollState) : List PollInput → Polled
  | [] => .again s
  | i :: is =>
      match pollStep pass s i with
      | .again s => poll pass s is
      | r => r

theorem poll_append (pass : Pass) (s : PollState) (is js : List PollInput) :
    poll pass s (is ++ js) =
      match poll pass s is with
      | .again s' => poll pass s' js
      | r => r := by
  induction is generalizing s with
  | nil => rfl
  | cons i is ih =>
      simp only [List.cons_append, poll]
      cases pollStep pass s i with
      | again s' => exact ih s'
      | done | timedOut | missing | failed => rfl

theorem poll_not_missing {pass : Pass} (hp : pass.detectMissingRuntime = false) (s : PollState)
    (is : List PollInput) : poll pass s is ≠ .missing := by
  induction is generalizing s with
  | nil => simp [poll]
  | cons i is ih =>
      have hstep : pollStep pass s i ≠ .missing := by
        unfold pollStep
        split
        · dsimp only
          split
          · simp
          · split <;> simp
        · simp only [hp, Bool.false_eq_true, false_and, if_false]
          split
          · simp
          · split <;> simp
      unfold poll
      split
      next s' _ => exact ih s'
      next r _ => exact hstep

theorem poll_concat_done {pass : Pass} {s t q : PollState} {is : List PollInput} {i : PollInput}
    (hrun : poll pass s is = .again t) (hstep : pollStep pass t i = .done q) : poll pass s (is ++ [i]) = .done q := by
  rw [poll_append, hrun]
  simp only [poll, hstep]

theorem poll_cons_again {pass : Pass} {s s' : PollState} {i : PollInput} {is : List PollInput}
    (h : poll pass s (i :: is) = .again s') :
    ∃ t, pollStep pass s i = .again t ∧ poll pass t is = .again s' := by
  rw [poll] at h
  cases hstep : pollStep pass s i with
  | again t =>
      rw [hstep] at h
      exact ⟨t, rfl, h⟩
  | done | timedOut | missing | failed =>
      rw [hstep] at h
      exact absurd h (by simp)

theorem poll_append_again {pass : Pass} {s s' : PollState} {is js : List PollInput}
    (h : poll pass s (is ++ js) = .again s') : ∃ t, poll pass s is = .again t ∧ poll pass t js = .again s' := by
  induction is generalizing s with
  | nil => exact ⟨s, rfl, h⟩
  | cons i is ih =>
      obtain ⟨u, hstep, hrest⟩ := poll_cons_again h
      obtain ⟨t, ht, hjs⟩ := ih hrest
      refine ⟨t, ?_, hjs⟩
      simpa only [poll, hstep] using ht

/-- A turn that goes on lost its capture, or read it and did not find END. -/
theorem pollStep_again {pass : Pass} {s s' : PollState} {i : PollInput} (h : pollStep pass s i = .again s') :
    (∃ error, i.captured = .error error ∧ s' = { s with captureFailures := s.captureFailures + 1 }) ∨
      ∃ cap, i.captured = .ok cap ∧ s' = finishTurn pass (readCapture pass.marker cap s) ∧
        s'.lastExtract.foundEnd = false := by
  cases hcap : i.captured with
  | error error =>
      simp only [pollStep, hcap] at h
      split at h
      · simp at h
      · split at h
        · simp at h
        · exact .inl ⟨error, rfl, (Polled.again.inj h).symm⟩
  | ok cap =>
      simp only [pollStep, hcap] at h
      split at h
      · simp at h
      · split at h
        · simp at h
        next hend =>
          split at h
          · simp at h
          · obtain rfl := Polled.again.inj h
            exact .inr ⟨cap, rfl, rfl, by simpa using hend⟩

theorem trimAtBegin_trimmed {m : Marker} {s : PollState} (h : s.beginTrimmed = true) : trimAtBegin m s = s := by
  rw [trimAtBegin, if_neg (by simp [h])]

theorem dropHead_drop (s : PollState) : ∃ n, s.accumulator.length - kMaxEvalAccumulatorBytes / 2 ≤ n ∧
    dropHead s = { s with accumulator := s.accumulator.drop n } := by
  simp only [dropHead]
  generalize s.accumulator.length - kMaxEvalAccumulatorBytes / 2 = drop
  split
  · exact ⟨drop, Nat.le_refl _, rfl⟩
  next lineEnd _ => exact ⟨drop + lineEnd + 1, by omega, rfl⟩

/-- A capture falls into a part that closes the capture before it and the part
that the accumulator gains. -/
theorem splice_eq (s : PollState) (cap : Text) :
    ∃ old new, cap = old ++ new ∧ old <:+ s.lastCapture ∧ splice s cap = s.accumulator ++ new := by
  unfold splice
  split
  next h => exact ⟨[], cap, rfl, List.nil_suffix, by simp [h]⟩
  next =>
    split
    next h => exact ⟨cap, [], by simp, by simp [h], by simp⟩
    next =>
      have hm := overlap_matched s.lastCapture cap
      refine ⟨cap.take (computeCaptureOverlap s.lastCapture cap),
        cap.drop (computeCaptureOverlap s.lastCapture cap), by simp, hm.2, ?_⟩
      dsimp only
      split
      · rfl
      next hlt => rw [List.drop_eq_nil_of_le (by omega), List.append_nil]

end JJMCP.Poll
