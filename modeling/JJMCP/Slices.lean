import JJMCP.SegmentText

namespace JJMCP

/-- A stretch of the payload and the token that opens it; none opens the first. -/
structure Piece where
  opener : Option Kind
  text : Text
  deriving DecidableEq, Repr

end JJMCP

namespace JJMCP.Slices

open Lib.Occurrence Lib.Lines Text Marker Extract

/-- The payload cut at its tokens, as far as END: always at the first one, and past the
line end that follows it. -/
inductive Cut (m : Marker) : Option Kind → Text → List Piece → Prop
  | uncut {opener : Option Kind} {rest : Text} (h : NoMark m rest) : Cut m opener rest [⟨opener, rest⟩]
  | ended {opener : Option Kind} {rest : Text} {pos : Nat} (h : FirstMark m rest pos .End) :
      Cut m opener rest [⟨opener, rest.take pos⟩]
  | token {opener : Option Kind} {rest after : Text} {pos : Nat} {k : Kind} {ps : List Piece}
      (h : FirstMark m rest pos k) (hk : k ≠ .End)
      (hafter : AfterLineEnd (rest.drop (pos + (m.mark k).length)) after) (hps : Cut m (some k) after ps) :
      Cut m opener rest (⟨opener, rest.take pos⟩ :: ps)

def piecesLoop (m : Marker) : Nat → Option Kind → Text → List Piece
  | 0, _, _ => []
  | fuel + 1, opener, rest =>
      match findNextMarkerToken m rest with
      | none => [⟨opener, rest⟩]
      | some (pos, kind) =>
          ⟨opener, rest.take pos⟩ ::
            if kind = .End then []
            else piecesLoop m fuel (some kind) (skipMarkerLineEnding (rest.drop (pos + (m.mark kind).length)))

def pieces (m : Marker) (opener : Option Kind) (rest : Text) : List Piece :=
  piecesLoop m (rest.length + 1) opener rest

def assemble (out : Text) (ps : List Piece) : Text := ps.foldl (fun out p => appendSegment out p.text) out

/-- The phase in which the loop records what a token opens. -/
def phaseOf : Option Kind → Phase
  | none => .Stdout
  | some k => phaseAfter k .Stdout

def slice : Phase → ExtractedOutput → Text
  | .Stdout, e => e.stdoutText
  | .Value, e => e.valueRepr
  | .Error, e => e.errorMessage
  | .Backtrace, e => e.backtrace

def opened (k : Kind) (ps : List Piece) : List Piece := ps.filter (·.opener = some k)

/-- Before the first OUT_END or ERROR, and opened by no other token. -/
def printed (ps : List Piece) : List Piece :=
  (ps.takeWhile fun p => p.opener ≠ some .OutEnd ∧ p.opener ≠ some .Error).filter
    fun p => p.opener ≠ some .ValEnd ∧ p.opener ≠ some .Backtrace

def together (ps : List Piece) : Text := gathered (ps.map Piece.text)

/-- Each slice is made of the pieces that belong to it, and of no others. -/
structure Attributed (ps : List Piece) (e : ExtractedOutput) : Prop where
  stdoutText : e.stdoutText = together (printed ps)
  valueRepr : e.valueRepr = together (opened .OutEnd ps)
  errorMessage : e.errorMessage = together (opened .Error ps)
  backtrace : e.backtrace = together (opened .Backtrace ps)

theorem assemble_eq (ps : List Piece) : assemble [] ps = together ps := by
  rw [together, ← foldl_appendSegment, List.foldl_map, assemble]

theorem piecesLoop_fuel (m : Marker) (fuel : Nat) (opener : Option Kind) (rest : Text) (hf : rest.length < fuel) :
    piecesLoop m fuel opener rest = pieces m opener rest := by
  induction rest using scan_induction (m := m) generalizing fuel opener with
  | noMark rest hno =>
      obtain ⟨n, rfl⟩ := Nat.exists_eq_add_of_lt hf
      simp [pieces, piecesLoop, findNext_eq_none.mpr hno]
  | last rest p hfirst =>
      obtain ⟨n, rfl⟩ := Nat.exists_eq_add_of_lt hf
      simp [pieces, piecesLoop, findNext_eq_some.mpr hfirst]
  | next rest p k hfirst hE ih =>
      obtain ⟨n, rfl⟩ := Nat.exists_eq_add_of_lt hf
      have hlt := afterMark_length_lt hfirst.1
      have hn := ih (rest.length + n) (some k) (by omega)
      have hl := ih rest.length (some k) hlt
      simp only [pieces, piecesLoop, findNext_eq_some.mpr hfirst, hE, if_false]
      exact congrArg _ (hn.trans hl.symm)

section

variable {m : Marker} (opener : Option Kind) {rest : Text} {p : Nat}

theorem pieces_noMark (h : NoMark m rest) : pieces m opener rest = [⟨opener, rest⟩] := by
  simp [pieces, piecesLoop, findNext_eq_none.mpr h]

theorem pieces_end (h : FirstMark m rest p .End) : pieces m opener rest = [⟨opener, rest.take p⟩] := by
  simp [pieces, piecesLoop, findNext_eq_some.mpr h]

theorem pieces_mark {k : Kind} (h : FirstMark m rest p k) (hk : k ≠ .End) :
    pieces m opener rest = ⟨opener, rest.take p⟩ :: pieces m (some k) (afterMark m rest p k) := by
  rw [← piecesLoop_fuel m rest.length (some k) _ (afterMark_length_lt h.1)]
  simp [pieces, piecesLoop, findNext_eq_some.mpr h, hk, afterMark]

end

theorem cut_eq {m : Marker} {opener : Option Kind} {rest : Text} {ps : List Piece} (h : Cut m opener rest ps) :
    ps = pieces m opener rest := by
  induction h with
  | uncut h => exact (pieces_noMark _ h).symm
  | ended h => exact (pieces_end _ h).symm
  | token h hk hafter _ ih => rw [pieces_mark _ h hk, afterMark, afterLineEnd_skip hafter, ih]

theorem cut_exists (m : Marker) (opener : Option Kind) (rest : Text) : Cut m opener rest (pieces m opener rest) := by
  induction rest using scan_induction (m := m) generalizing opener with
  | noMark rest hno =>
      rw [pieces_noMark opener hno]
      exact .uncut hno
  | last rest p hfirst =>
      rw [pieces_end opener hfirst]
      exact .ended hfirst
  | next rest p k hfirst hE ih =>
      rw [pieces_mark opener hfirst hE]
      exact .token hfirst hE (afterLineEnd_exists _) (ih (some k))

theorem phaseOf_after {k : Kind} (hk : k ≠ .End) (phase : Phase) : phaseAfter k phase = phaseOf (some k) := by
  cases k with
  | End => exact absurd rfl hk
  | Error | OutEnd | ValEnd | Backtrace => rfl

theorem phaseOf_inj {j k : Kind} (hj : j ≠ .End) (hk : phaseOf (some k) ≠ .Stdout) :
    phaseOf (some j) = phaseOf (some k) ↔ j = k := by
  revert hj hk
  cases j <;> cases k <;> decide

theorem slice_record (phase phase' : Phase) (seg : Text) (r : ExtractedOutput) :
    slice phase (record phase' seg r) = if phase' = phase then appendSegment (slice phase r) seg else slice phase r := by
  cases phase <;> cases phase' <;> rfl

@[simp] theorem slice_foundEnd (phase : Phase) (r : ExtractedOutput) (b : Bool) :
    slice phase { r with foundEnd := b } = slice phase r := by
  cases phase <;> rfl

@[simp] theorem slice_marked (phase : Phase) (r : ExtractedOutput) (k : Kind) :
    slice phase (if k = .Error then { r with juliaError := true } else r) = slice phase r := by
  split
  · cases phase <;> rfl
  · rfl

@[simp] theorem slice_begin (phase : Phase) : slice phase { foundBegin := true } = [] := by
  cases phase <;> rfl

theorem text_record (phase : Phase) (seg : Text) (r : ExtractedOutput) :
    (record phase seg r).text = appendSegment r.text seg := by
  cases phase <;> rfl

/-- The loop's result, slice by slice: the pieces recorded in its phase. -/
theorem slice_extractFrom (m : Marker) (opener : Option Kind) (r : ExtractedOutput) (rest : Text) (phase : Phase) :
    slice phase (extractFrom m (phaseOf opener) r rest) =
      assemble (slice phase r) ((pieces m opener rest).filter (phaseOf ·.opener = phase)) := by
  induction rest using scan_induction (m := m) generalizing opener r with
  | noMark rest hno =>
      rw [extractFrom_noMark _ _ hno, pieces_noMark opener hno, slice_record]
      by_cases hp : phaseOf opener = phase
      · simp [assemble, hp]
      · simp [assemble, hp]
  | last rest p hfirst =>
      rw [extractFrom_end _ _ hfirst, pieces_end opener hfirst, slice_foundEnd, slice_record]
      by_cases hp : phaseOf opener = phase
      · simp [assemble, hp]
      · simp [assemble, hp]
  | next rest p k hfirst hE ih =>
      rw [extractFrom_mark _ _ hfirst hE, pieces_mark opener hfirst hE, phaseOf_after hE, ih, slice_marked, slice_record]
      by_cases hp : phaseOf opener = phase
      · simp [assemble, hp]
      · simp [assemble, hp]

theorem text_extractFrom (m : Marker) (opener : Option Kind) (r : ExtractedOutput) (rest : Text) :
    (extractFrom m (phaseOf opener) r rest).text = assemble r.text (pieces m opener rest) := by
  induction rest using scan_induction (m := m) generalizing opener r with
  | noMark rest hno =>
      rw [extractFrom_noMark _ _ hno, pieces_noMark opener hno, text_record]
      rfl
  | last rest p hfirst =>
      rw [extractFrom_end _ _ hfirst, pieces_end opener hfirst]
      exact text_record _ _ _
  | next rest p k hfirst hE ih =>
      have herr : (if k = .Error then { record (phaseOf opener) (rest.take p) r with juliaError := true }
          else record (phaseOf opener) (rest.take p) r).text = appendSegment r.text (rest.take p) := by
        split <;> exact text_record _ _ _
      rw [extractFrom_mark _ _ hfirst hE, pieces_mark opener hfirst hE, phaseOf_after hE, ih, herr]
      rfl

/-- A token opens every piece but the first. -/
theorem pieces_cons (m : Marker) (opener : Option Kind) (rest : Text) :
    ∃ t ps, pieces m opener rest = ⟨opener, t⟩ :: ps ∧ ∀ p ∈ ps, ∃ k, k ≠ .End ∧ p.opener = some k := by
  induction rest using scan_induction (m := m) generalizing opener with
  | noMark rest hno => exact ⟨rest, [], pieces_noMark opener hno, fun p hp => absurd hp List.not_mem_nil⟩
  | last rest p hfirst => exact ⟨rest.take p, [], pieces_end opener hfirst, fun p hp => absurd hp List.not_mem_nil⟩
  | next rest p k hfirst hE ih =>
      obtain ⟨t, ps, hps, hall⟩ := ih (some k)
      refine ⟨rest.take p, _, pieces_mark opener hfirst hE, fun q hq => ?_⟩
      rw [hps] at hq
      rcases List.mem_cons.mp hq with rfl | hq
      · exact ⟨k, hE, rfl⟩
      · exact hall q hq

theorem appendSegment_length {out seg : Text} (h : markerSegmentText seg ≠ []) :
    out.length < (appendSegment out seg).length := by
  have hpos := List.length_pos_iff.mpr h
  simp only [appendSegment, if_neg h, List.length_append]
  split
  · rw [List.length_append]
    omega
  · omega

theorem appendSegment_silent {out seg : Text} (h : markerSegmentText seg = []) : appendSegment out seg = out := by
  rw [appendSegment, if_pos h]

theorem assemble_le (out : Text) (ps : List Piece) : out.length ≤ (assemble out ps).length := by
  induction ps generalizing out with
  | nil => exact Nat.le_refl _
  | cons p ps ih =>
      refine le_trans ?_ (ih (appendSegment out p.text))
      by_cases h : markerSegmentText p.text = []
      · rw [appendSegment_silent h]
      · exact Nat.le_of_lt (appendSegment_length h)

/-- Pieces leave a slice alone exactly when none of them has text. -/
theorem assemble_eq_self {out : Text} {ps : List Piece} :
    assemble out ps = out ↔ ∀ p ∈ ps, markerSegmentText p.text = [] := by
  induction ps generalizing out with
  | nil => simp [assemble]
  | cons p ps ih =>
      change assemble (appendSegment out p.text) ps = out ↔ _
      rw [List.forall_mem_cons]
      by_cases h : markerSegmentText p.text = []
      · rw [appendSegment_silent h, ih]
        exact (and_iff_right h).symm
      · refine iff_of_false (fun heq => ?_) fun hall => h hall.1
        have hlt : out.length < (assemble (appendSegment out p.text) ps).length :=
          (appendSegment_length h).trans_le (assemble_le _ ps)
        rw [heq] at hlt
        exact Nat.lt_irrefl _ hlt

section

variable {ps : List Piece} (hps : ∀ p ∈ ps, ∃ k, k ≠ .End ∧ p.opener = some k) (t : Text)
include hps

theorem printed_cons : printed (⟨none, t⟩ :: ps) = [⟨none, t⟩] := by
  have hrest : (ps.takeWhile fun p => p.opener ≠ some .OutEnd ∧ p.opener ≠ some .Error).filter
      (fun p => p.opener ≠ some .ValEnd ∧ p.opener ≠ some .Backtrace) = [] := by
    rw [List.filter_eq_nil_iff]
    intro p hp
    obtain ⟨k, hk, hopen⟩ := hps p ((List.takeWhile_prefix _).subset hp)
    have hin := List.mem_takeWhile_imp hp
    rw [hopen] at hin ⊢
    cases k with
    | End => exact absurd rfl hk
    | Error | OutEnd => simp at hin
    | ValEnd | Backtrace => simp
  rw [printed, List.takeWhile_cons_of_pos (by simp), List.filter_cons_of_pos (by simp), hrest]

theorem recorded_stdout :
    (⟨none, t⟩ :: ps : List Piece).filter (phaseOf ·.opener = .Stdout) = ⟨none, t⟩ :: opened .ValEnd ps := by
  rw [List.filter_cons_of_pos (by rfl), opened]
  congr 1
  refine List.filter_congr fun p hp => ?_
  obtain ⟨k, hk, hopen⟩ := hps p hp
  rw [hopen]
  cases k with
  | End => exact absurd rfl hk
  | Error | OutEnd | ValEnd | Backtrace => rfl

theorem recorded_opened {k : Kind} (hs : phaseOf (some k) ≠ .Stdout) :
    (⟨none, t⟩ :: ps : List Piece).filter (phaseOf ·.opener = phaseOf (some k)) = opened k (⟨none, t⟩ :: ps) := by
  refine List.filter_congr fun p hp => ?_
  rcases List.mem_cons.mp hp with rfl | hp
  · have hfirst : phaseOf none ≠ phaseOf (some k) := Ne.symm hs
    simp [hfirst]
  · obtain ⟨j, hj, hopen⟩ := hps p hp
    simp only [hopen, phaseOf_inj hj hs, Option.some.injEq]

end

section

variable {m : Marker} {capture payload : Text}

theorem stdoutText_iff (h : findMarkerLinePayloadStart capture m.beginMark = some payload) :
    (extractBetweenMarkers capture m).stdoutText = assemble [] (printed (pieces m none payload)) ↔
      ∀ p ∈ pieces m none payload, p.opener = some .ValEnd → markerSegmentText p.text = [] := by
  obtain ⟨t, ps, hcut, hps⟩ := pieces_cons m none payload
  have hslice := slice_extractFrom m none { foundBegin := true } payload .Stdout
  rw [hcut, recorded_stdout hps] at hslice
  rw [extract_eq, h, hcut, printed_cons hps]
  change (extractFrom m .Stdout _ payload).stdoutText = _ at hslice
  dsimp only
  rw [hslice]
  change assemble (appendSegment [] t) (opened .ValEnd ps) = appendSegment [] t ↔ _
  rw [assemble_eq_self]
  simp [opened]

theorem opened_slice (h : findMarkerLinePayloadStart capture m.beginMark = some payload) {k : Kind}
    (hs : phaseOf (some k) ≠ .Stdout) :
    slice (phaseOf (some k)) (extractBetweenMarkers capture m) = together (opened k (pieces m none payload)) := by
  obtain ⟨t, ps, hcut, hps⟩ := pieces_cons m none payload
  have hslice := slice_extractFrom m none { foundBegin := true } payload (phaseOf (some k))
  rw [hcut, recorded_opened hps t hs, slice_begin, assemble_eq] at hslice
  rw [extract_eq, h, hcut]
  exact hslice

/-- The slices hold what belongs to them exactly when no text follows VAL_END
before the next token: the loop counts such text as stdout again. -/
theorem attributed_iff {ps : List Piece} (h : BeginLine m capture payload) (hps : Cut m none payload ps) :
    Attributed ps (extractBetweenMarkers capture m) ↔
      ∀ p ∈ ps, p.opener = some .ValEnd → cleaned p.text = [] := by
  obtain rfl := cut_eq hps
  have hstdout := stdoutText_iff h.payload
  simp only [assemble_eq, markerSegmentText_eq] at hstdout
  rw [← hstdout]
  constructor
  · exact fun hall => hall.stdoutText
  · intro hout
    exact ⟨hout, opened_slice (k := .OutEnd) h.payload (by decide), opened_slice (k := .Error) h.payload (by decide),
      opened_slice (k := .Backtrace) h.payload (by decide)⟩

def valuePayload : Text := lit "hi\n__JJMCP_OUT_END_1__\n42\n__JJMCP_VAL_END_1__\n__JJMCP_END_1__\n"

def latePayload : Text := lit "hi\n__JJMCP_OUT_END_1__\n42\n__JJMCP_VAL_END_1__\nlate\n__JJMCP_END_1__\n"

theorem beginLine_first (payload : Text) :
    BeginLine (makeMarker (lit "1")) (lit "__JJMCP_BEGIN_1__" ++ nl :: payload) payload :=
  ⟨[], lit "__JJMCP_BEGIN_1__", terminated_nil, by simp [closedLines], by decide, by decide, .inl rfl⟩

theorem attributed_value :
    Attributed (pieces (makeMarker (lit "1")) none valuePayload)
      (extractBetweenMarkers (lit "__JJMCP_BEGIN_1__" ++ nl :: valuePayload) (makeMarker (lit "1"))) :=
  (attributed_iff (beginLine_first valuePayload) (cut_exists _ _ _)).mpr (by decide +kernel)

/-- A background task prints between VAL_END and END: its line is added to stdout. -/
theorem not_attributed :
    ¬ ∀ (m : Marker) (capture payload : Text) (ps : List Piece), BeginLine m capture payload → Cut m none payload ps →
      Attributed ps (extractBetweenMarkers capture m) := by
  intro h
  have hall := (h _ _ _ _ (beginLine_first latePayload) (cut_exists _ _ _)).stdoutText
  rw [← assemble_eq, stdoutText_iff (beginLine_first latePayload).payload] at hall
  exact absurd hall (by decide +kernel)

end

end JJMCP.Slices
