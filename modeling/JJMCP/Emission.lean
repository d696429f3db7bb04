import JJMCP.SegmentText

namespace JJMCP

inductive LineEnd
  | lf | crlf
  deriving DecidableEq, Repr

/-- What run_command prints between BEGIN and END: a normal return, an
exception of the user's code, or an exception while the value was shown. -/
inductive Emission
  | value (stdout value : Text)
  | error (stdout message backtrace : Text)
  | partialValue (stdout value message backtrace : Text)
  deriving DecidableEq, Repr

/-- One evaluation in the pane. Every marker kind occurs at most once in it,
so a line end for each kind is a line end for each marker. -/
structure Block where
  id : Text
  emission : Emission
  beginEnd : LineEnd
  lineEnd : Kind → LineEnd

end JJMCP

namespace JJMCP.Emission

open Lib.Occurrence Lib.Lines Text Marker Extract

def lineEndText : LineEnd → Text
  | .lf => [nl]
  | .crlf => [cr, nl]

def parts : Emission → List (Text × Kind)
  | .value s v => [(s, .OutEnd), (v, .ValEnd), ([], .End)]
  | .error s e b => [(s, .Error), (e, .Backtrace), (b, .End)]
  | .partialValue s v e b => [(s, .OutEnd), (v, .Error), (e, .Backtrace), (b, .End)]

def stdout : Emission → Text
  | .value s _ | .error s _ _ | .partialValue s _ _ _ => s

def valueRepr : Emission → Text
  | .value _ v | .partialValue _ v _ _ => v
  | .error _ _ _ => []

def errorMessage : Emission → Text
  | .error _ e _ | .partialValue _ _ e _ => e
  | .value _ _ => []

def backtrace : Emission → Text
  | .error _ _ b | .partialValue _ _ _ b => b
  | .value _ _ => []

def threw : Emission → Bool
  | .value _ _ => false
  | .error _ _ _ | .partialValue _ _ _ _ => true

def renderParts (m : Marker) (lineEnd : Kind → LineEnd) (ps : List (Text × Kind)) : Text :=
  ps.flatMap (fun p => p.1 ++ (m.mark p.2 ++ lineEndText (lineEnd p.2)))

def marker (b : Block) : Marker := makeMarker b.id

def segments (b : Block) : List Text := (parts b.emission).map Prod.fst

def render (b : Block) : Text :=
  (marker b).beginMark ++ (lineEndText b.beginEnd ++ renderParts (marker b) b.lineEnd (parts b.emission))

def paneText (items : List (Text × Block)) (last : Text) : Text :=
  items.flatMap (fun x => x.1 ++ render x.2) ++ last

/-- The extraction gives the segments back, without carriage returns and one
closing newline each, and nothing where the shape has no segment. -/
def Reproduces (b : Block) (e : ExtractedOutput) : Prop :=
  e.foundBegin = true ∧ e.foundEnd = true ∧ e.juliaError = threw b.emission ∧
    e.stdoutText = cleaned (stdout b.emission) ∧ e.valueRepr = cleaned (valueRepr b.emission) ∧
    e.errorMessage = cleaned (errorMessage b.emission) ∧ e.backtrace = cleaned (backtrace b.emission)

instance (b : Block) (e : ExtractedOutput) : Decidable (Reproduces b e) :=
  inferInstanceAs (Decidable (_ ∧ _))

/-- What the extraction makes of an emission. -/
def extracted (e : Emission) : ExtractedOutput where
  foundBegin := true
  foundEnd := true
  juliaError := threw e
  text := ((parts e).map Prod.fst).foldl appendSegment []
  stdoutText := markerSegmentText (stdout e)
  valueRepr := markerSegmentText (valueRepr e)
  errorMessage := markerSegmentText (errorMessage e)
  backtrace := markerSegmentText (backtrace e)

/-- What an emission says, whatever reads it. -/
def content (e : Emission) : ExtractedOutput where
  foundBegin := true
  foundEnd := true
  juliaError := threw e
  text := gathered ((parts e).map Prod.fst)
  stdoutText := cleaned (stdout e)
  valueRepr := cleaned (valueRepr e)
  errorMessage := cleaned (errorMessage e)
  backtrace := cleaned (backtrace e)

def Digits (t : Text) : Prop := t ≠ [] ∧ ∀ c ∈ t, 48 ≤ c ∧ c ≤ 57

/-- The form of the ids that make_marker_id issues. -/
def GeneratorForm (id : Text) : Prop :=
  ∃ a b c, Digits a ∧ Digits b ∧ Digits c ∧ id = a ++ lit "_" ++ b ++ lit "_" ++ c

def NoBeginLine (m : Marker) (t : Text) : Prop := ∀ l ∈ closedLines nl [] t, trimAscii l ≠ m.beginMark

instance (t : Text) : Decidable (Digits t) := @instDecidableAnd _ _ _ (t.decidableBAll _)

instance (m : Marker) (t : Text) : Decidable (NoBeginLine m t) :=
  inferInstanceAs (Decidable (∀ l ∈ closedLines nl [] t, trimAscii l ≠ m.beginMark))

theorem digits_decimal (n : Nat) : Digits (decimal n) := by
  refine ⟨?_, fun c hc => decimal_digit hc⟩
  rw [decimal, ne_eq, List.map_eq_nil_iff]
  exact Nat.toDigits_ne_nil

theorem generatorForm_makeMarkerId (micros pid sequence : Nat) : GeneratorForm (makeMarkerId micros pid sequence) :=
  ⟨_, _, _, digits_decimal micros, digits_decimal pid, digits_decimal sequence, rfl⟩

theorem digits_notMem {t : Text} (h : Digits t) {c : UInt8} (hc : ¬ (48 ≤ c ∧ c ≤ 57)) : c ∉ t :=
  fun hm => hc (h.2 c hm)

theorem generatorForm_noJ {id : Text} (h : GeneratorForm id) : 74 ∉ id := by
  obtain ⟨a, b, c, ha, hb, hc, rfl⟩ := h
  have hJ : ¬ ((48 : UInt8) ≤ 74 ∧ (74 : UInt8) ≤ 57) := by decide
  have hu : (74 : UInt8) ∉ lit "_" := by decide
  simp only [List.mem_append, not_or]
  exact ⟨⟨⟨⟨digits_notMem ha hJ, hu⟩, digits_notMem hb hJ⟩, hu⟩, digits_notMem hc hJ⟩

theorem prefix_sep {α : Type} {sep : α} {a b r s : List α} (ha : sep ∉ a) (hb : sep ∉ b)
    (h : a ++ sep :: r <+: b ++ sep :: s) : a = b ∧ r <+: s := by
  induction a generalizing b with
  | nil =>
      cases b with
      | nil => exact ⟨rfl, by simpa using h⟩
      | cons y ys =>
          obtain ⟨he, _⟩ := List.cons_prefix_cons.mp h
          exact absurd (by simp [he]) hb
  | cons x xs ih =>
      have hxs : sep ∉ xs := fun hm => ha (by simp [hm])
      cases b with
      | nil =>
          obtain ⟨he, _⟩ := List.cons_prefix_cons.mp h
          exact absurd (by simp [he]) ha
      | cons y ys =>
          obtain ⟨rfl, ht⟩ := List.cons_prefix_cons.mp h
          obtain ⟨rfl, hr⟩ := ih hxs (fun hm => hb (by simp [hm])) ht
          exact ⟨rfl, hr⟩

/-- Ids of the generator's form are told apart by their digits before the
closing underscores, so none is a proper beginning of another. -/
theorem generatorForm_isPrefix {i j : Text} (hi : GeneratorForm i) (hj : GeneratorForm j)
    (h : i ++ lit "__" <+: j ++ lit "__") : i = j := by
  obtain ⟨a, b, c, ha, hb, hc, rfl⟩ := hi
  obtain ⟨a', b', c', ha', hb', hc', rfl⟩ := hj
  have hn : ¬ ((48 : UInt8) ≤ 95 ∧ (95 : UInt8) ≤ 57) := by decide
  have hu : lit "_" = [95] := by decide
  have huu : lit "__" = [95, 95] := by decide
  rw [hu, huu] at h
  simp only [List.append_assoc, List.cons_append, List.nil_append] at h
  obtain ⟨haa, h1⟩ := prefix_sep (digits_notMem ha hn) (digits_notMem ha' hn) h
  obtain ⟨hbb, h2⟩ := prefix_sep (digits_notMem hb hn) (digits_notMem hb' hn) h1
  obtain ⟨hcc, _⟩ := prefix_sep (digits_notMem hc hn) (digits_notMem hc' hn) h2
  rw [haa, hbb, hcc]

theorem beginMark_getElem?_J {m : Marker} (hJ : 74 ∉ m.id) {i : Nat}
    (h : m.beginMark[i]? = some 74) : i = 2 ∨ i = 3 := by
  obtain ⟨hi, hs⟩ := getElem?_J hJ h
  have h14 : (lit "__JJMCP_BEGIN_").length = 14 := by decide
  rw [h14] at hi
  revert hs
  interval_cases i <;> decide

/-- A string that opens as the markers do can stand only at the front of a BEGIN string. -/
theorem prefix_of_infix_beginMark {m : Marker} (hJ : 74 ∉ m.id) {pat : Text}
    (h1 : pat[1]? = some 95) (h2 : pat[2]? = some 74) (h : pat <:+: m.beginMark) :
    pat <+: m.beginMark := by
  obtain ⟨p, hp⟩ := infix_iff_at.mp h
  have hl : 2 < pat.length := (List.getElem?_eq_some_iff.mp h2).1
  have hJ2 := beginMark_getElem?_J hJ ((hp.getElem? hl).trans h2)
  have h95 := (hp.getElem? (i := 1) (by omega)).trans h1
  have hp1 : p = 0 ∨ p = 1 := by omega
  rcases hp1 with rfl | rfl
  · simpa [At] using hp
  · rw [show m.beginMark[1 + 1]? = some 74 from rfl] at h95
    exact absurd h95 (by decide)

theorem mark_not_infix_other_begin {i j : Marker} (hj : GeneratorForm j.id) (k : Kind) :
    ¬ i.mark k <:+: j.beginMark := by
  intro h
  have hp := prefix_of_infix_beginMark (generatorForm_noJ hj) (mark_second i k).1 (mark_second i k).2 h
  have ht : (j.beginMark.take 10) = (i.mark k).take 10 := by
    obtain ⟨r, hr⟩ := hp
    rw [← hr, List.take_append_of_le_length (ten_le_mark_length i k)]
  rw [mark_take, show j.beginMark.take 10 = (lit "__JJMCP_BEGIN_").take 10 from rfl] at ht
  revert ht
  cases k <;> decide

theorem begin_not_infix_other_begin {i j : Marker} (hi : GeneratorForm i.id) (hj : GeneratorForm j.id)
    (hne : i.id ≠ j.id) : ¬ i.beginMark <:+: j.beginMark := by
  intro h
  have hp := prefix_of_infix_beginMark (generatorForm_noJ hj) rfl rfl h
  rw [beginMark, beginMark, List.append_assoc, List.append_assoc] at hp
  exact hne (generatorForm_isPrefix hi hj ((List.prefix_append_right_inj _).mp hp))

theorem noBeginLine_append {m : Marker} {a b : Text} (ht : Terminated nl a) (ha : NoBeginLine m a)
    (hb : NoBeginLine m b) : NoBeginLine m (a ++ b) := by
  intro l hl
  rw [closedLines_append_terminated b ht, List.mem_append] at hl
  rcases hl with hl | hl
  · exact ha l hl
  · exact hb l hl

theorem mem_closedLines_glued {tail : Text} (htail : nl ∉ tail) (seg line l : Text)
    (h : l ∈ closedLines nl line (seg ++ (tail ++ [nl]))) :
    l ∈ closedLines nl line seg ∨ ∃ x, l = x ++ tail := by
  induction seg generalizing line with
  | nil =>
      refine .inr ⟨line, ?_⟩
      rw [List.nil_append, closedLines_line htail] at h
      simpa using h
  | cons c cs ih =>
      by_cases hc : c = nl
      · simp only [List.cons_append, closedLines, hc, if_true, List.mem_cons] at h ⊢
        rcases h with rfl | h
        · exact .inl (.inl rfl)
        · rcases ih [] h with h | h
          · exact .inl (.inr h)
          · exact .inr h
      · simp only [List.cons_append, closedLines, hc, if_false] at h ⊢
        exact ih _ h

theorem noBeginLine_glued {m : Marker} {seg w : Text} (e : LineEnd) (hw : ∃ s, w = 95 :: s ++ [95])
    (hnl : nl ∉ w) (hin : ¬ w <:+: m.beginMark) (hseg : NoBeginLine m seg) :
    NoBeginLine m (seg ++ (w ++ lineEndText e)) := by
  have hsuffix : ∀ x : Text, trimAscii (x ++ w) ≠ m.beginMark := by
    intro x he
    obtain ⟨s, rfl⟩ := hw
    have h95 : isBlank 95 = false := by decide
    exact hin (he ▸ (suffix_trimAscii h95 h95 x s).isInfix)
  intro l hl
  cases e with
  | lf =>
      rcases mem_closedLines_glued hnl seg [] l hl with h | ⟨x, rfl⟩
      · exact hseg l h
      · exact hsuffix x
  | crlf =>
      have hcr : nl ∉ w ++ [cr] := by
        simp only [List.mem_append, List.mem_singleton, not_or]
        exact ⟨hnl, by decide⟩
      have he : seg ++ (w ++ lineEndText .crlf) = seg ++ ((w ++ [cr]) ++ [nl]) := by simp [lineEndText]
      rw [he] at hl
      rcases mem_closedLines_glued hcr seg [] l hl with h | ⟨x, rfl⟩
      · exact hseg l h
      · rw [← List.append_assoc, trimAscii_concat_blank (by decide)]
        exact hsuffix x

theorem terminated_glued (seg w : Text) (e : LineEnd) : Terminated nl (seg ++ (w ++ lineEndText e)) := by
  cases e with
  | lf => exact .inr ⟨seg ++ w, by simp [lineEndText]⟩
  | crlf => exact .inr ⟨seg ++ w ++ [cr], by simp [lineEndText]⟩

theorem terminated_renderParts (m : Marker) (le : Kind → LineEnd) (ps : List (Text × Kind)) :
    Terminated nl (renderParts m le ps) := by
  induction ps with
  | nil => exact terminated_nil
  | cons p ps ih => exact (terminated_glued p.1 (m.mark p.2) (le p.2)).append ih

theorem generatorForm_oneLine {m : Marker} (h : GeneratorForm m.id) : m.OneLine := by
  obtain ⟨a, b, c, ha, hb, hc, hid⟩ := h
  have hn : ¬ ((48 : UInt8) ≤ nl ∧ nl ≤ 57) := by decide
  have hu : nl ∉ lit "_" := by decide
  rw [OneLine, hid]
  simp only [List.mem_append, not_or]
  exact ⟨⟨⟨⟨digits_notMem ha hn, hu⟩, digits_notMem hb hn⟩, hu⟩, digits_notMem hc hn⟩

theorem noBeginLine_renderParts {i j : Marker} (hi : i.OneLine) (hj : GeneratorForm j.id)
    (le : Kind → LineEnd) (ps : List (Text × Kind)) (h : ∀ p ∈ ps, NoBeginLine j p.1) :
    NoBeginLine j (renderParts i le ps) := by
  induction ps with
  | nil => exact fun l hl => absurd hl List.not_mem_nil
  | cons p ps ih =>
      refine noBeginLine_append (terminated_glued _ _ _) ?_ (ih fun q hq => h q (by simp [hq]))
      exact noBeginLine_glued (le p.2) (mark_solid i p.2) (nl_notMem_mark hi p.2)
        (mark_not_infix_other_begin hj p.2) (h p (by simp))

theorem terminated_beginLine (b : Block) : Terminated nl ((marker b).beginMark ++ lineEndText b.beginEnd) :=
  terminated_glued [] (marker b).beginMark b.beginEnd

theorem terminated_render (b : Block) : Terminated nl (render b) := by
  rw [render, ← List.append_assoc]
  exact (terminated_beginLine b).append (terminated_renderParts _ _ _)

theorem noBeginLine_render {b : Block} {j : Marker} (hb : GeneratorForm b.id) (hj : GeneratorForm j.id)
    (hne : b.id ≠ j.id) (h : ∀ s ∈ segments b, NoBeginLine j s) : NoBeginLine j (render b) := by
  have hone : (marker b).OneLine := generatorForm_oneLine hb
  rw [render, ← List.append_assoc]
  refine noBeginLine_append (terminated_beginLine b) ?_ ?_
  · have hnil : NoBeginLine j [] := fun l hl => absurd hl List.not_mem_nil
    exact noBeginLine_glued b.beginEnd (beginMark_solid _) (nl_notMem_beginMark.mpr hone)
      (begin_not_infix_other_begin hb hj hne) hnil
  · refine noBeginLine_renderParts hone hj _ _ fun p hp => h p.1 ?_
    exact List.mem_map_of_mem hp

theorem skip_lineEnd (e : LineEnd) (rest : Text) : skipMarkerLineEnding (lineEndText e ++ rest) = rest := by
  cases e <;> simp [lineEndText, skipMarkerLineEnding, nl, cr]

theorem afterMark_part (m : Marker) (seg : Text) (k : Kind) (e : LineEnd) (rest : Text) :
    afterMark m (seg ++ (m.mark k ++ (lineEndText e ++ rest))) seg.length k = rest := by
  rw [afterMark, ← List.drop_drop, List.drop_left, List.drop_left, skip_lineEnd]

theorem findPayload_begin (m : Marker) (hm : m.OneLine) (e : LineEnd) (rest : Text) :
    findMarkerLinePayloadStart (m.beginMark ++ (lineEndText e ++ rest)) m.beginMark = some rest := by
  have hb := nl_notMem_beginMark.mpr hm
  cases e with
  | lf =>
      have h := findPayload_line m.beginMark [] m.beginMark rest hb
      rw [List.nil_append, trimAscii_beginMark, if_pos rfl] at h
      exact h
  | crlf =>
      have hcr : nl ∉ m.beginMark ++ [cr] := by
        simp only [List.mem_append, List.mem_singleton, not_or]
        exact ⟨hb, by decide⟩
      have h := findPayload_line m.beginMark [] (m.beginMark ++ [cr]) rest hcr
      rw [List.nil_append, trimAscii_concat_blank (by decide), trimAscii_beginMark, if_pos rfl] at h
      rw [← h]
      simp [findMarkerLinePayloadStart, lineEndText]

section Parts

variable {m : Marker} (hJ : 74 ∉ m.id)
include hJ

theorem firstMark_part {seg : Text} (hseg : MarkFree m seg) (k : Kind) (rest : Text) :
    FirstMark m (seg ++ (m.mark k ++ rest)) seg.length k := by
  exact ⟨at_length _ _ _, fun j q hq => segment_le_at hJ hseg hq⟩

/-- One turn of the extraction loop consumes a segment, its marker and the line end. -/
theorem extractFrom_part {seg : Text} (hseg : MarkFree m seg) (phase : Phase) (r : ExtractedOutput)
    {k : Kind} (hk : k ≠ .End) (e : LineEnd) (rest : Text) :
    extractFrom m phase r (seg ++ (m.mark k ++ (lineEndText e ++ rest))) =
      extractFrom m (phaseAfter k phase)
        (if k = .Error then { record phase seg r with juliaError := true } else record phase seg r) rest := by
  have hfirst := firstMark_part hJ hseg k (lineEndText e ++ rest)
  rw [extractFrom_mark phase r hfirst hk, List.take_left, afterMark_part]

theorem extractFrom_lastPart {seg : Text} (hseg : MarkFree m seg) (phase : Phase) (r : ExtractedOutput)
    (rest : Text) :
    extractFrom m phase r (seg ++ (m.mark .End ++ rest)) = { record phase seg r with foundEnd := true } := by
  rw [extractFrom_end phase r (firstMark_part hJ hseg .End rest), List.take_left]

end Parts

theorem renderParts_cons (m : Marker) (le : Kind → LineEnd) (p : Text × Kind) (ps : List (Text × Kind))
    (rest : Text) :
    renderParts m le (p :: ps) ++ rest =
      p.1 ++ (m.mark p.2 ++ (lineEndText (le p.2) ++ (renderParts m le ps ++ rest))) := by
  simp [renderParts]

theorem extractFrom_block {b : Block} (hb : GeneratorForm b.id) (hseg : ∀ s ∈ segments b, MarkFree (marker b) s)
    (rest : Text) :
    extractFrom (marker b) .Stdout { foundBegin := true }
      (renderParts (marker b) b.lineEnd (parts b.emission) ++ rest) = extracted b.emission := by
  have hJ : 74 ∉ (marker b).id := generatorForm_noJ hb
  obtain ⟨id, emission, be, le⟩ := b
  cases emission with
  | value s v =>
      simp only [segments, parts, List.map_cons, List.map_nil, List.forall_mem_cons] at hseg
      obtain ⟨hs, hv, hn, _⟩ := hseg
      simp only [parts, renderParts_cons]
      rw [extractFrom_part hJ hs _ _ (by decide), extractFrom_part hJ hv _ _ (by decide),
        extractFrom_lastPart hJ hn]
      simp [extracted, parts, record, phaseAfter, threw, stdout, valueRepr, errorMessage, backtrace,
        appendSegment_nil_left, markerSegmentText_nil]
  | error s e bt =>
      simp only [segments, parts, List.map_cons, List.map_nil, List.forall_mem_cons] at hseg
      obtain ⟨hs, he, hbt, _⟩ := hseg
      simp only [parts, renderParts_cons]
      rw [extractFrom_part hJ hs _ _ (by decide), extractFrom_part hJ he _ _ (by decide),
        extractFrom_lastPart hJ hbt]
      simp [extracted, parts, record, phaseAfter, threw, stdout, valueRepr, errorMessage, backtrace,
        appendSegment_nil_left, markerSegmentText_nil]
  | partialValue s v e bt =>
      simp only [segments, parts, List.map_cons, List.map_nil, List.forall_mem_cons] at hseg
      obtain ⟨hs, hv, he, hbt, _⟩ := hseg
      simp only [parts, renderParts_cons]
      rw [extractFrom_part hJ hs _ _ (by decide), extractFrom_part hJ hv _ _ (by decide),
        extractFrom_part hJ he _ _ (by decide), extractFrom_lastPart hJ hbt]
      simp [extracted, parts, record, phaseAfter, threw, stdout, valueRepr, errorMessage, backtrace,
        appendSegment_nil_left]

theorem extract_block {b : Block} (hb : GeneratorForm b.id) (hseg : ∀ s ∈ segments b, MarkFree (marker b) s)
    {before : Text} (hterm : Terminated nl before) (hquiet : NoBeginLine (marker b) before) (rest : Text) :
    extractBetweenMarkers (before ++ render b ++ rest) (marker b) = extracted b.emission := by
  have hpane : before ++ render b ++ rest = before ++ ((marker b).beginMark ++ (lineEndText b.beginEnd ++
      (renderParts (marker b) b.lineEnd (parts b.emission) ++ rest))) := by
    simp [render]
  rw [hpane, extract_eq, findPayload_append _ hterm hquiet, findPayload_begin _ (generatorForm_oneLine hb)]
  exact extractFrom_block hb hseg _

theorem extracted_eq (e : Emission) : extracted e = content e := by
  simp only [extracted, content, foldl_appendSegment, markerSegmentText_eq]

theorem reproduces_extracted (b : Block) : Reproduces b (extracted b.emission) := by
  rw [extracted_eq]
  exact ⟨rfl, rfl, rfl, rfl, rfl, rfl, rfl⟩

theorem terminated_items (items : List (Text × Block)) (h : ∀ x ∈ items, Terminated nl x.1) :
    Terminated nl (items.flatMap (fun x => x.1 ++ render x.2)) := by
  induction items with
  | nil => exact terminated_nil
  | cons x xs ih =>
      exact ((h x (by simp)).append (terminated_render x.2)).append (ih fun y hy => h y (by simp [hy]))

theorem noBeginLine_items {j : Marker} (hj : GeneratorForm j.id) (items : List (Text × Block))
    (hstart : ∀ x ∈ items, Terminated nl x.1) (hgen : ∀ x ∈ items, GeneratorForm x.2.id)
    (hne : ∀ x ∈ items, x.2.id ≠ j.id)
    (hquiet : ∀ x ∈ items, NoBeginLine j x.1 ∧ ∀ s ∈ segments x.2, NoBeginLine j s) :
    NoBeginLine j (items.flatMap (fun x => x.1 ++ render x.2)) := by
  induction items with
  | nil => exact fun l hl => absurd hl List.not_mem_nil
  | cons x xs ih =>
      have hx := List.mem_cons_self (a := x) (l := xs)
      refine noBeginLine_append ((hstart x hx).append (terminated_render x.2)) ?_ ?_
      · exact noBeginLine_append (hstart x hx) (hquiet x hx).1
          (noBeginLine_render (hgen x hx) hj (hne x hx) (hquiet x hx).2)
      · exact ih (fun y hy => hstart y (by simp [hy])) (fun y hy => hgen y (by simp [hy]))
          (fun y hy => hne y (by simp [hy])) (fun y hy => hquiet y (by simp [hy]))

/-- Every block is read back from the pane, whatever follows it, when no line
before it imitates its BEGIN line. -/
theorem extract_reproduces_block (before : List (Text × Block)) (text : Text) (b : Block)
    (after : List (Text × Block)) (last : Text)
    (hids : ((before ++ (text, b) :: after).map (fun x => x.2.id)).Nodup)
    (hgen : ∀ x ∈ before ++ (text, b) :: after, GeneratorForm x.2.id)
    (hstart : ∀ x ∈ before ++ (text, b) :: after, Terminated nl x.1)
    (hseg : ∀ s ∈ segments b, ¬ b.id <:+: s)
    (hquiet : NoBeginLine (marker b) text ∧
      ∀ x ∈ before, NoBeginLine (marker b) x.1 ∧ ∀ s ∈ segments x.2, NoBeginLine (marker b) s) :
    Reproduces b (extractBetweenMarkers (paneText (before ++ (text, b) :: after) last) (marker b)) := by
  have hb : GeneratorForm b.id := hgen (text, b) (by simp)
  have hne : ∀ x ∈ before, x.2.id ≠ (marker b).id := by
    intro x hx he
    rw [List.map_append, List.map_cons, List.nodup_append] at hids
    exact hids.2.2 x.2.id (List.mem_map_of_mem hx) b.id (by simp) he
  have hterm : Terminated nl (before.flatMap (fun x => x.1 ++ render x.2) ++ text) :=
    (terminated_items before fun x hx => hstart x (by simp [hx])).append (hstart (text, b) (by simp))
  have hno : NoBeginLine (marker b) (before.flatMap (fun x => x.1 ++ render x.2) ++ text) :=
    noBeginLine_append (terminated_items before fun x hx => hstart x (by simp [hx]))
      (noBeginLine_items hb before (fun x hx => hstart x (by simp [hx]))
        (fun x hx => hgen x (by simp [hx])) hne hquiet.2) hquiet.1
  have hpane : paneText (before ++ (text, b) :: after) last =
      (before.flatMap (fun x => x.1 ++ render x.2) ++ text) ++ render b ++
        (after.flatMap (fun x => x.1 ++ render x.2) ++ last) := by
    simp [paneText]
  rw [hpane, extract_block hb (fun s hs => markFree_of_id (hseg s hs)) hterm hno]
  exact reproduces_extracted b

theorem extract_reproduces_second_block :
    let first : Block := ⟨lit "7_41_1", .error (lit "a") (lit "boom") (lit "at 7_41_2"), .lf, fun _ => .lf⟩
    let second : Block := ⟨lit "7_41_2", .value (lit "x __JJMCP_EN") (lit "2"), .crlf, fun _ => .crlf⟩
    Reproduces second (extractBetweenMarkers
      (paneText [(lit "julia> \n", first), (lit "__JJMCP_END_7_41_2__\n", second)] (lit "julia> "))
      (marker second)) := by
  intro first second
  refine extract_reproduces_block [(lit "julia> \n", first)] (lit "__JJMCP_END_7_41_2__\n") second []
    (lit "julia> ") (by decide) ?_ ?_ (by decide) (by decide)
  · have h7 : Digits (lit "7") := by decide
    have h41 : Digits (lit "41") := by decide
    simp only [List.nil_append, List.cons_append, List.forall_mem_cons]
    exact ⟨⟨lit "7", lit "41", lit "1", h7, h41, by decide, rfl⟩,
      ⟨lit "7", lit "41", lit "2", h7, h41, by decide, rfl⟩, by simp⟩
  · simp only [List.nil_append, List.cons_append, List.forall_mem_cons]
    exact ⟨.inr ⟨lit "julia> ", rfl⟩, .inr ⟨lit "__JJMCP_END_7_41_2__", rfl⟩, by simp⟩

/-- Without the last condition the extraction may start at an imitated BEGIN
line in the text before the block. -/
theorem not_reproduces_imitated_begin :
    ¬ ∀ (before : List (Text × Block)) (text : Text) (b : Block) (after : List (Text × Block)) (last : Text),
      ((before ++ (text, b) :: after).map (fun x => x.2.id)).Nodup →
      (∀ x ∈ before ++ (text, b) :: after, GeneratorForm x.2.id) →
      (∀ x ∈ before ++ (text, b) :: after, Terminated nl x.1) →
      (∀ s ∈ segments b, ¬ b.id <:+: s) →
      Reproduces b (extractBetweenMarkers (paneText (before ++ (text, b) :: after) last) (marker b)) := by
  intro h
  let b : Block := ⟨lit "7_41_2", .value (lit "hello") (lit "2"), .lf, fun _ => .lf⟩
  let text : Text := lit "__JJMCP_BEGIN_7_41_2__\n__JJMCP_END_7_41_2__\n"
  have hb : GeneratorForm b.id := ⟨lit "7", lit "41", lit "2", by decide, by decide, by decide, rfl⟩
  have ht : Terminated nl text := .inr ⟨lit "__JJMCP_BEGIN_7_41_2__\n__JJMCP_END_7_41_2__", rfl⟩
  have hr := h [] text b [] [] (by simp) (by simpa using hb) (by simpa using ht) (by decide)
  exact absurd hr (by decide +kernel)

end JJMCP.Emission
