import JJMCP.Compaction
import JJMCP.Routing

namespace JJMCP.CompactionRounds

open Lib.Occurrence Lib.Lines Text Marker Extract Emission Tokens Slices Truncate Poll Compaction Routing

/-- The markers between BEGIN and END: a normal return, an exception of the user's
code, one while the value is shown, and one after VAL_END. -/
def shapes : List (List Kind) :=
  [[.OutEnd, .ValEnd], [.Error, .Backtrace], [.OutEnd, .Error, .Backtrace], [.OutEnd, .ValEnd, .Error, .Backtrace]]

def Emitted (ks : List Kind) : Prop := ∃ s ∈ shapes, ks <+: s

/-- What run_command has printed before END, cut after a line: the segments that
a marker closed, and the one it is in. -/
structure Printed (m : Marker) where
  beginEnd : LineEnd
  lineEnd : Kind → LineEnd
  parts : List (Text × Kind)
  last : Text
  emitted : Emitted (parts.map Prod.snd)
  cut : Terminated nl last
  free : ∀ p ∈ parts, NoMark m p.1
  lastFree : NoMark m last

variable {m : Marker}

def Printed.payload (P : Printed m) : Text := renderParts m P.lineEnd P.parts ++ P.last

def Printed.text (P : Printed m) : Text := m.beginMark ++ (lineEndText P.beginEnd ++ P.payload)

/-- A segment makes no token with the marker that closes it, and none when its
carriage returns are gone. -/
structure Printed.Apart (P : Printed m) : Prop where
  clean : Clean m P.payload
  unsplit : ∀ p ∈ P.parts, Unsplit m p.1
  lastUnsplit : Unsplit m P.last

def compactText (m : Marker) (acc : Text) : Text :=
  (compact m { accumulator := acc, lastExtract := extractBetweenMarkers acc m }).accumulator

/-- Every text is appended to what the compaction before it left. -/
def rounds (m : Marker) (ts : List Text) : Text := ts.foldl (fun acc t => compactText m (acc ++ t)) []

/-- The tokens that a compaction writes again. -/
def kept (sawOutEnd sawValEnd sawError sawBacktrace : Bool) : List Kind :=
  if sawError then .Error :: if sawBacktrace then [.Backtrace] else []
  else if sawOutEnd then .OutEnd :: if sawValEnd then [.ValEnd] else []
  else []

def keptOf (ks : List Kind) : List Kind :=
  kept (.OutEnd ∈ ks) (.ValEnd ∈ ks) (.Error ∈ ks) (.Backtrace ∈ ks)

theorem error_mem_keptOf (ks : List Kind) : .Error ∈ keptOf ks ↔ .Error ∈ ks := by
  by_cases h : .Error ∈ ks
  · simp [keptOf, kept, h]
  · by_cases ho : .OutEnd ∈ ks <;> by_cases hv : .ValEnd ∈ ks <;> simp [keptOf, kept, h, ho, hv]

theorem emitted_iff {ks : List Kind} : Emitted ks ↔ ks ∈ shapes.flatMap List.inits := by
  simp only [Emitted, List.mem_flatMap, List.mem_inits]

/-- What a compaction leaves out, a later one does not need. -/
theorem keptOf_append {ks js : List Kind} (h : Emitted (ks ++ js)) : keptOf (keptOf ks ++ js) = keptOf (ks ++ js) := by
  have hall : ∀ l ∈ shapes.flatMap List.inits, ∀ i < l.length + 1,
      keptOf (keptOf (l.take i) ++ l.drop i) = keptOf l := by
    decide
  have hcut := hall (ks ++ js) (emitted_iff.mp h) ks.length (by rw [List.length_append]; omega)
  rwa [List.take_left, List.drop_left] at hcut

theorem phaseOf_keptOf {ks : List Kind} (h : Emitted ks) : phaseOf (keptOf ks).getLast? = phaseOf ks.getLast? := by
  have hall : ∀ l ∈ shapes.flatMap List.inits, phaseOf (keptOf l).getLast? = phaseOf l.getLast? := by
    decide
  exact hall ks (emitted_iff.mp h)

theorem Emitted.unended {ks : List Kind} (h : Emitted ks) : .End ∉ ks := by
  have hall : ∀ l ∈ shapes.flatMap List.inits, .End ∉ l := by
    decide
  exact hall ks (emitted_iff.mp h)

section

variable {le : Kind → LineEnd} {seg last : Text} {k : Kind} {ps : List (Text × Kind)}

/-- A segment ends where its marker starts. -/
theorem firstMark_glued {more : Text} (hno : NoMark m seg) (hc : Clean m (seg ++ (m.mark k ++ more))) :
    FirstMark m (seg ++ (m.mark k ++ more)) seg.length k := by
  have hat := at_length seg (m.mark k) more
  refine ⟨hat, fun j q hq => ?_⟩
  by_contra hlt
  have hle := hc j k q seg.length hq hat (by omega)
  exact hno j ((at_append_left _ hle).mp hq).isInfix

/-- The pieces of a rendered text are its segments. -/
theorem rendered_cons {p : Text × Kind} (hno : NoMark m p.1) (hc : Clean m (renderParts m le (p :: ps) ++ last)) :
    FirstMark m (renderParts m le (p :: ps) ++ last) p.1.length p.2 ∧
      afterMark m (renderParts m le (p :: ps) ++ last) p.1.length p.2 = renderParts m le ps ++ last := by
  rw [renderParts_cons] at hc ⊢
  exact ⟨firstMark_glued hno hc, afterMark_part _ _ _ _ _⟩

theorem rendered_clean {p : Text × Kind} (hno : NoMark m p.1) (hc : Clean m (renderParts m le (p :: ps) ++ last)) :
    Clean m (renderParts m le ps ++ last) := by
  obtain ⟨_, hafter⟩ := rendered_cons hno hc
  exact hafter ▸ hc.isInfix (afterMark_suffix m _ _ _).isInfix

theorem tokens_rendered (hkinds : .End ∉ ps.map Prod.snd) (hno : ∀ p ∈ ps, NoMark m p.1) (hlast : NoMark m last)
    (hc : Clean m (renderParts m le ps ++ last)) : tokens m (renderParts m le ps ++ last) = ps.map Prod.snd := by
  induction ps with
  | nil => exact tokens_noMark hlast
  | cons p ps ih =>
      obtain ⟨hp, hps⟩ := List.forall_mem_cons.mp hno
      rw [List.map_cons, List.mem_cons, not_or] at hkinds
      obtain ⟨hfirst, hafter⟩ := rendered_cons hp hc
      rw [tokens_mark hfirst (Ne.symm hkinds.1), hafter, ih hkinds.2 hps (rendered_clean hp hc), List.map_cons]

theorem unended_rendered (hkinds : .End ∉ ps.map Prod.snd) (hno : ∀ p ∈ ps, NoMark m p.1) (hlast : NoMark m last)
    (hc : Clean m (renderParts m le ps ++ last)) : ¬ m.mark .End <:+: renderParts m le ps ++ last := by
  induction ps with
  | nil => exact hlast .End
  | cons p ps ih =>
      obtain ⟨hp, hps⟩ := List.forall_mem_cons.mp hno
      rw [List.map_cons, List.mem_cons, not_or] at hkinds
      obtain ⟨hfirst, hafter⟩ := rendered_cons hp hc
      rw [(errorBeforeEnd_afterMark hc hfirst (Ne.symm hkinds.1)).1, hafter]
      exact ih hkinds.2 hps (rendered_clean hp hc)

theorem pieces_rendered (opener : Option Kind) (hkinds : .End ∉ ps.map Prod.snd) (hno : ∀ p ∈ ps, NoMark m p.1)
    (hlast : NoMark m last) (hc : Clean m (renderParts m le ps ++ last)) {P : Text → Prop} (hps : ∀ p ∈ ps, P p.1)
    (hl : P last) : ∀ p ∈ pieces m opener (renderParts m le ps ++ last), P p.text := by
  induction ps generalizing opener with
  | nil =>
      rw [show renderParts m le [] ++ last = last from rfl, pieces_noMark opener hlast]
      simpa using hl
  | cons p ps ih =>
      obtain ⟨hp, hrest⟩ := List.forall_mem_cons.mp hno
      obtain ⟨hP, hPs⟩ := List.forall_mem_cons.mp hps
      rw [List.map_cons, List.mem_cons, not_or] at hkinds
      obtain ⟨hfirst, hafter⟩ := rendered_cons hp hc
      rw [pieces_mark opener hfirst (Ne.symm hkinds.1), hafter, List.forall_mem_cons]
      refine ⟨?_, ih (some p.2) hkinds.2 hrest (rendered_clean hp hc) hPs⟩
      rw [renderParts_cons, List.take_left]
      exact hP

theorem begun_rendered (hkinds : .End ∉ ps.map Prod.snd) (hno : ∀ p ∈ ps, NoMark m p.1) (hlast : NoMark m last)
    (hterm : Terminated nl last) (hc : Clean m (renderParts m le ps ++ last)) (hu : ∀ p ∈ ps, Unsplit m p.1)
    (hul : Unsplit m last) : Begun m (ps.map Prod.snd) (renderParts m le ps ++ last) :=
  ⟨(terminated_renderParts m le ps).append hterm, hc, unended_rendered hkinds hno hlast hc,
    tokens_rendered hkinds hno hlast hc, pieces_rendered none hkinds hno hlast hc hu hul⟩

theorem Printed.Apart.begun {P : Printed m} (h : P.Apart) : Begun m (P.parts.map Prod.snd) P.payload :=
  begun_rendered P.emitted.unended P.free P.lastFree P.cut h.clean h.unsplit h.lastUnsplit

end

/-- Segments without a marker of the id make no token with the markers beside them. -/
theorem clean_markFree (hm : m.OneLine) (hJ : 74 ∉ m.id) {le : Kind → LineEnd} {last : Text} {ps : List (Text × Kind)}
    (hps : ∀ p ∈ ps, MarkFree m p.1) (hlast : NoMark m last) : Clean m (renderParts m le ps ++ last) := by
  induction ps with
  | nil => exact noMark_clean hlast
  | cons p ps ih =>
      obtain ⟨hp, hrest⟩ := List.forall_mem_cons.mp hps
      have hat : ∀ j q, At (m.mark j) (p.1 ++ (m.mark p.2 ++ lineEndText (le p.2))) q → q = p.1.length := by
        intro j q hq
        have hle := segment_le_at hJ hp hq
        rw [← Nat.add_sub_cancel' hle, at_append_right] at hq
        have hzero := at_mark_mark (at_lineEnd hq)
        omega
      have hline : Clean m (p.1 ++ (m.mark p.2 ++ lineEndText (le p.2))) := by
        intro i j q r hq hr hlt
        have hi := hat i q hq
        have hj := hat j r hr
        omega
      have hcons : renderParts m le (p :: ps) ++ last =
          (p.1 ++ (m.mark p.2 ++ lineEndText (le p.2))) ++ (renderParts m le ps ++ last) := by
        rw [renderParts_cons]
        simp
      rw [hcons]
      exact hline.append hm (terminated_glued p.1 (m.mark p.2) (le p.2)) (ih hrest)

theorem markFree_of_filter (hcr : cr ∉ m.id) {seg : Text} (h : MarkFree m (seg.filter (· ≠ cr))) :
    MarkFree m seg ∧ Unsplit m seg := by
  have hstem : ∀ k, cr ∉ stem k ++ m.id := by
    intro k
    rw [List.mem_append, not_or]
    exact ⟨by cases k <;> decide, hcr⟩
  constructor
  · intro k hk
    refine h k ?_
    have hfilter := hk.filter (· ≠ cr)
    rwa [filter_noCr (hstem k)] at hfilter
  · intro s k hs hf
    refine absurd ?_ (h k)
    have hfilter := hs.filter (· ≠ cr)
    rw [hf, mark] at hfilter
    exact (List.prefix_append _ _).isInfix.trans hfilter

/-- Segments that hold no marker of the id once their carriage returns are gone
are apart: no digit and underscore of a generated id can start a token. -/
theorem Printed.apart_of_markFree (hm : m.OneLine) (hJ : 74 ∉ m.id) (hcr : cr ∉ m.id) {P : Printed m}
    (h : ∀ p ∈ P.parts, MarkFree m (p.1.filter (· ≠ cr))) (hlast : MarkFree m (P.last.filter (· ≠ cr))) :
    P.Apart :=
  ⟨clean_markFree hm hJ (fun p hp => (markFree_of_filter hcr (h p hp)).1) P.lastFree,
    fun p hp => (markFree_of_filter hcr (h p hp)).2, (markFree_of_filter hcr hlast).2⟩

/-- A compaction writes the slices as segments that end in a line end. -/
theorem compactMarkerAccumulator_parts (hm : m.OneLine) {e : ExtractedOutput} (h : QuietSlices m e)
    (sawOutEnd sawValEnd sawError sawBacktrace : Bool) :
    ∃ ps last, compactMarkerAccumulator e m sawOutEnd sawValEnd sawError sawBacktrace false =
        m.beginMark ++ (lineEndText .lf ++ (renderParts m (fun _ => .lf) ps ++ last)) ∧
      ps.map Prod.snd = kept sawOutEnd sawValEnd sawError sawBacktrace ∧
      (∀ p ∈ ps, Quiet m p.1) ∧ Quiet m last ∧ Terminated nl last := by
  have hq : ∀ {t : Text}, Quiet m t → ∀ a b, Quiet m (blockText (truncateToolTail t a b)) ∧
      Terminated nl (blockText (truncateToolTail t a b)) :=
    fun ht a b => quiet_blockText hm (quiet_truncate hm ht a b)
  have hout := hq h.stdoutText kEvalAccumulatorTailLines kMaxMcpTextBytes
  have hvalue := hq h.valueRepr kEvalAccumulatorTailLines kMaxMcpTextBytes
  have herror := hq h.errorMessage kEvalAccumulatorTailLines kMaxMcpTextBytes
  have hback := hq h.backtrace 200 kMaxMcpBacktraceBytes
  simp only [compactMarkerAccumulator, appendBlock_eq, appendLine, Bool.false_eq_true, if_false]
  generalize blockText (truncateToolTail e.stdoutText kEvalAccumulatorTailLines kMaxMcpTextBytes) = out at hout ⊢
  generalize blockText (truncateToolTail e.valueRepr kEvalAccumulatorTailLines kMaxMcpTextBytes) = value at hvalue ⊢
  generalize blockText (truncateToolTail e.errorMessage kEvalAccumulatorTailLines kMaxMcpTextBytes) = error at herror ⊢
  generalize blockText (truncateToolTail e.backtrace 200 kMaxMcpBacktraceBytes) = back at hback ⊢
  cases sawError with
  | true =>
      cases sawBacktrace with
      | true => exact ⟨[(out, .Error), (error, .Backtrace)], back, by simp [renderParts, lineEndText], rfl,
          by simp [hout.1, herror.1], hback⟩
      | false => exact ⟨[(out, .Error)], error, by simp [renderParts, lineEndText], rfl, by simp [hout.1], herror⟩
  | false =>
      cases sawOutEnd with
      | true =>
          cases sawValEnd with
          | true => exact ⟨[(out, .OutEnd), (value, .ValEnd)], [], by simp [renderParts, lineEndText], rfl,
              by simp [hout.1, hvalue.1], quiet_nil m, terminated_nil⟩
          | false => exact ⟨[(out, .OutEnd)], value, by simp [renderParts, lineEndText], rfl, by simp [hout.1], hvalue⟩
      | false => exact ⟨[], out, by simp [renderParts, lineEndText], rfl, by simp, hout⟩

/-- Compacted, an accumulator reads as the tokens that are kept. -/
theorem compactText_begun (hm : m.OneLine) {ks : List Kind} {rest : Text} (be : LineEnd) (h : Begun m ks rest) :
    ∃ rest', compactText m (m.beginMark ++ (lineEndText be ++ rest)) =
      m.beginMark ++ (lineEndText .lf ++ rest') ∧ Begun m (keptOf ks) rest' := by
  have hquiet : QuietSlices m (extractBetweenMarkers (m.beginMark ++ (lineEndText be ++ rest)) m) := h.quiet hm
  have hsaw : ∀ k, (find (m.mark k) (m.beginMark ++ (lineEndText be ++ rest))).isSome = decide (k ∈ ks) := h.saw hm
  have hend : decide (.End ∈ ks) = false := decide_eq_false h.end_notMem
  have hcompact : compactText m (m.beginMark ++ (lineEndText be ++ rest)) =
      compactMarkerAccumulator (extractBetweenMarkers (m.beginMark ++ (lineEndText be ++ rest)) m) m
        (.OutEnd ∈ ks) (.ValEnd ∈ ks) (.Error ∈ ks) (.Backtrace ∈ ks) false := by
    simp only [compactText, compact, hsaw, hend]
  obtain ⟨ps, last, hparts, hkept, hps, hlast, hterm⟩ := compactMarkerAccumulator_parts hm hquiet
    (.OutEnd ∈ ks) (.ValEnd ∈ ks) (.Error ∈ ks) (.Backtrace ∈ ks)
  obtain ⟨rest', hrest', htidy, _, _⟩ := compactMarkerAccumulator_compacted hm hquiet
    (.OutEnd ∈ ks) (.ValEnd ∈ ks) (.Error ∈ ks) (.Backtrace ∈ ks)
  have hclean : Clean m (renderParts m (fun _ => .lf) ps ++ last) := by
    rw [hparts, List.append_cancel_left_eq, lineEndText, List.singleton_append, List.cons_inj_right] at hrest'
    exact hrest' ▸ htidy.clean
  refine ⟨_, hcompact.trans hparts, ?_⟩
  rw [show keptOf ks = ps.map Prod.snd from hkept.symm]
  refine begun_rendered ?_ (fun p hp => (hps p hp).1) hlast.1 hterm hclean (fun p hp => unsplit_of_noCr (hps p hp).2)
    (unsplit_of_noCr hlast.2)
  rw [hkept]
  generalize decide (.OutEnd ∈ ks) = o, decide (.ValEnd ∈ ks) = v, decide (.Error ∈ ks) = e,
    decide (.Backtrace ∈ ks) = b
  revert o v e b
  decide

theorem rounds_concat (pre : List Text) (t : Text) : rounds m (pre ++ [t]) = compactText m (rounds m pre ++ t) := by
  rw [rounds, List.foldl_append]
  rfl

/-- After each round the compacted accumulator reads as what a compaction keeps
of the tokens printed so far. -/
theorem rounds_begun (hm : m.OneLine) {ts : List Text} (hne : ts ≠ [])
    (hform : ∀ us, us <+: ts → us ≠ [] → ∃ P : Printed m, P.Apart ∧ P.text = us.flatten) :
    ∃ be ks rest rest', Emitted ks ∧ ts.flatten = m.beginMark ++ (lineEndText be ++ rest) ∧ Begun m ks rest ∧
      rounds m ts = m.beginMark ++ (lineEndText .lf ++ rest') ∧ Begun m (keptOf ks) rest' := by
  induction ts using List.reverseRecOn with
  | nil => exact absurd rfl hne
  | append_singleton pre t ih =>
      obtain ⟨P, hP, htext⟩ := hform (pre ++ [t]) List.prefix_rfl hne
      rw [rounds_concat]
      rcases eq_or_ne pre [] with rfl | hpre
      · obtain ⟨rest', hcompact, hkept⟩ := compactText_begun hm P.beginEnd hP.begun
        have ht : t = P.text := by simp [htext]
        exact ⟨P.beginEnd, _, P.payload, rest', P.emitted, htext.symm, hP.begun, by rw [ht]; exact hcompact, hkept⟩
      · obtain ⟨be, ks, rest, rest', _, hflat, hread, hrun, hkept⟩ :=
          ih hpre fun us hus => hform us (hus.trans (List.prefix_append pre [t]))
        have hgrown : (pre ++ [t]).flatten = m.beginMark ++ (lineEndText be ++ (rest ++ t)) := by
          simp [hflat]
        have hpayload : P.payload = rest ++ t := by
          have hfound := findPayload_begin m hm P.beginEnd P.payload
          rw [← Printed.text, htext, hgrown, findPayload_begin m hm] at hfound
          exact (Option.some.inj hfound).symm
        have hkinds : P.parts.map Prod.snd = ks ++ tokens m t := by
          rw [← hP.begun.reads, hpayload, tokens_append hm t hread.terminated hread.unended, hread.reads]
        have hall := hP.begun
        have hemitted := P.emitted
        rw [hkinds] at hemitted
        rw [hkinds, hpayload] at hall
        obtain ⟨rest'', hcompact, hkept'⟩ := compactText_begun hm .lf (Begun.append hm hread hall hkept)
        rw [keptOf_append hemitted] at hkept'
        refine ⟨be, _, rest ++ t, rest'', hemitted, hgrown, hall, ?_, hkept'⟩
        rw [hrun, List.append_assoc, List.append_assoc]
        exact hcompact

/-- However often it is compacted, what run_command goes on to print is read as
it would be without. -/
theorem rounds_agree (hm : m.OneLine) {ts : List Text} (hne : ts ≠ [])
    (hform : ∀ us, us <+: ts → us ≠ [] → ∃ P : Printed m, P.Apart ∧ P.text = us.flatten) :
    Agree m ts.flatten (rounds m ts) := by
  obtain ⟨be, ks, rest, rest', hemitted, hflat, hread, hrun, hkept⟩ := rounds_begun hm hne hform
  rw [hflat, hrun]
  exact Begun.agree hm hread hkept (phaseOf_keptOf hemitted) (error_mem_keptOf ks)

theorem rounds_agree_partial_value :
    let m := makeMarker (lit "7_41_2")
    let first := lit "__JJMCP_BEGIN_7_41_2__\nhi__JJMCP_OUT_END_7_41_2__\n1\n"
    let second := lit "2\n__JJMCP_ERROR_7_41_2__\nboom\n"
    Agree m (first ++ second) (rounds m [first, second]) := by
  intro m first second
  have hm : m.OneLine := show nl ∉ lit "7_41_2" by decide
  let P : Printed m := ⟨.lf, fun _ => .lf, [(lit "hi", .OutEnd)], lit "1\n", emitted_iff.mpr (by decide),
    .inr ⟨lit "1", rfl⟩, by decide +kernel, by decide +kernel⟩
  let Q : Printed m := ⟨.lf, fun _ => .lf, [(lit "hi", .OutEnd), (lit "1\n2\n", .Error)], lit "boom\n",
    emitted_iff.mpr (by decide), .inr ⟨lit "boom", rfl⟩, by decide +kernel, by decide +kernel⟩
  have hP : P.Apart := Printed.apart_of_markFree hm (by decide) (by decide)
    (fun p hp => markFree_of_id (by revert p hp; decide +kernel)) (markFree_of_id (by decide +kernel))
  have hQ : Q.Apart := Printed.apart_of_markFree hm (by decide) (by decide)
    (fun p hp => markFree_of_id (by revert p hp; decide +kernel)) (markFree_of_id (by decide +kernel))
  have hagree := rounds_agree hm (List.cons_ne_nil first [second]) (by
    intro us hus hne
    rcases List.prefix_cons_iff.mp hus with rfl | ⟨vs, rfl, hvs⟩
    · exact absurd rfl hne
    · rcases List.prefix_cons_iff.mp hvs with rfl | ⟨ws, rfl, hws⟩
      · exact ⟨P, hP, by decide +kernel⟩
      · rw [List.prefix_nil.mp hws]
        exact ⟨Q, hQ, by decide +kernel⟩)
  rwa [List.flatten_cons, List.flatten_singleton] at hagree

/-- The carriage return inside a token goes with the compaction, and END is found. And
where a segment and the marker after it make END together, the extraction stops before
ERROR, which the compaction writes before END. -/
theorem not_rounds_agree :
    (¬ ∀ (m : Marker) (P : Printed m), GeneratorForm m.id → (∀ p ∈ P.parts, ¬ m.id <:+: p.1) →
      ¬ m.id <:+: P.last → Agree m P.text (rounds m [P.text])) ∧
    ¬ ∀ (m : Marker) (P : Printed m), GeneratorForm m.id → cr ∉ P.text → Agree m P.text (rounds m [P.text]) := by
  let m := makeMarker (lit "7_41_2")
  have hid : GeneratorForm m.id := ⟨lit "7", lit "41", lit "2", by decide, by decide, by decide, rfl⟩
  constructor
  · intro h
    let P : Printed m := ⟨.lf, fun _ => .lf, [], lit "__JJMCP_END_7\r_41_2__\n", emitted_iff.mpr (by decide),
      .inr ⟨lit "__JJMCP_END_7\r_41_2__", rfl⟩, by decide, by decide +kernel⟩
    have hverdict := ((h m P hid (by decide) (by decide +kernel)).verdict []).2.1
    exact absurd hverdict (by decide +kernel)
  · intro h
    let P : Printed m := ⟨.lf, fun _ => .lf, [(lit "__JJMCP_END_7_41_2", .Error)], [], emitted_iff.mpr (by decide),
      .inl rfl, by decide +kernel, by decide⟩
    have hverdict := ((h m P hid (by decide +kernel)).verdict []).2.2
    exact absurd hverdict (by decide +kernel)

end JJMCP.CompactionRounds
