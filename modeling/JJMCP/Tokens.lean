import JJMCP.Extract

namespace JJMCP.Tokens

open Lib.Occurrence Lib.Lines Text Marker Extract

/-- No two tokens of the marker overlap. -/
def Clean (m : Marker) (t : Text) : Prop :=
  ∀ j k p q, At (m.mark j) t p → At (m.mark k) t q → p < q → p + (m.mark j).length ≤ q

/-- No carriage return stands inside a token. -/
def Unsplit (m : Marker) (t : Text) : Prop :=
  ∀ s k, s <:+: t → s.filter (· ≠ cr) = m.mark k → s = m.mark k

def ErrorBeforeEnd (m : Marker) (t : Text) : Prop :=
  ∃ p, At (m.mark .Error) t p ∧ ∀ q, At (m.mark .End) t q → p < q

/-- Closed lines whose tokens the extraction sees one by one. -/
structure Tidy (m : Marker) (t : Text) : Prop where
  terminated : Terminated nl t
  clean : Clean m t
  unsplit : Unsplit m t

theorem Clean.isInfix {m : Marker} {s t : Text} (h : Clean m t) (hs : s <:+: t) : Clean m s := by
  obtain ⟨a, b, rfl⟩ := hs
  have hat : ∀ k p, At (m.mark k) s p → At (m.mark k) (a ++ s ++ b) (a.length + p) := by
    intro k p hp
    rw [List.append_assoc, at_append_right]
    exact (at_append_left b (hp.bound (mark_ne_nil m k))).mpr hp
  intro j k p q hp hq hlt
  have := h j k _ _ (hat j p hp) (hat k q hq) (by omega)
  omega

theorem Unsplit.isInfix {m : Marker} {s t : Text} (h : Unsplit m t) (hs : s <:+: t) : Unsplit m s :=
  fun r k hr => h r k (hr.trans hs)

theorem Clean.append {m : Marker} (hm : m.OneLine) {a b : Text} (ht : Terminated nl a) (ha : Clean m a)
    (hb : Clean m b) : Clean m (a ++ b) := by
  intro j k p q hp hq hlt
  have hp' := (at_append_terminated b ht (nl_notMem_mark hm j) (mark_ne_nil m j) p).mp hp
  have hq' := (at_append_terminated b ht (nl_notMem_mark hm k) (mark_ne_nil m k) q).mp hq
  rcases hp' with ⟨hpl, hp'⟩ | ⟨hpl, hp'⟩
  · rcases hq' with ⟨_, hq'⟩ | ⟨hql, _⟩
    · exact ha j k p q hp' hq' hlt
    · omega
  · rcases hq' with ⟨hql, _⟩ | ⟨hql, hq'⟩
    · have := List.length_pos_iff.mpr (mark_ne_nil m k)
      omega
    · have := hb j k _ _ hp' hq' (by omega)
      omega

theorem nl_notMem_of_filter {m : Marker} (hm : m.OneLine) {s : Text} {k : Kind}
    (h : s.filter (· ≠ cr) = m.mark k) : nl ∉ s := by
  intro hs
  have hne : nl ≠ cr := by decide
  have hmem : nl ∈ s.filter (· ≠ cr) := List.mem_filter.mpr ⟨hs, by simp [hne]⟩
  rw [h] at hmem
  exact nl_notMem_mark hm k hmem

theorem Unsplit.append {m : Marker} (hm : m.OneLine) {a b : Text} (ht : Terminated nl a)
    (ha : Unsplit m a) (hb : Unsplit m b) : Unsplit m (a ++ b) := by
  intro s k hs hf
  have hne : s ≠ [] := by
    rintro rfl
    exact mark_ne_nil m k (by simpa using hf.symm)
  rcases (infix_append_terminated b ht (nl_notMem_of_filter hm hf) hne).mp hs with hs | hs
  · exact ha s k hs hf
  · exact hb s k hs hf

theorem unsplit_of_noCr {m : Marker} {t : Text} (h : cr ∉ t) : Unsplit m t := by
  intro s k hs hf
  rw [← hf, filter_noCr fun hc => h (hs.subset hc)]

theorem Tidy.append {m : Marker} (hm : m.OneLine) {a b : Text} (ha : Tidy m a) (hb : Tidy m b) :
    Tidy m (a ++ b) :=
  ⟨ha.terminated.append hb.terminated, ha.clean.append hm ha.terminated hb.clean,
    ha.unsplit.append hm ha.terminated hb.unsplit⟩

theorem tidy_nil (m : Marker) : Tidy m [] := by
  refine ⟨terminated_nil, ?_, ?_⟩
  · intro j k p q hp
    exact absurd (hp.bound (mark_ne_nil m j)) (by simp)
  · intro s k hs hf
    rw [List.infix_nil.mp hs] at hf
    exact absurd hf.symm (mark_ne_nil m k)

theorem tidy_unlines {m : Marker} (hm : m.OneLine) {lines : List Text}
    (h : ∀ l ∈ lines, Tidy m (l ++ [nl])) : Tidy m (unlines nl lines) := by
  induction lines with
  | nil => exact tidy_nil m
  | cons l ls ih =>
      have he : unlines nl (l :: ls) = (l ++ [nl]) ++ unlines nl ls := by simp
      rw [he]
      exact (h l (by simp)).append hm (ih fun l' hl' => h l' (by simp [hl']))

theorem noMark_isInfix {m : Marker} {s t : Text} (h : NoMark m t) (hs : s <:+: t) : NoMark m s :=
  fun k hk => h k (hk.trans hs)

theorem noMark_clean {m : Marker} {t : Text} (h : NoMark m t) : Clean m t :=
  fun j _ _ _ hp => absurd hp.isInfix (h j)

theorem noMark_filter {m : Marker} {t : Text} (h : NoMark m t) (hu : Unsplit m t) :
    NoMark m (t.filter (· ≠ cr)) := by
  rintro k ⟨a, b, hab⟩
  obtain ⟨ab', b', rfl, hab', _⟩ := List.filter_eq_append_iff.mp hab.symm
  obtain ⟨a', s, rfl, _, hs⟩ := List.filter_eq_append_iff.mp hab'
  have hin : s <:+: a' ++ s ++ b' := ⟨a', b', rfl⟩
  have hk := hu s k hin hs
  exact h k (hk ▸ hin)

theorem errorBeforeEnd_append {m : Marker} (hm : m.OneLine) {a : Text} (b : Text) (ht : Terminated nl a)
    (hend : ¬ m.mark .End <:+: a) :
    ErrorBeforeEnd m (a ++ b) ↔ m.mark .Error <:+: a ∨ ErrorBeforeEnd m b := by
  have hat := fun k p => at_append_terminated b ht (nl_notMem_mark hm k) (mark_ne_nil m k) p
  constructor
  · rintro ⟨p, hp, hq⟩
    rcases (hat .Error p).mp hp with ⟨_, hp⟩ | ⟨hl, hp⟩
    · exact .inl hp.isInfix
    · refine .inr ⟨p - a.length, hp, fun q hq' => ?_⟩
      have := hq (a.length + q) ((at_append_right _ a b q).mpr hq')
      omega
  · rintro (h | ⟨p, hp, hq⟩)
    · obtain ⟨p, hp⟩ := infix_iff_at.mp h
      have hb := hp.bound (mark_ne_nil m .Error)
      refine ⟨p, (at_append_left b hb).mpr hp, fun q hq => ?_⟩
      rcases (hat .End q).mp hq with ⟨_, hq⟩ | ⟨hl, _⟩
      · exact absurd hq.isInfix hend
      · have := List.length_pos_iff.mpr (mark_ne_nil m .Error)
        omega
    · refine ⟨a.length + p, (at_append_right _ a b p).mpr hp, fun q hq' => ?_⟩
      rcases (hat .End q).mp hq' with ⟨_, hq'⟩ | ⟨hl, hq'⟩
      · exact absurd hq'.isInfix hend
      · have := hq _ hq'
        omega

theorem errorBeforeEnd_of_noEnd {m : Marker} {t : Text} (h : ¬ m.mark .End <:+: t) :
    ErrorBeforeEnd m t ↔ m.mark .Error <:+: t := by
  constructor
  · rintro ⟨p, hp, _⟩
    exact hp.isInfix
  · intro he
    obtain ⟨p, hp⟩ := infix_iff_at.mp he
    exact ⟨p, hp, fun q hq => absurd hq.isInfix h⟩

theorem skip_eq_drop (rest : Text) : ∃ e, skipMarkerLineEnding rest = rest.drop e ∧
    ∀ i, i < e → ∀ c, rest[i]? = some c → c ≠ 95 := by
  have hone : ∀ (t : Text) (x : UInt8), ∃ e, (if t.head? = some x then t.tail else t) = t.drop e ∧
      ∀ i, i < e → i = 0 ∧ t[i]? = some x := by
    intro t x
    split
    next h =>
      refine ⟨1, by simp, fun i hi => ?_⟩
      have h0 : i = 0 := by omega
      exact ⟨h0, by rw [h0, ← List.head?_eq_getElem?, h]⟩
    next => exact ⟨0, rfl, fun i hi => absurd hi (Nat.not_lt_zero i)⟩
  obtain ⟨e1, h1, hc1⟩ := hone rest cr
  obtain ⟨e2, h2, hc2⟩ := hone (rest.drop e1) nl
  refine ⟨e1 + e2, ?_, ?_⟩
  · simp only [skipMarkerLineEnding]
    rw [h1, h2, List.drop_drop]
  · intro i hi c hc
    by_cases hlt : i < e1
    · have he := (hc1 i hlt).2.symm.trans hc
      simp only [Option.some.injEq] at he
      rw [← he]
      decide
    · have he := (hc2 (i - e1) (by omega)).2
      rw [List.getElem?_drop, show e1 + (i - e1) = i by omega, hc] at he
      simp only [Option.some.injEq] at he
      rw [he]
      decide

/-- In a clean text the tokens are the first one and those of the text after it. -/
theorem at_afterMark {m : Marker} {rest : Text} (hc : Clean m rest) {p : Nat} {k : Kind}
    (h : FirstMark m rest p k) :
    ∃ d, p < d ∧ afterMark m rest p k = rest.drop d ∧
      ∀ j q, At (m.mark j) rest q ↔ (q = p ∧ j = k) ∨ (d ≤ q ∧ At (m.mark j) (rest.drop d) (q - d)) := by
  obtain ⟨e, he, hskip⟩ := skip_eq_drop (rest.drop (p + (m.mark k).length))
  have hten := ten_le_mark_length m k
  refine ⟨p + (m.mark k).length + e, by omega, ?_, ?_⟩
  · rw [afterMark, he, List.drop_drop]
  · intro j q
    constructor
    · intro hq
      have hle := h.2 j q hq
      rcases Nat.eq_or_lt_of_le hle with rfl | hlt
      · exact .inl ⟨rfl, mark_kind_unique hq h.1⟩
      · have hge := hc k j p q h.1 hq hlt
        have hd : p + (m.mark k).length + e ≤ q := by
          by_contra hn
          refine hskip (q - (p + (m.mark k).length)) (by omega) 95 ?_ rfl
          rw [List.getElem?_drop, show p + (m.mark k).length + (q - (p + (m.mark k).length)) = q + 0 by omega,
            hq.getElem? (List.length_pos_iff.mpr (mark_ne_nil m j)), ← List.head?_eq_getElem?, mark_head]
        refine .inr ⟨hd, ?_⟩
        rw [at_drop, Nat.add_sub_cancel' hd]
        exact hq
    · rintro (⟨rfl, rfl⟩ | ⟨hd, hq⟩)
      · exact h.1
      · rw [at_drop, Nat.add_sub_cancel' hd] at hq
        exact hq

theorem errorBeforeEnd_afterMark {m : Marker} {rest : Text} (hc : Clean m rest) {p : Nat} {k : Kind}
    (h : FirstMark m rest p k) (hk : k ≠ .End) :
    (m.mark .End <:+: rest ↔ m.mark .End <:+: afterMark m rest p k) ∧
      (ErrorBeforeEnd m rest ↔ k = .Error ∨ ErrorBeforeEnd m (afterMark m rest p k)) := by
  obtain ⟨d, hpd, hafter, hat⟩ := at_afterMark hc h
  rw [hafter]
  have hend : ∀ q, At (m.mark .End) rest q ↔ d ≤ q ∧ At (m.mark .End) (rest.drop d) (q - d) := by
    intro q
    rw [hat .End q]
    exact or_iff_right fun hq => hk hq.2.symm
  constructor
  · constructor
    · intro hi
      obtain ⟨q, hq⟩ := infix_iff_at.mp hi
      exact ((hend q).mp hq).2.isInfix
    · exact fun hi => hi.trans (List.drop_suffix _ _).isInfix
  · constructor
    · rintro ⟨q, hq, hlt⟩
      rcases (hat .Error q).mp hq with ⟨_, he⟩ | ⟨hd, hq⟩
      · exact .inl he.symm
      · refine .inr ⟨q - d, hq, fun z hz => ?_⟩
        have hz' : At (m.mark .End) rest (d + z) := at_drop.mp hz
        have := hlt _ hz'
        omega
    · rintro (rfl | ⟨q, hq, hlt⟩)
      · refine ⟨p, h.1, fun z hz => ?_⟩
        have := ((hend z).mp hz).1
        omega
      · refine ⟨d + q, at_drop.mp hq, fun z hz => ?_⟩
        obtain ⟨hd, hz⟩ := (hend z).mp hz
        have := hlt _ hz
        omega

theorem not_errorBeforeEnd_end {m : Marker} {rest : Text} {p : Nat} (h : FirstMark m rest p .End) :
    ¬ ErrorBeforeEnd m rest := by
  rintro ⟨q, hq, hlt⟩
  have hle := h.2 .Error q hq
  have := hlt p h.1
  omega

@[simp] theorem record_foundBegin (phase : Phase) (seg : Text) (r : ExtractedOutput) :
    (record phase seg r).foundBegin = r.foundBegin := by
  cases phase <;> rfl

@[simp] theorem record_foundEnd (phase : Phase) (seg : Text) (r : ExtractedOutput) :
    (record phase seg r).foundEnd = r.foundEnd := by
  cases phase <;> rfl

@[simp] theorem record_juliaError (phase : Phase) (seg : Text) (r : ExtractedOutput) :
    (record phase seg r).juliaError = r.juliaError := by
  cases phase <;> rfl

theorem extractLoop_foundBegin (m : Marker) (fuel : Nat) (phase : Phase) (r : ExtractedOutput) (rest : Text) :
    (extractLoop m fuel phase r rest).foundBegin = r.foundBegin := by
  induction fuel generalizing phase r rest with
  | zero => rfl
  | succ fuel ih =>
      rw [extractLoop]
      split
      · rfl
      · split
        · simp
        · dsimp only
          split
          · simp
          · rw [ih]
            split <;> simp

/-- On a clean text the loop finds END and ERROR exactly where they are. -/
theorem extractFrom_flags {m : Marker} (phase : Phase) (r : ExtractedOutput) (rest : Text)
    (hc : Clean m rest) :
    let e := extractFrom m phase r rest
    e.foundBegin = r.foundBegin ∧ (e.foundEnd = true ↔ r.foundEnd = true ∨ m.mark .End <:+: rest) ∧
      (e.juliaError = true ↔ r.juliaError = true ∨ ErrorBeforeEnd m rest) := by
  induction rest using scan_induction (m := m) generalizing phase r with
  | noMark rest hno =>
      intro e
      have he : e = record phase rest r := extractFrom_noMark phase r hno
      simp [he, hno .End, errorBeforeEnd_of_noEnd (hno .End), hno .Error]
  | last rest p hfirst =>
      intro e
      have he : e = { record phase (rest.take p) r with foundEnd := true } := extractFrom_end phase r hfirst
      simp [he, hfirst.1.isInfix, not_errorBeforeEnd_end hfirst]
  | next rest p k hfirst hE ih =>
      intro e
      obtain ⟨hend, herr⟩ := errorBeforeEnd_afterMark hc hfirst hE
      have hrec := ih (phaseAfter k phase) (if k = .Error then { record phase (rest.take p) r with juliaError := true }
        else record phase (rest.take p) r) (hc.isInfix (afterMark_suffix m rest p k).isInfix)
      have he : e = extractFrom m (phaseAfter k phase)
          (if k = .Error then { record phase (rest.take p) r with juliaError := true }
            else record phase (rest.take p) r) (afterMark m rest p k) :=
        extractFrom_mark phase r hfirst hE
      rw [he, hend, herr]
      by_cases hkE : k = .Error
      · simpa [hkE] using hrec
      · simpa [hkE] using hrec

theorem tidy_mark {m : Marker} (hm : m.OneLine) (k : Kind) : Tidy m (m.mark k ++ [nl]) := by
  have hat : ∀ j p, At (m.mark j) (m.mark k ++ [nl]) p → p = 0 := by
    intro j p hp
    rcases (at_sep (nl_notMem_mark hm j) (mark_ne_nil m j) _ _ p).mp hp with ⟨_, h⟩ | ⟨_, h⟩
    · exact at_mark_mark h
    · exact absurd (h.bound (mark_ne_nil m j)) (by simp)
  refine ⟨terminated_concat _, fun i j p q hp hq hlt => ?_, fun s j hs hf => ?_⟩
  · have := hat j q hq
    omega
  · have hcr : cr ∉ m.id := by
      rw [← cr_mem_mark, ← hf]
      simp
    have hnone : cr ∉ m.mark k ++ [nl] := by
      rw [List.mem_append, not_or, cr_mem_mark]
      exact ⟨hcr, by decide⟩
    exact unsplit_of_noCr hnone s j hs hf

/-- What the loop stores for a later compaction: no carriage return, no token. -/
def Quiet (m : Marker) (t : Text) : Prop := NoMark m t ∧ cr ∉ t

structure QuietSlices (m : Marker) (e : ExtractedOutput) : Prop where
  stdoutText : Quiet m e.stdoutText
  valueRepr : Quiet m e.valueRepr
  errorMessage : Quiet m e.errorMessage
  backtrace : Quiet m e.backtrace

theorem quiet_nil (m : Marker) : Quiet m [] :=
  ⟨noMark_nil m, by simp⟩

theorem quiet_nl (m : Marker) : Quiet m [nl] := by
  refine ⟨fun k hk => ?_, by decide⟩
  have hle := hk.length_le
  have hten := ten_le_mark_length m k
  rw [List.length_singleton] at hle
  omega

theorem quiet_markerSegmentText {m : Marker} {seg : Text} (h : NoMark m seg) (hu : Unsplit m seg) :
    Quiet m (markerSegmentText seg) := by
  have hf := noMark_filter h hu
  have hcr : cr ∉ seg.filter (· ≠ cr) := by simp
  simp only [markerSegmentText]
  split
  · exact ⟨noMark_isInfix hf (List.dropLast_prefix _).isInfix, fun hm => hcr (List.mem_of_mem_dropLast hm)⟩
  · exact ⟨hf, hcr⟩

theorem Quiet.append {m : Marker} (hm : m.OneLine) {a b : Text} (ha : Quiet m a) (hb : Quiet m b)
    (hsep : a = [] ∨ a.getLast? = some nl ∨ b.head? = some nl) : Quiet m (a ++ b) := by
  refine ⟨fun k hk => ?_, by simp [ha.2, hb.2]⟩
  have hsplit : m.mark k <:+: a ∨ m.mark k <:+: b := by
    rcases hsep with h | h | h
    · exact .inr (by simpa [h] using hk)
    · have ht : Terminated nl a := .inr ⟨a.dropLast, (List.dropLast_append_getLast? nl h).symm⟩
      exact (infix_append_terminated b ht (nl_notMem_mark hm k) (mark_ne_nil m k)).mp hk
    · cases b with
      | nil => simp at h
      | cons c cs =>
          have hc : c = nl := by simpa using h
          subst hc
          rcases (infix_sep (nl_notMem_mark hm k) (mark_ne_nil m k) a cs).mp hk with h | h
          · exact .inl h
          · exact .inr (List.infix_cons h)
  rcases hsplit with h | h
  · exact ha.1 k h
  · exact hb.1 k h

theorem Quiet.tidy {m : Marker} {t : Text} (h : Quiet m t) (ht : Terminated nl t) : Tidy m t :=
  ⟨ht, noMark_clean h.1, unsplit_of_noCr h.2⟩

theorem quiet_appendSegment {m : Marker} (hm : m.OneLine) {out seg : Text} (hout : Quiet m out)
    (h : NoMark m seg) (hu : Unsplit m seg) : Quiet m (appendSegment out seg) := by
  have hseg := quiet_markerSegmentText h hu
  simp only [appendSegment]
  split
  · exact hout
  · split
    next hj => exact (hout.append hm (quiet_nl m) (.inr (.inr rfl))).append hm hseg (.inr (.inl (by simp)))
    next hj =>
      refine hout.append hm hseg ?_
      by_contra hn
      simp only [not_or] at hn
      exact hj ⟨hn.1, hn.2.1, hn.2.2⟩

theorem QuietSlices.record {m : Marker} (hm : m.OneLine) {r : ExtractedOutput} (h : QuietSlices m r)
    (phase : Phase) {seg : Text} (hseg : NoMark m seg) (hu : Unsplit m seg) :
    QuietSlices m (record phase seg r) := by
  cases phase with
  | Stdout => exact ⟨quiet_appendSegment hm h.1 hseg hu, h.2, h.3, h.4⟩
  | Value => exact ⟨h.1, quiet_appendSegment hm h.2 hseg hu, h.3, h.4⟩
  | Error => exact ⟨h.1, h.2, quiet_appendSegment hm h.3 hseg hu, h.4⟩
  | Backtrace => exact ⟨h.1, h.2, h.3, quiet_appendSegment hm h.4 hseg hu⟩

theorem extractFrom_quiet {m : Marker} (hm : m.OneLine) (phase : Phase) (r : ExtractedOutput) (rest : Text)
    (hu : Unsplit m rest) (h : QuietSlices m r) : QuietSlices m (extractFrom m phase r rest) := by
  induction rest using scan_induction (m := m) generalizing phase r with
  | noMark rest hno =>
      rw [extractFrom_noMark phase r hno]
      exact h.record hm phase hno hu
  | last rest p hfirst =>
      have hrec := h.record hm phase hfirst.noMark_take (hu.isInfix (List.take_prefix p rest).isInfix)
      rw [extractFrom_end phase r hfirst]
      exact ⟨hrec.1, hrec.2, hrec.3, hrec.4⟩
  | next rest p k hfirst hE ih =>
      have hrec := h.record hm phase hfirst.noMark_take (hu.isInfix (List.take_prefix p rest).isInfix)
      rw [extractFrom_mark phase r hfirst hE]
      refine ih _ _ (hu.isInfix (afterMark_suffix m rest p k).isInfix) ?_
      split
      · exact ⟨hrec.1, hrec.2, hrec.3, hrec.4⟩
      · exact hrec

section Begin

variable {m : Marker}

theorem extract_begin (hm : m.OneLine) {pre : Text} (rest : Text) (ht : Terminated nl pre)
    (hno : ¬ m.beginMark <:+: pre) :
    extractBetweenMarkers (pre ++ (m.beginMark ++ nl :: rest)) m =
      extractFrom m .Stdout { foundBegin := true } rest := by
  have hquiet : ∀ l ∈ closedLines nl [] pre, trimAscii l ≠ m.beginMark := by
    intro l hl he
    exact hno (he ▸ (trimAscii_isInfix l).trans (by simpa using mem_closedLines_isInfix hl))
  have hline := findPayload_line m.beginMark [] m.beginMark rest (nl_notMem_beginMark.mpr hm)
  rw [List.nil_append, trimAscii_beginMark, if_pos rfl] at hline
  rw [extract_eq, findPayload_append _ ht hquiet, findMarkerLinePayloadStart, hline]

theorem extract_noBegin {t : Text} (h : ¬ m.beginMark <:+: t) : extractBetweenMarkers t m = {} := by
  rw [extract_eq, findPayload_notInfix h]

theorem beginLine_terminated (m : Marker) : Terminated nl (m.beginMark ++ [nl]) := terminated_concat _

theorem noMark_beginLine (m : Marker) (hm : m.OneLine) : NoMark m (m.beginMark ++ [nl]) := by
  intro k hk
  rcases (infix_sep (nl_notMem_mark hm k) (mark_ne_nil m k) m.beginMark []).mp hk with h | h
  · exact mark_not_infix_beginMark m k h
  · exact mark_ne_nil m k (List.infix_nil.mp h)

theorem infix_after_begin (hm : m.OneLine) {pre : Text} (rest : Text) (ht : Terminated nl pre)
    (hpre : NoMark m pre) (k : Kind) :
    m.mark k <:+: pre ++ (m.beginMark ++ nl :: rest) ↔ m.mark k <:+: rest := by
  have hb := noMark_beginLine m hm k
  have he : m.beginMark ++ nl :: rest = (m.beginMark ++ [nl]) ++ rest := by simp
  rw [infix_append_terminated _ ht (nl_notMem_mark hm k) (mark_ne_nil m k), he,
    infix_append_terminated _ (beginLine_terminated m) (nl_notMem_mark hm k) (mark_ne_nil m k)]
  simp [hpre k, hb]

theorem error_after_begin (hm : m.OneLine) {pre : Text} (rest : Text) (ht : Terminated nl pre)
    (hpre : NoMark m pre) :
    ErrorBeforeEnd m (pre ++ (m.beginMark ++ nl :: rest)) ↔ ErrorBeforeEnd m rest := by
  have hb := noMark_beginLine m hm
  have he : m.beginMark ++ nl :: rest = (m.beginMark ++ [nl]) ++ rest := by simp
  rw [errorBeforeEnd_append hm _ ht (hpre .End), he,
    errorBeforeEnd_append hm _ (beginLine_terminated m) (hb .End)]
  simp [hpre .Error, hb .Error]

structure Reads (m : Marker) (t : Text) (e : ExtractedOutput) : Prop where
  found : e.foundBegin = true
  foundEnd : e.foundEnd = true ↔ m.mark .End <:+: t
  juliaError : e.juliaError = true ↔ ErrorBeforeEnd m t
  slices : QuietSlices m e

theorem extract_reads (hm : m.OneLine) {pre rest : Text} (ht : Terminated nl pre)
    (hno : ¬ m.beginMark <:+: pre) (hpre : NoMark m pre) (hrest : Tidy m rest) :
    Reads m (pre ++ (m.beginMark ++ nl :: rest)) (extractBetweenMarkers (pre ++ (m.beginMark ++ nl :: rest)) m) := by
  have hflags := extractFrom_flags .Stdout { foundBegin := true } rest hrest.clean
  have hquiet : QuietSlices m { foundBegin := true } :=
    ⟨quiet_nil m, quiet_nil m, quiet_nil m, quiet_nil m⟩
  rw [extract_begin hm rest ht hno]
  refine ⟨hflags.1, ?_, ?_, extractFrom_quiet hm _ _ _ hrest.unsplit hquiet⟩
  · rw [hflags.2.1, infix_after_begin hm rest ht hpre]
    simp
  · rw [hflags.2.2, error_after_begin hm rest ht hpre]
    simp

end Begin

end JJMCP.Tokens
