import JJMCP.Emission
import JJMCP.Slices
import JJMCP.Tokens

namespace JJMCP.Routing

open Lib.Occurrence Lib.Lines Text Marker Extract Emission Tokens Slices

/-- The segments of a payload and the phases they are recorded in. -/
def routes (m : Marker) (opener : Option Kind) (rest : Text) : List (Phase × Text) :=
  (pieces m opener rest).map fun p => (phaseOf p.opener, p.text)

def routed (m : Marker) (capture : Text) : List (Phase × Text) :=
  match findMarkerLinePayloadStart capture m.beginMark with
  | none => []
  | some payload => routes m none payload

/-- The first segment goes on with one that was read before. -/
def continued (last : Text) (rs : List (Phase × Text)) : List (Phase × Text) :=
  rs.modifyHead fun r => (r.1, last ++ r.2)

/-- Whatever text follows, both accumulators give the same verdict on it and send
every segment of it to the same slice. -/
structure Agree (m : Marker) (acc acc' : Text) : Prop where
  verdict : ∀ t, let e := extractBetweenMarkers (acc ++ t) m
    let e' := extractBetweenMarkers (acc' ++ t) m
    e'.foundBegin = e.foundBegin ∧ e'.foundEnd = e.foundEnd ∧ e'.juliaError = e.juliaError
  routing : ∃ opener before last before' last', ∀ t,
    routed m (acc ++ t) = before ++ continued last (routes m opener t) ∧
      routed m (acc' ++ t) = before' ++ continued last' (routes m opener t)

/-- The tokens the loop passes before END. -/
def tokens (m : Marker) (rest : Text) : List Kind := (pieces m none rest).filterMap (·.opener)

/-- Closed lines after BEGIN that read as these tokens, with END still to come. -/
structure Begun (m : Marker) (ks : List Kind) (rest : Text) : Prop where
  terminated : Terminated nl rest
  clean : Clean m rest
  unended : ¬ m.mark .End <:+: rest
  reads : tokens m rest = ks
  unsplit : ∀ p ∈ pieces m none rest, Unsplit m p.text

section

variable {m : Marker} (opener : Option Kind) {rest : Text} {p : Nat}

/-- Only the first piece tells how the loop came to the text. -/
theorem pieces_opener (rest : Text) :
    pieces m opener rest = (pieces m none rest).modifyHead fun p => ⟨opener, p.text⟩ := by
  induction rest using scan_induction (m := m) with
  | noMark rest hno =>
      rw [pieces_noMark opener hno, pieces_noMark none hno]
      rfl
  | last rest p hfirst =>
      rw [pieces_end opener hfirst, pieces_end none hfirst]
      rfl
  | next rest p k hfirst hE _ =>
      rw [pieces_mark opener hfirst hE, pieces_mark none hfirst hE]
      rfl

theorem openers_cons (u : Text) (ps : List Piece) :
    (⟨opener, u⟩ :: ps : List Piece).filterMap (·.opener) = opener.toList ++ ps.filterMap (·.opener) := by
  cases opener <;> rfl

theorem tokens_pieces (rest : Text) : (pieces m opener rest).filterMap (·.opener) = opener.toList ++ tokens m rest := by
  obtain ⟨t, ps, hcut, _⟩ := pieces_cons m none rest
  rw [tokens, pieces_opener, hcut, List.modifyHead_cons, openers_cons, openers_cons]
  rfl

theorem tokens_noMark (h : NoMark m rest) : tokens m rest = [] := by
  rw [tokens, pieces_noMark none h]
  rfl

theorem tokens_end (h : FirstMark m rest p .End) : tokens m rest = [] := by
  rw [tokens, pieces_end none h]
  rfl

theorem tokens_mark {k : Kind} (h : FirstMark m rest p k) (hk : k ≠ .End) :
    tokens m rest = k :: tokens m (afterMark m rest p k) := by
  rw [tokens, pieces_mark none h hk, List.filterMap_cons_none rfl, tokens_pieces]
  rfl

theorem routes_congr {opener opener' : Option Kind} (h : phaseOf opener = phaseOf opener') (rest : Text) :
    routes m opener rest = routes m opener' rest := by
  obtain ⟨t, ps, hcut, _⟩ := pieces_cons m none rest
  rw [routes, routes, pieces_opener opener, pieces_opener opener', hcut]
  simp [h]

end

theorem afterMark_append_right (m : Marker) (rest t : Text) (q : Nat) (k : Kind) :
    afterMark m (rest ++ t) (rest.length + q) k = afterMark m t q k := by
  rw [afterMark, afterMark, Nat.add_assoc, ← List.drop_drop, List.drop_left]

section

variable {m : Marker} (hm : m.OneLine) {rest : Text} (t : Text) {p : Nat} {k : Kind}
include hm

theorem FirstMark.append (hrest : Terminated nl rest) (h : FirstMark m rest p k) : FirstMark m (rest ++ t) p k := by
  have hat := fun j q => at_append_terminated t hrest (nl_notMem_mark hm j) (mark_ne_nil m j) q
  have hb := h.1.bound (mark_ne_nil m k)
  refine ⟨(at_append_left t hb).mpr h.1, fun j q hq => ?_⟩
  rcases (hat j q).mp hq with ⟨_, hq⟩ | ⟨hle, _⟩
  · exact h.2 j q hq
  · omega

/-- The line of a token is closed before the text that follows. -/
theorem afterMark_append (hrest : Terminated nl rest) (h : At (m.mark k) rest p) :
    afterMark m (rest ++ t) p k = afterMark m rest p k ++ t := by
  have hskip : ∀ s : Text, skipMarkerLineEnding (s ++ [nl] ++ t) = skipMarkerLineEnding (s ++ [nl]) ++ t := by
    intro s
    cases s with
    | nil => simp [skipMarkerLineEnding, show nl ≠ cr by decide]
    | cons c cs =>
        by_cases hc : c = cr
        · cases cs with
          | nil => simp [skipMarkerLineEnding, hc]
          | cons d ds => by_cases hd : d = nl <;> simp [skipMarkerLineEnding, hc, hd]
        · by_cases hd : c = nl
          · simp [skipMarkerLineEnding, hd, show nl ≠ cr by decide]
          · simp [skipMarkerLineEnding, hc, hd]
  have hb := h.bound (mark_ne_nil m k)
  rcases hrest with rfl | ⟨l, rfl⟩
  · simp [mark_ne_nil] at hb
  · have hin : p + (m.mark k).length ≤ l.length := by
      rcases (at_sep (nl_notMem_mark hm k) (mark_ne_nil m k) l [] p).mp h with ⟨hle, _⟩ | ⟨_, hat⟩
      · exact hle
      · exact absurd (hat.bound (mark_ne_nil m k)) (by simp [mark_ne_nil])
    rw [afterMark, afterMark, List.append_assoc, List.drop_append_of_le_length hin,
      List.drop_append_of_le_length hin, ← List.append_assoc, hskip]

theorem firstMark_append_right (hrest : Terminated nl rest) (hno : NoMark m rest) {t : Text} {q : Nat} {k : Kind}
    (h : FirstMark m t q k) : FirstMark m (rest ++ t) (rest.length + q) k := by
  have hat := fun j q => at_append_terminated t hrest (nl_notMem_mark hm j) (mark_ne_nil m j) q
  refine ⟨(at_append_right _ rest t q).mpr h.1, fun j r hr => ?_⟩
  rcases (hat j r).mp hr with ⟨_, hr⟩ | ⟨hle, hr⟩
  · exact absurd hr.isInfix (hno j)
  · have hmin := h.2 j _ hr
    omega

theorem noMark_append (hrest : Terminated nl rest) (hno : NoMark m rest) {t : Text} (ht : NoMark m t) :
    NoMark m (rest ++ t) := by
  intro k hk
  rcases (infix_append_terminated t hrest (nl_notMem_mark hm k) (mark_ne_nil m k)).mp hk with hk | hk
  · exact hno k hk
  · exact ht k hk

/-- Closed lines without a token only lengthen the first piece. -/
theorem pieces_append_noMark (hrest : Terminated nl rest) (hno : NoMark m rest) (opener : Option Kind) :
    pieces m opener (rest ++ t) = (pieces m opener t).modifyHead fun p => ⟨p.opener, rest ++ p.text⟩ := by
  have htake : ∀ (t : Text) q, (rest ++ t).take (rest.length + q) = rest ++ t.take q :=
    fun t q => List.take_length_add_append q
  induction t using scan_induction (m := m) with
  | noMark t ht =>
      rw [pieces_noMark opener (noMark_append hm hrest hno ht), pieces_noMark opener ht]
      rfl
  | last t q hfirst =>
      rw [pieces_end opener (firstMark_append_right hm hrest hno hfirst), pieces_end opener hfirst, htake]
      rfl
  | next t q k hfirst hE _ =>
      rw [pieces_mark opener (firstMark_append_right hm hrest hno hfirst) hE, pieces_mark opener hfirst hE, htake,
        afterMark_append_right]
      rfl

/-- Reading on after a line: the pieces read so far stay, the last of them goes on. -/
theorem pieces_append (hrest : Terminated nl rest) (hend : ¬ m.mark .End <:+: rest) (opener : Option Kind) :
    ∃ before last, Terminated nl last ∧
      pieces m opener rest = before ++ [⟨(tokens m rest).getLast?.or opener, last⟩] ∧
      ∀ t, pieces m opener (rest ++ t) = before ++
        (pieces m ((tokens m rest).getLast?.or opener) t).modifyHead fun p => ⟨p.opener, last ++ p.text⟩ := by
  induction rest using scan_induction (m := m) generalizing opener with
  | noMark rest hno =>
      refine ⟨[], rest, hrest, ?_, fun t => ?_⟩
      · rw [pieces_noMark opener hno, tokens_noMark hno]
        rfl
      · rw [pieces_append_noMark hm t hrest hno, tokens_noMark hno]
        rfl
  | last rest p hfirst => exact absurd hfirst.1.isInfix hend
  | next rest p k hfirst hE ih =>
      have hafter := afterMark_suffix m rest p k
      have hterm : Terminated nl (afterMark m rest p k) := hrest.isSuffix hafter
      obtain ⟨before, last, hlast, hpieces, hgo⟩ := ih hterm (fun hi => hend (hi.trans hafter.isInfix)) (some k)
      have hopener : (tokens m rest).getLast?.or opener = (tokens m (afterMark m rest p k)).getLast?.or (some k) := by
        rw [tokens_mark hfirst hE, List.getLast?_cons]
        cases (tokens m (afterMark m rest p k)).getLast? <;> rfl
      rw [hopener]
      refine ⟨⟨opener, rest.take p⟩ :: before, last, hlast, ?_, fun t => ?_⟩
      · rw [pieces_mark opener hfirst hE, hpieces]
        rfl
      · have hle : p ≤ rest.length := by
          have hb := hfirst.1.bound (mark_ne_nil m k)
          omega
        rw [pieces_mark opener (FirstMark.append hm t hrest hfirst) hE, afterMark_append hm t hrest hfirst.1, hgo,
          List.take_append_of_le_length hle]
        rfl

theorem tokens_append (hrest : Terminated nl rest) (hend : ¬ m.mark .End <:+: rest) :
    tokens m (rest ++ t) = tokens m rest ++ tokens m t := by
  obtain ⟨before, last, _, hpieces, hgo⟩ := pieces_append hm hrest hend none
  generalize (tokens m rest).getLast?.or none = opener' at hpieces hgo
  obtain ⟨u, ps, hcut, _⟩ := pieces_cons m opener' t
  have hread : tokens m rest = before.filterMap (·.opener) ++ opener'.toList := by
    rw [tokens, hpieces, List.filterMap_append, openers_cons, List.filterMap_nil, List.append_nil]
  have hnew : ps.filterMap (·.opener) = tokens m t := by
    have hall := tokens_pieces opener' t (m := m)
    rwa [hcut, openers_cons, List.append_cancel_left_eq] at hall
  rw [tokens, hgo, hcut, List.modifyHead_cons, List.filterMap_append, openers_cons, hnew, hread, List.append_assoc]

end

section

variable {m : Marker} {rest t : Text} {phase phase' : Phase} {r r' : ExtractedOutput}

theorem marked_foundEnd (k : Kind) (r : ExtractedOutput) :
    (if k = .Error then { r with juliaError := true } else r).foundEnd = r.foundEnd := by
  split <;> rfl

theorem foundEnd_congr (h : r.foundEnd = r'.foundEnd) :
    (extractFrom m phase r rest).foundEnd = (extractFrom m phase' r' rest).foundEnd := by
  induction rest using scan_induction (m := m) generalizing phase phase' r r' with
  | noMark rest hno => rw [extractFrom_noMark _ _ hno, extractFrom_noMark _ _ hno, record_foundEnd, record_foundEnd, h]
  | last rest p hfirst => rw [extractFrom_end _ _ hfirst, extractFrom_end _ _ hfirst]
  | next rest p k hfirst hE ih =>
      rw [extractFrom_mark _ _ hfirst hE, extractFrom_mark _ _ hfirst hE]
      apply ih
      rw [marked_foundEnd, marked_foundEnd, record_foundEnd, record_foundEnd, h]

/-- Closed lines without END do not decide whether END is found. -/
theorem foundEnd_append (hm : m.OneLine) (hrest : Terminated nl rest) (hend : ¬ m.mark .End <:+: rest)
    (h : r.foundEnd = r'.foundEnd) :
    (extractFrom m phase r (rest ++ t)).foundEnd = (extractFrom m phase' r' t).foundEnd := by
  induction rest using scan_induction (m := m) generalizing phase r with
  | noMark rest hno =>
      induction t using scan_induction (m := m) with
      | noMark t ht =>
          rw [extractFrom_noMark _ _ (noMark_append hm hrest hno ht), extractFrom_noMark _ _ ht, record_foundEnd,
            record_foundEnd, h]
      | last t q hfirst =>
          rw [extractFrom_end _ _ (firstMark_append_right hm hrest hno hfirst), extractFrom_end _ _ hfirst]
      | next t q k hfirst hE _ =>
          rw [extractFrom_mark _ _ (firstMark_append_right hm hrest hno hfirst) hE, extractFrom_mark _ _ hfirst hE,
            afterMark_append_right]
          apply foundEnd_congr
          rw [marked_foundEnd, marked_foundEnd, record_foundEnd, record_foundEnd, h]
  | last rest p hfirst => exact absurd hfirst.1.isInfix hend
  | next rest p k hfirst hE ih =>
      have hafter := afterMark_suffix m rest p k
      have hterm : Terminated nl (afterMark m rest p k) := hrest.isSuffix hafter
      rw [extractFrom_mark _ _ (FirstMark.append hm t hrest hfirst) hE, afterMark_append hm t hrest hfirst.1]
      apply ih hterm (fun hi => hend (hi.trans hafter.isInfix))
      rw [marked_foundEnd, record_foundEnd, h]

theorem juliaError_tokens :
    (extractFrom m phase r rest).juliaError = true ↔ r.juliaError = true ∨ .Error ∈ tokens m rest := by
  induction rest using scan_induction (m := m) generalizing phase r with
  | noMark rest hno => simp [extractFrom_noMark _ _ hno, tokens_noMark hno]
  | last rest p hfirst => simp [extractFrom_end _ _ hfirst, tokens_end hfirst]
  | next rest p k hfirst hE ih =>
      rw [extractFrom_mark _ _ hfirst hE, ih, tokens_mark hfirst hE, List.mem_cons]
      by_cases hk : k = .Error
      · simp [hk]
      · simp [hk, Ne.symm hk]

end

theorem at_concat {m : Marker} {k : Kind} {t : Text} {c : UInt8} (hc : c ≠ 95) {p : Nat}
    (h : At (m.mark k) (t ++ [c]) p) : At (m.mark k) t p := by
  have hb := h.bound (mark_ne_nil m k)
  have hpos := List.length_pos_iff.mpr (mark_ne_nil m k)
  rw [List.length_append, List.length_singleton] at hb
  by_cases hle : p + (m.mark k).length ≤ t.length
  · exact (at_append_left [c] hle).mp h
  · have hlast := h.getElem? (i := (m.mark k).length - 1) (by omega)
    have hsolid : (m.mark k)[(m.mark k).length - 1]? = some 95 := by
      obtain ⟨s, hs⟩ := mark_solid m k
      rw [hs]
      simp
    rw [show p + ((m.mark k).length - 1) = t.length by omega, List.getElem?_concat_length, hsolid] at hlast
    exact absurd (Option.some.inj hlast) hc

/-- No token reaches into a line end. -/
theorem at_lineEnd {m : Marker} {k : Kind} {t : Text} {e : LineEnd} {p : Nat}
    (h : At (m.mark k) (t ++ lineEndText e) p) : At (m.mark k) t p := by
  cases e with
  | lf => exact at_concat (by decide) h
  | crlf =>
      have hsplit : t ++ lineEndText .crlf = (t ++ [cr]) ++ [nl] := by simp [lineEndText]
      rw [hsplit] at h
      exact at_concat (by decide) (at_concat (by decide) h)

theorem noMark_beginEnd (m : Marker) (be : LineEnd) : NoMark m (m.beginMark ++ lineEndText be) := by
  intro k hk
  obtain ⟨p, hp⟩ := infix_iff_at.mp hk
  exact mark_not_infix_beginMark m k (at_lineEnd hp).isInfix

/-- In a clean text without END every token is one that the loop passes. -/
theorem infix_iff_tokens {m : Marker} {rest : Text} (hc : Clean m rest) (hend : ¬ m.mark .End <:+: rest) (j : Kind) :
    m.mark j <:+: rest ↔ j ∈ tokens m rest := by
  induction rest using scan_induction (m := m) with
  | noMark rest hno => simp [tokens_noMark hno, hno j]
  | last rest p hfirst => exact absurd hfirst.1.isInfix hend
  | next rest p k hfirst hE ih =>
      have hafter := (afterMark_suffix m rest p k).isInfix
      rw [tokens_mark hfirst hE, List.mem_cons, ← ih (hc.isInfix hafter) fun hi => hend (hi.trans hafter)]
      constructor
      · intro hi
        obtain ⟨q, hq⟩ := infix_iff_at.mp hi
        obtain ⟨d, _, hdrop, hat⟩ := at_afterMark hc hfirst
        rw [hdrop]
        rcases (hat j q).mp hq with ⟨_, rfl⟩ | ⟨_, hq⟩
        · exact .inl rfl
        · exact .inr hq.isInfix
      · rintro (rfl | hi)
        · exact hfirst.1.isInfix
        · exact hi.trans hafter

theorem noMark_pieces {m : Marker} (opener : Option Kind) (rest : Text) :
    ∀ p ∈ pieces m opener rest, NoMark m p.text := by
  induction rest using scan_induction (m := m) generalizing opener with
  | noMark rest hno =>
      rw [pieces_noMark opener hno]
      simpa using hno
  | last rest p hfirst =>
      rw [pieces_end opener hfirst]
      simpa using hfirst.noMark_take
  | next rest p k hfirst hE ih =>
      rw [pieces_mark opener hfirst hE, List.forall_mem_cons]
      exact ⟨hfirst.noMark_take, ih (some k)⟩

theorem quiet_assemble {m : Marker} (hm : m.OneLine) {out : Text} (hout : Quiet m out) {ps : List Piece}
    (hno : ∀ p ∈ ps, NoMark m p.text) (hu : ∀ p ∈ ps, Unsplit m p.text) : Quiet m (assemble out ps) := by
  induction ps generalizing out with
  | nil => exact hout
  | cons p ps ih =>
      obtain ⟨hp, hps⟩ := List.forall_mem_cons.mp hno
      obtain ⟨hpu, hpsu⟩ := List.forall_mem_cons.mp hu
      exact ih (quiet_appendSegment hm hout hp hpu) hps hpsu

section

variable {m : Marker} (hm : m.OneLine) {ks js : List Kind} {rest rest' t : Text} {be be' : LineEnd}
include hm

theorem extract_beginLine (be : LineEnd) (rest : Text) :
    extractBetweenMarkers (m.beginMark ++ (lineEndText be ++ rest)) m =
      extractFrom m .Stdout { foundBegin := true } rest := by
  rw [extract_eq, findPayload_begin m hm be rest]

theorem Begun.quiet (h : Begun m ks rest) :
    QuietSlices m (extractBetweenMarkers (m.beginMark ++ (lineEndText be ++ rest)) m) := by
  have hslice : ∀ phase, Quiet m (slice phase (extractFrom m (phaseOf none) { foundBegin := true } rest)) := by
    intro phase
    rw [slice_extractFrom, slice_begin]
    apply quiet_assemble hm (quiet_nil m)
    · exact fun p hp => noMark_pieces none rest p (List.mem_of_mem_filter hp)
    · exact fun p hp => h.unsplit p (List.mem_of_mem_filter hp)
  rw [extract_beginLine hm]
  exact ⟨hslice .Stdout, hslice .Value, hslice .Error, hslice .Backtrace⟩

theorem Begun.saw (h : Begun m ks rest) (k : Kind) :
    (find (m.mark k) (m.beginMark ++ (lineEndText be ++ rest))).isSome = decide (k ∈ ks) := by
  have hline : Terminated nl (m.beginMark ++ lineEndText be) := terminated_glued [] m.beginMark be
  rw [Bool.eq_iff_iff, find_isSome, decide_eq_true_iff, ← h.reads, ← infix_iff_tokens h.clean h.unended,
    ← List.append_assoc, infix_append_terminated rest hline (nl_notMem_mark hm k) (mark_ne_nil m k)]
  exact or_iff_right (noMark_beginEnd m be k)

omit hm in
theorem Begun.end_notMem (h : Begun m ks rest) : .End ∉ ks := by
  rw [← h.reads, ← infix_iff_tokens h.clean h.unended]
  exact h.unended

theorem routed_append (h : Begun m ks rest) : ∃ before last, ∀ t,
    routed m (m.beginMark ++ (lineEndText be ++ (rest ++ t))) =
      before ++ continued last (routes m ks.getLast? t) := by
  obtain ⟨before, last, _, _, hgo⟩ := pieces_append hm h.terminated h.unended none
  rw [h.reads, Option.or_none] at hgo
  refine ⟨before.map fun p => (phaseOf p.opener, p.text), last, fun t => ?_⟩
  obtain ⟨u, ps, hcut, _⟩ := pieces_cons m ks.getLast? t
  rw [routed, findPayload_begin m hm be]
  dsimp only
  rw [routes, hgo, routes, hcut, List.map_append]
  rfl

/-- The token read last decides where the text that follows goes. -/
theorem Begun.agree {ks' : List Kind} (h : Begun m ks rest) (h' : Begun m ks' rest')
    (hphase : phaseOf ks'.getLast? = phaseOf ks.getLast?) (herror : .Error ∈ ks' ↔ .Error ∈ ks) :
    Agree m (m.beginMark ++ (lineEndText be ++ rest)) (m.beginMark ++ (lineEndText be' ++ rest')) := by
  constructor
  · intro t
    simp only [List.append_assoc]
    rw [extract_beginLine hm, extract_beginLine hm]
    refine ⟨?_, ?_, ?_⟩
    · exact (extractLoop_foundBegin _ _ _ _ _).trans (extractLoop_foundBegin _ _ _ _ _).symm
    · have hread := @foundEnd_append m rest t .Stdout .Stdout { foundBegin := true } { foundBegin := true } hm h.terminated
        h.unended rfl
      have hread' := @foundEnd_append m rest' t .Stdout .Stdout { foundBegin := true } { foundBegin := true } hm
        h'.terminated h'.unended rfl
      rw [hread, hread']
    · rw [Bool.eq_iff_iff, juliaError_tokens, juliaError_tokens, tokens_append hm t h.terminated h.unended,
        tokens_append hm t h'.terminated h'.unended, h.reads, h'.reads, List.mem_append, List.mem_append, herror]
  · obtain ⟨before, last, hread⟩ := @routed_append m hm ks rest be h
    obtain ⟨before', last', hread'⟩ := @routed_append m hm ks' rest' be' h'
    refine ⟨ks.getLast?, before, last, before', last', fun t => ?_⟩
    simp only [List.append_assoc]
    rw [hread, hread', routes_congr hphase]
    exact ⟨rfl, rfl⟩

/-- A text that goes on after one reading goes on after another as well. -/
theorem Begun.append {ks' : List Kind} (h : Begun m ks rest) (hgrown : Begun m (ks ++ js) (rest ++ t))
    (h' : Begun m ks' rest') : Begun m (ks' ++ js) (rest' ++ t) := by
  have hnew : t <:+: rest ++ t := (List.suffix_append rest t).isInfix
  have htokens : tokens m t = js := by
    have hall := hgrown.reads
    rwa [tokens_append hm t h.terminated h.unended, h.reads, List.append_cancel_left_eq] at hall
  refine ⟨h'.terminated.append hgrown.terminated.suffix, h'.clean.append hm h'.terminated (hgrown.clean.isInfix hnew),
    ?_, ?_, ?_⟩
  · rw [infix_append_terminated t h'.terminated (nl_notMem_mark hm .End) (mark_ne_nil m .End), not_or]
    exact ⟨h'.unended, fun hi => hgrown.unended (hi.trans hnew)⟩
  · rw [tokens_append hm t h'.terminated h'.unended, h'.reads, htokens]
  · obtain ⟨before, last, _, _, hgo⟩ := pieces_append hm h.terminated h.unended none
    obtain ⟨before', last', hlast', hread', hgo'⟩ := pieces_append hm h'.terminated h'.unended none
    obtain ⟨u, ps, hcut, _⟩ := pieces_cons m none t
    have hall := hgrown.unsplit
    rw [hgo, pieces_opener, hcut] at hall
    have hold := h'.unsplit
    rw [hread'] at hold
    rw [hgo', pieces_opener, hcut]
    simp only [List.modifyHead_cons, List.mem_append, List.mem_cons, List.not_mem_nil, or_false] at hall hold ⊢
    rintro p (hp | rfl | hp)
    · exact hold p (.inl hp)
    · refine (hold ⟨_, last'⟩ (.inr rfl)).append hm hlast' ?_
      exact (hall ⟨_, last ++ u⟩ (.inr (.inl rfl))).isInfix (List.suffix_append last u).isInfix
    · exact hall p (.inr (.inr hp))

end

end JJMCP.Routing
