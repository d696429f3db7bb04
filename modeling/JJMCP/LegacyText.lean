import JJMCP.Slices
import Mathlib.Data.List.Chain

namespace JJMCP

/-- A line between BEGIN and END: a marker alone on it, or text. -/
inductive BodyLine
  | mark (k : Kind)
  | text (line : Text)
  deriving DecidableEq, Repr

end JJMCP

namespace JJMCP.LegacyText

open Lib.Occurrence Lib.Lines Text Marker Extract Slices

def lineText (m : Marker) : BodyLine → Text
  | .mark k => m.mark k
  | .text line => line

def body (m : Marker) (ls : List BodyLine) : Text := unlines nl (ls.map (lineText m))

def capture (m : Marker) (first : Text) (ls : List BodyLine) (rest : Text) : Text :=
  first ++ nl :: (body m ls ++ (m.mark .End ++ rest))

def Plain (m : Marker) : BodyLine → Prop
  | .mark k => k ≠ .End
  | .text line => nl ∉ line ∧ NoMark m line

instance (m : Marker) (x : BodyLine) : Decidable (Plain m x) :=
  match x with
  | .mark k => inferInstanceAs (Decidable (k ≠ .End))
  | .text line => inferInstanceAs (Decidable (nl ∉ line ∧ NoMark m line))

def textLine : BodyLine → Option Text
  | .mark _ => none
  | .text line => some line

def textLines (ls : List BodyLine) : List Text := ls.filterMap textLine

def runsFrom (run : List Text) : List BodyLine → List (List Text)
  | [] => [run]
  | .mark _ :: ls => run :: runsFrom [] ls
  | .text line :: ls => runsFrom (run ++ [line]) ls

/-- The text lines that stand together, without a marker line between them. -/
def runs (ls : List BodyLine) : List (List Text) := (runsFrom [] ls).filter (· ≠ [])

/-- Neither line next to the marker lines between two runs is blank. -/
def Apart (a b : List Text) : Prop := a.getLast? ≠ some [] ∧ b.head? ≠ some []

instance (a b : List Text) : Decidable (Apart a b) := inferInstanceAs (Decidable (_ ∧ _))

def joined (ls : List Text) : Text := [nl].intercalate ls

/-- What append_segment makes of the runs. -/
def legacy (rs : List (List Text)) : Text := rs.foldl (fun out run => appendSegment out (unlines nl run)) []

theorem flatten_runsFrom (run : List Text) (ls : List BodyLine) :
    (runsFrom run ls).flatten = run ++ textLines ls := by
  induction ls generalizing run with
  | nil => simp [runsFrom, textLines]
  | cons x ls ih =>
      cases x with
      | mark k => simp [runsFrom, textLines, List.filterMap_cons, textLine, ih]
      | text line => simp [runsFrom, textLines, textLine, ih]

theorem flatten_runs (ls : List BodyLine) : (runs ls).flatten = textLines ls := by
  have hall := flatten_runsFrom [] ls
  rw [List.nil_append] at hall
  rw [runs, ← hall]
  induction runsFrom [] ls with
  | nil => rfl
  | cons run rs ih =>
      by_cases hrun : run = []
      · simpa [hrun] using ih
      · simpa [hrun] using ih

section

variable {ls : List Text} (hl : ∀ l ∈ ls, nl ∉ l) (hne : ls ≠ [])
include hl hne

theorem joined_opens : joined ls = [] ∨ (joined ls).head? = some nl ↔ ls.head? = some [] := by
  cases ls with
  | nil => exact absurd rfl hne
  | cons l ls =>
      cases l with
      | nil =>
          cases ls with
          | nil => simp [joined, List.intercalate_singleton]
          | cons l' ls => simp [joined, List.intercalate_cons_cons]
      | cons c cs =>
          have hc : c ≠ nl := fun h => hl (c :: cs) (by simp) (by simp [h])
          cases ls with
          | nil => simp [joined, List.intercalate_singleton, hc]
          | cons l' ls => simp [joined, List.intercalate_cons_cons, hc]

theorem joined_closes : joined ls = [] ∨ (joined ls).getLast? = some nl ↔ ls.getLast? = some [] := by
  obtain rfl | ⟨xs, l, rfl⟩ := List.eq_nil_or_concat ls
  · exact absurd rfl hne
  · rw [List.concat_eq_append] at hl ⊢
    have hjoin : xs ≠ [] → joined (xs ++ [l]) = joined xs ++ nl :: l := fun hxs => by
      rw [joined, intercalate_append hxs (by simp), List.intercalate_singleton]
      rfl
    obtain rfl | ⟨ys, y, rfl⟩ := List.eq_nil_or_concat l
    · by_cases hxs : xs = []
      · simp [joined, List.intercalate_singleton, hxs]
      · simp [hjoin hxs]
    · have hy : y ≠ nl := fun h => hl (ys.concat y) (by simp) (by simp [h])
      by_cases hxs : xs = []
      · simp [joined, List.intercalate_singleton, hxs, hy]
      · rw [hjoin hxs, List.concat_eq_append, ← List.cons_append, ← List.append_assoc, List.getLast?_concat,
          List.getLast?_concat]
        simp [hy]

end

theorem joined_append {as bs : List Text} (ha : as ≠ []) (hb : bs ≠ []) :
    joined (as ++ bs) = joined as ++ nl :: joined bs := intercalate_append ha hb

theorem cr_notMem_joined {ls : List Text} (h : ∀ l ∈ ls, cr ∉ l) : cr ∉ joined ls := by
  induction ls with
  | nil => exact List.not_mem_nil
  | cons l ls ih =>
      by_cases hls : ls = []
      · simpa [joined, hls, List.intercalate_singleton] using h l
      · have hjoin : joined ([l] ++ ls) = joined [l] ++ nl :: joined ls := joined_append (by simp) hls
        rw [List.singleton_append] at hjoin
        rw [hjoin, List.mem_append, List.mem_cons, not_or, not_or]
        refine ⟨?_, by decide, ih fun l' hl' => h l' (by simp [hl'])⟩
        simpa [joined, List.intercalate_singleton] using h l (by simp)

theorem markerSegmentText_run {run : List Text} (hcr : ∀ l ∈ run, cr ∉ l) (hne : run ≠ []) :
    markerSegmentText (unlines nl run) = joined run := by
  rw [← intercalate_concat hne]
  exact markerSegmentText_concat (cr_notMem_joined hcr)

/-- append_segment on a run: its lines joined, with a newline before them unless
one of the two texts has one there, and nothing for no text. -/
theorem appendSegment_run {run : List Text} (hcr : ∀ l ∈ run, cr ∉ l) (hne : run ≠ []) (out : Text) :
    appendSegment out (unlines nl run) = if joined run = [] then out
      else (if out ≠ [] ∧ out.getLast? ≠ some nl ∧ (joined run).head? ≠ some nl then out ++ [nl] else out) ++
        joined run := by
  rw [appendSegment, markerSegmentText_run hcr hne]

structure PlainRun (run : List Text) : Prop where
  nonempty : run ≠ []
  oneLine : ∀ l ∈ run, nl ∉ l
  noCr : ∀ l ∈ run, cr ∉ l

theorem appendSegment_apart {ls run : List Text} (hl : ∀ l ∈ ls, nl ∉ l) (hls : ls ≠ []) (hrun : PlainRun run)
    (hlast : ls.getLast? ≠ some []) (hhead : run.head? ≠ some []) :
    appendSegment (joined ls) (unlines nl run) = joined (ls ++ run) := by
  obtain ⟨hne, hone, hcr⟩ := hrun
  obtain ⟨hout, hoff⟩ := not_or.mp (mt (joined_closes hl hls).mp hlast)
  obtain ⟨hin, hon⟩ := not_or.mp (mt (joined_opens hone hne).mp hhead)
  rw [appendSegment_run hcr hne, if_neg hin, if_pos ⟨hout, hoff, hon⟩, joined_append hls hne, List.append_assoc,
    List.singleton_append]

theorem appendSegment_run_length {run : List Text} (hrun : PlainRun run) (out : Text) :
    (appendSegment out (unlines nl run)).length ≤ out.length + 1 + (joined run).length := by
  have hle := appendSegment_length_le out (unlines nl run)
  rwa [markerSegmentText_run hrun.noCr hrun.nonempty] at hle

/-- A blank line at the junction costs a newline. -/
theorem appendSegment_length_lt {ls run : List Text} (hl : ∀ l ∈ ls, nl ∉ l) (hls : ls ≠ []) (hrun : PlainRun run)
    (h : ls.getLast? = some [] ∨ run.head? = some []) :
    (appendSegment (joined ls) (unlines nl run)).length < (joined ls).length + 1 + (joined run).length := by
  rw [appendSegment_run hrun.noCr hrun.nonempty]
  split
  · omega
  next hin =>
    rw [if_neg, List.length_append]
    · omega
    · rintro ⟨hout, hoff, hon⟩
      rcases h with h | h
      · exact ((joined_closes hl hls).mpr h).elim hout hoff
      · exact ((joined_opens hrun.oneLine hrun.nonempty).mpr h).elim hin hon

theorem legacy_concat (rs : List (List Text)) (run : List Text) :
    legacy (rs ++ [run]) = appendSegment (legacy rs) (unlines nl run) := by
  simp [legacy]

/-- Either every junction is plain and the runs come out joined, or a newline is
lost for good. -/
theorem legacy_cases {rs : List (List Text)} (h : ∀ run ∈ rs, PlainRun run) :
    (rs.IsChain Apart → legacy rs = joined rs.flatten) ∧
      (¬ rs.IsChain Apart → (legacy rs).length < (joined rs.flatten).length) := by
  induction rs using List.reverseRecOn with
  | nil => exact ⟨fun _ => rfl, fun hn => absurd .nil hn⟩
  | append_singleton rs run ih =>
      have hrun : PlainRun run := h run (by simp)
      have hrs : ∀ r ∈ rs, PlainRun r := fun r hr => h r (by simp [hr])
      obtain ⟨hjoined, hshort⟩ := ih hrs
      rw [legacy_concat, List.flatten_append, List.flatten_singleton]
      obtain rfl | ⟨vs, a, rfl⟩ := List.eq_nil_or_concat rs
      · refine ⟨fun _ => ?_, fun hn => absurd (.singleton run) hn⟩
        change appendSegment [] (unlines nl run) = joined run
        rw [appendSegment_nil_left, ← intercalate_concat hrun.nonempty]
        exact markerSegmentText_concat (cr_notMem_joined hrun.noCr)
      · rw [List.concat_eq_append] at hrs hjoined hshort ⊢
        have ha : PlainRun a := hrs a (by simp)
        have hl : ∀ l ∈ (vs ++ [a]).flatten, nl ∉ l := by
          intro l hl
          obtain ⟨r, hr, hlr⟩ := List.mem_flatten.mp hl
          exact (hrs r hr).oneLine l hlr
        have hflat : (vs ++ [a]).flatten = vs.flatten ++ a := by simp
        have hls : (vs ++ [a]).flatten ≠ [] := by
          rw [hflat]
          exact fun hnil => ha.nonempty (List.append_eq_nil_iff.mp hnil).2
        have hlast : (vs ++ [a]).flatten.getLast? = a.getLast? := by
          rw [hflat, List.getLast?_append_of_ne_nil _ ha.nonempty]
        have hchain : (vs ++ [a] ++ [run]).IsChain Apart ↔ (vs ++ [a]).IsChain Apart ∧ Apart a run := by
          rw [List.isChain_append]
          simp
        have hlen : (joined ((vs ++ [a]).flatten ++ run)).length =
            (joined (vs ++ [a]).flatten).length + 1 + (joined run).length := by
          rw [joined_append hls hrun.nonempty, List.length_append, List.length_cons]
          omega
        rw [hchain]
        constructor
        · rintro ⟨hprior, hlastline, hfirst⟩
          rw [hjoined hprior]
          exact appendSegment_apart hl hls hrun (hlast ▸ hlastline) hfirst
        · intro hn
          rw [hlen]
          by_cases hprior : (vs ++ [a]).IsChain Apart
          · rw [hjoined hprior]
            refine appendSegment_length_lt hl hls hrun ?_
            rw [hlast]
            by_contra hboth
            exact hn ⟨hprior, not_or.mp hboth⟩
          · have hle := appendSegment_run_length hrun (legacy (vs ++ [a]))
            have hlt := hshort hprior
            omega

section

variable {m : Marker}

theorem noMark_unlines (hm : m.OneLine) {ls : List Text} (h : ∀ l ∈ ls, NoMark m l) : NoMark m (unlines nl ls) := by
  intro k hk
  obtain ⟨l, hl, hkl⟩ := (infix_unlines ls (nl_notMem_mark hm k) (mark_ne_nil m k)).mp hk
  exact h l hl k hkl

/-- The pieces of the payload are the runs of its text lines. -/
theorem pieces_body (hm : m.OneLine) {ls : List BodyLine} (h : ∀ x ∈ ls, Plain m x) (rest : Text) (opener : Option Kind)
    {run : List Text} (hrun : ∀ l ∈ run, NoMark m l) :
    (pieces m opener (unlines nl run ++ (body m ls ++ (m.mark .End ++ rest)))).map Piece.text =
      (runsFrom run ls).map (unlines nl) := by
  have hno := noMark_unlines hm hrun
  have hterm : Terminated nl (unlines nl run) := terminated_unlines run
  induction ls generalizing run opener with
  | nil =>
      have hfirst := firstMark_after hm hterm hno .End rest
      change (pieces m opener (unlines nl run ++ (m.mark .End ++ rest))).map Piece.text = _
      rw [pieces_end opener hfirst, List.take_left]
      rfl
  | cons x ls ih =>
      have hls : ∀ x ∈ ls, Plain m x := fun x hx => h x (by simp [hx])
      cases x with
      | mark k =>
          have hk : k ≠ .End := h (.mark k) (by simp)
          have hbody : body m (.mark k :: ls) ++ (m.mark .End ++ rest) =
              m.mark k ++ (nl :: (body m ls ++ (m.mark .End ++ rest))) := by
            simp [body, lineText]
          rw [hbody]
          have hfirst := firstMark_after hm hterm hno k (nl :: (body m ls ++ (m.mark .End ++ rest)))
          have hafter : afterMark m (unlines nl run ++ (m.mark k ++ nl :: (body m ls ++ (m.mark .End ++ rest))))
              (unlines nl run).length k = unlines nl [] ++ (body m ls ++ (m.mark .End ++ rest)) := by
            rw [afterMark, ← List.drop_drop, List.drop_left, List.drop_left]
            rfl
          rw [pieces_mark opener hfirst hk, hafter, List.map_cons, List.take_left, runsFrom, List.map_cons]
          congr 1
          exact ih hls (some k) (fun l hl => absurd hl List.not_mem_nil) (noMark_nil m) terminated_nil
      | text line =>
          have hline : NoMark m line := (h (.text line) (by simp)).2
          have hbody : unlines nl run ++ (body m (.text line :: ls) ++ (m.mark .End ++ rest)) =
              unlines nl (run ++ [line]) ++ (body m ls ++ (m.mark .End ++ rest)) := by
            simp [body, lineText, unlines_append]
          have hmore : ∀ l ∈ run ++ [line], NoMark m l := by
            intro l hl
            rcases List.mem_append.mp hl with hl | hl
            · exact hrun l hl
            · exact List.mem_singleton.mp hl ▸ hline
          rw [hbody, runsFrom]
          exact ih hls opener hmore (noMark_unlines hm hmore) (terminated_unlines _)

theorem legacy_runs (ls : List BodyLine) : legacy (runsFrom [] ls) = legacy (runs ls) := by
  rw [legacy, legacy, runs]
  generalize ([] : Text) = out
  induction runsFrom [] ls generalizing out with
  | nil => rfl
  | cons run rs ih =>
      by_cases hrun : run = []
      · simpa [hrun] using ih out
      · simpa [hrun] using ih (appendSegment out (unlines nl run))

theorem text_mem {ls : List BodyLine} {run : List Text} (hrun : run ∈ runs ls) {l : Text} (hl : l ∈ run) :
    .text l ∈ ls := by
  have hmem : l ∈ textLines ls := by
    rw [← flatten_runs]
    exact List.mem_flatten.mpr ⟨run, hrun, hl⟩
  obtain ⟨x, hx, hline⟩ := List.mem_filterMap.mp hmem
  cases x with
  | mark k => exact absurd hline (by simp [textLine])
  | text line =>
      obtain rfl := Option.some.inj hline
      exact hx

variable {first : Text} {ls : List BodyLine} {rest : Text}

theorem plainRun_of_capture (h : ∀ x ∈ ls, Plain m x) (hcr : cr ∉ capture m first ls rest) :
    ∀ run ∈ runs ls, PlainRun run := by
  intro run hrun
  refine ⟨by simpa using (List.mem_filter.mp hrun).2, fun l hl => (h _ (text_mem hrun hl)).1, fun l hl hc => hcr ?_⟩
  have hbody : cr ∈ body m ls := by
    refine List.mem_flatMap.mpr ⟨l, List.mem_map.mpr ⟨.text l, text_mem hrun hl, rfl⟩, ?_⟩
    exact List.mem_append_left _ hc
  simp [capture, hbody]

/-- The BEGIN line, any body and the END line: the text is what append_segment
makes of the runs. -/
theorem extract_capture (h : ∀ x ∈ ls, Plain m x) (hfirst : nl ∉ first) (hbegin : trimAscii first = m.beginMark) :
    (extractBetweenMarkers (capture m first ls rest) m).text = legacy (runs ls) := by
  have hm : m.OneLine := by
    rw [← nl_notMem_beginMark, ← hbegin]
    exact fun hn => hfirst ((trimAscii_isInfix first).subset hn)
  have hline := findPayload_line m.beginMark [] first (body m ls ++ (m.mark .End ++ rest)) hfirst
  rw [List.nil_append, hbegin, if_pos rfl] at hline
  have hnone : ∀ l ∈ ([] : List Text), NoMark m l := fun l hl => absurd hl List.not_mem_nil
  have hpieces := pieces_body hm h rest none hnone
  rw [unlines_nil, List.nil_append] at hpieces
  rw [extract_eq, capture, findMarkerLinePayloadStart, hline]
  change (extractFrom m (phaseOf none) _ _).text = _
  rw [text_extractFrom, ← legacy_runs, legacy, ← List.foldl_map, ← hpieces, List.foldl_map]
  rfl

/-- The text is the text lines, verbatim, exactly when no blank line stands next
to marker lines that have a text line on their other side. -/
theorem legacy_text_iff (h : ∀ x ∈ ls, Plain m x) (hfirst : nl ∉ first) (hbegin : trimAscii first = m.beginMark)
    (hcr : cr ∉ capture m first ls rest) :
    (extractBetweenMarkers (capture m first ls rest) m).text = [nl].intercalate (textLines ls) ↔
      (runs ls).IsChain Apart := by
  obtain ⟨hjoined, hshort⟩ := legacy_cases (plainRun_of_capture h hcr)
  rw [flatten_runs] at hjoined hshort
  rw [extract_capture h hfirst hbegin]
  constructor
  · intro heq
    by_contra hn
    have hlt := hshort hn
    rw [heq] at hlt
    exact Nat.lt_irrefl _ hlt
  · exact hjoined

theorem legacy_text_value :
    (extractBetweenMarkers (capture (makeMarker (lit "1")) (lit "__JJMCP_BEGIN_1__ ")
      [.text [], .text (lit "a"), .mark .OutEnd, .text (lit "42"), .mark .ValEnd] []) (makeMarker (lit "1"))).text =
      [nl].intercalate [[], lit "a", lit "42"] :=
  (@legacy_text_iff (makeMarker (lit "1")) (lit "__JJMCP_BEGIN_1__ ")
    [.text [], .text (lit "a"), .mark .OutEnd, .text (lit "42"), .mark .ValEnd] []
    (by decide +kernel) (by decide) (by decide +kernel) (by decide +kernel)).mpr
      (List.isChain_pair.mpr (by decide +kernel))

/-- The blank line that closes the output before OUT_END is lost. -/
theorem not_legacy_text :
    ¬ ∀ (m : Marker) (first : Text) (ls : List BodyLine) (rest : Text), (∀ x ∈ ls, Plain m x) → nl ∉ first →
      trimAscii first = m.beginMark → cr ∉ capture m first ls rest →
      (extractBetweenMarkers (capture m first ls rest) m).text = [nl].intercalate (textLines ls) := by
  intro h
  have htext := h (makeMarker (lit "1")) (lit "__JJMCP_BEGIN_1__")
    [.text (lit "a"), .text [], .mark .OutEnd, .text (lit "42"), .mark .ValEnd] [nl]
    (by decide +kernel) (by decide) (by decide +kernel) (by decide +kernel)
  exact absurd htext (by decide +kernel)

end

end JJMCP.LegacyText
