import JJMCP.Compaction
import JJMCP.LineTruncation

namespace JJMCP

open Text in
/-- The lines of a growing pane. The marker's BEGIN is one of them and stands
nowhere else, and every token of the marker comes after it. -/
structure Pane (m : Marker) where
  lines : List Text
  oneLine : ∀ l ∈ lines, nl ∉ l
  beginLine : Nat
  begin_at : lines[beginLine]? = some m.beginMark
  begin_only : ∀ i l, lines[i]? = some l → m.beginMark <:+: l → i = beginLine
  begin_first : ∀ i l k, lines[i]? = some l → m.mark k <:+: l → beginLine < i

/-- A capture shows the lines from first on, up to and without last. -/
structure Window where
  first : Nat
  last : Nat
  deriving DecidableEq, Repr

end JJMCP

namespace JJMCP.PollComplete

open Lib.Occurrence Lib.Lines Text Marker Extract Tokens Truncate Poll Compaction

variable {m : Marker}

def text (P : Pane m) : Text := unlines nl P.lines

def shown (P : Pane m) (a b : Nat) : Text := unlines nl ((P.lines.take b).drop a)

abbrev capture (P : Pane m) (w : Window) : Text := shown P w.first w.last

def input (P : Pane m) (w : Window) : PollInput := { captured := .ok (capture P w) }

/-- The pane grows at its end, so no window starts before an earlier one. -/
def Forward (ws : List Window) : Prop := ws.Pairwise (fun v w => v.first ≤ w.first)

theorem beginMark_not_infix_nil (m : Marker) : ¬ m.beginMark <:+: ([] : Text) :=
  fun h => beginMark_ne_nil m (List.infix_nil.mp h)

theorem pane_oneLine (P : Pane m) : m.OneLine :=
  nl_notMem_beginMark.mp (P.oneLine _ (List.mem_of_getElem? P.begin_at))

theorem shown_oneLine (P : Pane m) (a b : Nat) : ∀ l ∈ (P.lines.take b).drop a, nl ∉ l :=
  fun l hl => P.oneLine l (List.mem_of_mem_take (List.mem_of_mem_drop hl))

theorem shown_terminated (P : Pane m) (a b : Nat) : Terminated nl (shown P a b) :=
  terminated_unlines _

theorem unlines_isInfix {as bs : List Text} (h : as <:+: bs) : unlines nl as <:+: unlines nl bs := by
  obtain ⟨a, b, rfl⟩ := h
  rw [unlines_append, unlines_append]
  exact ⟨unlines nl a, unlines nl b, rfl⟩

theorem shown_isInfix (P : Pane m) (a b : Nat) : shown P a b <:+: text P :=
  unlines_isInfix ((List.drop_suffix _ _).isInfix.trans (List.take_prefix _ _).isInfix)

theorem infix_shown (P : Pane m) {pat : Text} (hnl : nl ∉ pat) (hne : pat ≠ []) {a b : Nat} :
    pat <:+: shown P a b ↔ ∃ i l, a ≤ i ∧ i < b ∧ P.lines[i]? = some l ∧ pat <:+: l := by
  rw [shown, infix_unlines _ hnl hne]
  constructor
  · rintro ⟨l, hl, h⟩
    obtain ⟨i, hi⟩ := List.mem_iff_getElem?.mp hl
    rw [List.getElem?_drop, List.getElem?_take] at hi
    split at hi
    · exact ⟨a + i, l, by omega, by omega, hi, h⟩
    · simp at hi
  · rintro ⟨i, l, hf, hlt, hi, h⟩
    refine ⟨l, List.mem_iff_getElem?.mpr ⟨i - a, ?_⟩, h⟩
    rw [List.getElem?_drop, List.getElem?_take, show a + (i - a) = i by omega, if_pos hlt, hi]

theorem infix_begin (P : Pane m) {a b : Nat} :
    m.beginMark <:+: shown P a b ↔ a ≤ P.beginLine ∧ P.beginLine < b := by
  rw [infix_shown P (nl_notMem_beginMark.mpr (pane_oneLine P)) (beginMark_ne_nil m)]
  constructor
  · rintro ⟨i, l, hf, hl, hi, h⟩
    obtain rfl := P.begin_only i l hi h
    exact ⟨hf, hl⟩
  · rintro ⟨hf, hl⟩
    exact ⟨P.beginLine, _, hf, hl, P.begin_at, List.infix_rfl⟩

theorem infix_mark (P : Pane m) (k : Kind) {a b : Nat} :
    m.mark k <:+: shown P a b ↔ ∃ i l, a ≤ i ∧ i < b ∧ P.lines[i]? = some l ∧ m.mark k <:+: l :=
  infix_shown P (nl_notMem_mark (pane_oneLine P) k) (mark_ne_nil m k)

theorem noMark_upto_begin (P : Pane m) {a b : Nat} (h : b ≤ P.beginLine + 1) : NoMark m (shown P a b) := by
  intro k hk
  obtain ⟨i, l, _, hlt, hi, hl⟩ := (infix_mark P k).mp hk
  have := P.begin_first i l k hi hl
  omega

theorem shown_split (P : Pane m) {a b n : Nat} (han : a ≤ n) (hnb : n ≤ b) :
    shown P a b = shown P a n ++ shown P n b := by
  have hl : (P.lines.take b).drop a = (P.lines.take n).drop a ++ (P.lines.take b).drop n := by
    have ht : P.lines.take b = P.lines.take n ++ (P.lines.take b).drop n := by
      have := List.take_append_drop n (P.lines.take b)
      rwa [List.take_take, Nat.min_eq_left hnb, eq_comm] at this
    by_cases hn : n ≤ P.lines.length
    · conv_lhs => rw [ht]
      rw [List.drop_append_of_le_length (by rw [List.length_take]; omega)]
    · rw [List.take_of_length_le (show P.lines.length ≤ b by omega),
        List.take_of_length_le (show P.lines.length ≤ n by omega),
        List.drop_eq_nil_of_le (show P.lines.length ≤ n by omega), List.append_nil]
  rw [shown, shown, shown, ← unlines_append]
  exact congrArg _ hl

theorem shown_begin (P : Pane m) {a b : Nat} (ha : a ≤ P.beginLine) (hb : P.beginLine < b) :
    shown P a b = shown P a P.beginLine ++ (m.beginMark ++ nl :: shown P (P.beginLine + 1) b) := by
  have hline : shown P P.beginLine (P.beginLine + 1) = m.beginMark ++ [nl] := by
    have hlt := (List.getElem?_eq_some_iff.mp P.begin_at).1
    have hdrop : (P.lines.take P.beginLine).drop P.beginLine = [] := List.drop_eq_nil_of_le (by simp)
    have htake : P.beginLine ≤ (P.lines.take P.beginLine).length := by
      rw [List.length_take]
      omega
    simp only [shown, List.take_add_one, P.begin_at, Option.toList_some,
      List.drop_append_of_le_length htake, hdrop]
    simp
  rw [shown_split P ha (Nat.le_of_lt hb), shown_split P (Nat.le_succ P.beginLine) hb, hline]
  simp

theorem shown_tidy {P : Pane m} (hc : Clean m (text P)) (hu : Unsplit m (text P)) (a b : Nat) :
    Tidy m (shown P a b) :=
  ⟨shown_terminated P a b, hc.isInfix (shown_isInfix P a b), hu.isInfix (shown_isInfix P a b)⟩

/-- The splice adds the last lines of the capture; those it leaves out were in
the capture before. -/
theorem splice_capture (P : Pane m) {s : PollState} (hlast : Terminated nl s.lastCapture) (w : Window) :
    ∃ n old, w.first ≤ n ∧ old <:+ s.lastCapture ∧ Terminated nl old ∧
      capture P w = old ++ shown P n w.last ∧ splice s (capture P w) = s.accumulator ++ shown P n w.last := by
  obtain ⟨old, new, hcap, hold, hsplice⟩ := splice_eq s (capture P w)
  have hterm : Terminated nl old := by
    obtain ⟨r, hr⟩ := hold
    exact (hr ▸ hlast).suffix
  obtain ⟨k, _, hnew⟩ := unlines_split (shown_oneLine P w.first w.last) hterm hcap
  rw [List.drop_drop] at hnew
  rw [hnew] at hcap hsplice
  exact ⟨w.first + k, old, by omega, hold, hterm, hcap, hsplice⟩

structure Unseen (P : Pane m) (ws : List Window) (s : PollState) : Prop where
  quiet : ∀ w ∈ ws, ¬ m.beginMark <:+: capture P w
  lastCapture : s.lastCapture = [] ∨ ∃ w ∈ ws, s.lastCapture = capture P w
  terminated : Terminated nl s.accumulator
  accumulator : ¬ m.beginMark <:+: s.accumulator
  notTrimmed : s.beginTrimmed = false
  notFound : s.lastExtract.foundBegin = false

/-- After BEGIN the accumulator starts with its line, and the rest knows the
ERROR of every capture so far; none of them showed END. -/
structure Seen (P : Pane m) (ws : List Window) (s : PollState) : Prop where
  running : ∀ w ∈ ws, ¬ m.mark .End <:+: capture P w
  lastCapture : ∃ w ∈ ws, s.lastCapture = capture P w
  accumulator : ∃ rest, s.accumulator = m.beginMark ++ nl :: rest ∧ Tidy m rest ∧
    ¬ m.mark .End <:+: rest ∧
    (m.mark .Error <:+: rest ↔ ∃ w ∈ ws, m.mark .Error <:+: capture P w)
  trimmed : s.beginTrimmed = true
  found : s.lastExtract.foundBegin = true

def ErrorSeen (P : Pane m) (ws : List Window) (w : Window) : Prop :=
  (∃ v ∈ ws, m.mark .Error <:+: capture P v) ∨ ErrorBeforeEnd m (capture P w)

structure Reading (P : Pane m) (ws : List Window) (w : Window) (s : PollState) : Prop where
  lastCapture : s.lastCapture = capture P w
  accumulator : ∃ rest, s.accumulator = m.beginMark ++ nl :: rest ∧ Tidy m rest ∧
    (m.mark .End <:+: rest ↔ m.mark .End <:+: capture P w) ∧ (ErrorBeforeEnd m rest ↔ ErrorSeen P ws w)
  trimmed : s.beginTrimmed = true
  found : s.lastExtract.foundBegin = true
  foundEnd : s.lastExtract.foundEnd = true ↔ m.mark .End <:+: capture P w
  juliaError : m.mark .End <:+: capture P w → (s.lastExtract.juliaError = true ↔ ErrorSeen P ws w)
  slices : QuietSlices m s.lastExtract

theorem terminated_lastCapture (P : Pane m) {ws : List Window} {s : PollState}
    (h : s.lastCapture = [] ∨ ∃ w ∈ ws, s.lastCapture = capture P w) : Terminated nl s.lastCapture := by
  rcases h with h | ⟨w, _, h⟩
  · rw [h]
    exact terminated_nil
  · rw [h]
    exact shown_terminated P _ _

theorem noMark_of_noBegin (P : Pane m) {a b : Nat} (ha : a ≤ P.beginLine)
    (h : ¬ m.beginMark <:+: shown P a b) : NoMark m (shown P a b) := by
  refine noMark_upto_begin P ?_
  by_contra hl
  exact h ((infix_begin P).mpr ⟨ha, by omega⟩)

/-- With END in the live capture, an ERROR of an earlier capture is in it too,
before END, when it reaches back to BEGIN. -/
theorem errorBeforeEnd_of_earlier (P : Pane m) {v w : Window} (hvw : v.first ≤ w.first)
    (hw : w.first ≤ P.beginLine) (hend : m.mark .End <:+: capture P w)
    (hrun : ¬ m.mark .End <:+: capture P v) (herr : m.mark .Error <:+: capture P v) :
    ErrorBeforeEnd m (capture P w) := by
  obtain ⟨e, le, _, hev, hle, herr⟩ := (infix_mark P .Error).mp herr
  obtain ⟨z, lz, hwz, hzw, hlz, hend⟩ := (infix_mark P .End).mp hend
  have hbe := P.begin_first e le .Error hle herr
  have hez : e < z := by
    by_contra hn
    exact hrun ((infix_mark P .End).mpr ⟨z, lz, by omega, by omega, hlz, hend⟩)
  have hearly : ¬ m.mark .End <:+: shown P w.first (e + 1) := by
    intro h
    obtain ⟨i, l, hfi, hie, hi, hl⟩ := (infix_mark P .End).mp h
    exact hrun ((infix_mark P .End).mpr ⟨i, l, by omega, by omega, hi, hl⟩)
  rw [capture, shown_split P (show w.first ≤ e + 1 by omega) (show e + 1 ≤ w.last by omega),
    errorBeforeEnd_append (pane_oneLine P) _ (shown_terminated P _ _) hearly]
  exact .inl ((infix_mark P .Error).mpr ⟨e, le, by omega, by omega, hle, herr⟩)

theorem find_beginMark {pre : Text} (rest : Text) (hm : m.OneLine) (ht : Terminated nl pre)
    (hno : ¬ m.beginMark <:+: pre) :
    find m.beginMark (pre ++ (m.beginMark ++ rest)) = some pre.length := by
  refine find_eq_some.mpr ⟨by simp, at_length _ _ _, ?_⟩
  intro q hq hat
  rcases (at_append_terminated _ ht (nl_notMem_beginMark.mpr hm) (beginMark_ne_nil m) q).mp hat with
    ⟨_, h⟩ | ⟨hl, _⟩
  · exact hno h.isInfix
  · omega

theorem lineStart_beginMark {pre : Text} (rest : Text) (ht : Terminated nl pre) :
    lineStart (pre ++ (m.beginMark ++ rest)) pre.length = pre.length := by
  obtain ⟨c, cs, hcs, hc⟩ : ∃ c cs, m.beginMark = c :: cs ∧ c ≠ nl := by
    obtain ⟨s, hs⟩ := beginMark_solid m
    exact ⟨95, s ++ [95], by simpa using hs, by decide⟩
  have htake : (pre ++ (m.beginMark ++ rest)).take (pre.length + 1) = pre ++ [c] := by
    rw [List.take_append, hcs]
    simp
  rw [lineStart, htake, List.rdropWhile_concat_pos _ _ _ (by simpa using hc)]
  rcases ht with rfl | ⟨t, rfl⟩
  · rfl
  · rw [List.rdropWhile_concat_neg _ _ _ (by simp)]

theorem trim_accumulator {s : PollState} {pre rest : Text} (hm : m.OneLine) (ht : Terminated nl pre)
    (hno : ¬ m.beginMark <:+: pre) (hacc : s.accumulator = pre ++ (m.beginMark ++ rest))
    (htrim : s.beginTrimmed = false) (hfound : s.lastExtract.foundBegin = true) :
    trimAtBegin m s = { s with accumulator := m.beginMark ++ rest, beginTrimmed := true } := by
  rw [trimAtBegin, if_pos ⟨htrim, hfound⟩, hacc, find_beginMark rest hm ht hno]
  simp only [lineStart_beginMark rest ht, List.drop_left]

section Turn

variable {P : Pane m} (hc : Clean m (text P)) (hu : Unsplit m (text P)) {ws : List Window} {w : Window}
  {s : PollState}
include hc hu

theorem capture_reads (hbegin : m.beginMark <:+: capture P w) (acc : Text) :
    Reads m (capture P w) (extractCapture m (capture P w) acc) := by
  obtain ⟨hf, hl⟩ := (infix_begin P).mp hbegin
  have hno : ¬ m.beginMark <:+: shown P w.first P.beginLine := fun h => by
    have := ((infix_begin P).mp h).2
    omega
  have hreads := extract_reads (pane_oneLine P) (shown_terminated P _ _) hno
    (noMark_upto_begin P (by omega)) (shown_tidy hc hu (P.beginLine + 1) w.last)
  rw [← shown_begin P hf hl] at hreads
  have he : extractCapture m (capture P w) acc = extractBetweenMarkers (capture P w) m := by
    rw [extractCapture, if_pos hreads.found]
  rw [he]
  exact hreads

theorem read_unseen (h : Unseen P ws s) (hforward : ∀ v ∈ ws, v.first ≤ w.first)
    (hbegin : m.beginMark <:+: capture P w) :
    Reading P ws w (trimAtBegin m (readCapture m (capture P w) s)) := by
  have hm := pane_oneLine P
  obtain ⟨hf, hl⟩ := (infix_begin P).mp hbegin
  obtain ⟨n, old, hn, hold, hterm, hcap, hsplice⟩ :=
    splice_capture P (terminated_lastCapture P h.lastCapture) w
  have hlast : ¬ m.beginMark <:+: s.lastCapture := by
    rcases h.lastCapture with he | ⟨v, hv, he⟩
    · rw [he]
      exact beginMark_not_infix_nil m
    · rw [he]
      exact h.quiet v hv
  have hnew : m.beginMark <:+: shown P n w.last := by
    rw [hcap] at hbegin
    exact ((infix_append_terminated _ hterm (nl_notMem_beginMark.mpr hm) (beginMark_ne_nil m)).mp
      hbegin).resolve_left fun hi => hlast (hi.trans hold.isInfix)
  obtain ⟨hnb, _⟩ := (infix_begin P).mp hnew
  have hpre : ¬ m.beginMark <:+: s.accumulator ++ shown P n P.beginLine := by
    rw [infix_append_terminated _ h.terminated (nl_notMem_beginMark.mpr hm) (beginMark_ne_nil m), not_or]
    refine ⟨h.accumulator, fun hi => ?_⟩
    have := ((infix_begin P).mp hi).2
    omega
  have hacc : splice s (capture P w) = (s.accumulator ++ shown P n P.beginLine) ++
      (m.beginMark ++ nl :: shown P (P.beginLine + 1) w.last) := by
    rw [hsplice, shown_begin P hnb hl, List.append_assoc]
  have hreads := capture_reads hc hu hbegin (splice s (capture P w))
  have hcap' : capture P w = shown P w.first P.beginLine ++
      (m.beginMark ++ nl :: shown P (P.beginLine + 1) w.last) := shown_begin P hf hl
  have hquiet : NoMark m (shown P w.first P.beginLine) := noMark_upto_begin P (by omega)
  have hend : m.mark .End <:+: shown P (P.beginLine + 1) w.last ↔ m.mark .End <:+: capture P w := by
    rw [hcap']
    exact (infix_after_begin hm _ (shown_terminated P _ _) hquiet .End).symm
  have hearly : ¬ ∃ v ∈ ws, m.mark .Error <:+: capture P v := by
    rintro ⟨v, hv, he⟩
    have := hforward v hv
    exact noMark_of_noBegin P (by omega) (h.quiet v hv) .Error he
  have herr : ErrorBeforeEnd m (capture P w) ↔ ErrorSeen P ws w := (or_iff_right hearly).symm
  have herr' : ErrorBeforeEnd m (shown P (P.beginLine + 1) w.last) ↔ ErrorSeen P ws w := by
    rw [← herr, hcap']
    exact (error_after_begin hm _ (shown_terminated P _ _) hquiet).symm
  rw [trim_accumulator (s := readCapture m (capture P w) s) hm
    (h.terminated.append (shown_terminated P n P.beginLine)) hpre hacc h.notTrimmed hreads.found]
  exact ⟨rfl, ⟨_, rfl, shown_tidy hc hu _ _, hend, herr'⟩, rfl, hreads.found, hreads.foundEnd,
    fun _ => hreads.juliaError.trans herr, hreads.slices⟩

theorem read_seen (h : Seen P ws s) (hforward : ∀ v ∈ ws, v.first ≤ w.first) :
    Reading P ws w (trimAtBegin m (readCapture m (capture P w) s)) := by
  have hm := pane_oneLine P
  obtain ⟨rest, hacc, htidy, hrun, herr⟩ := h.accumulator
  obtain ⟨u, hu', hlast⟩ := h.lastCapture
  obtain ⟨n, old, _, hold, hterm, hcap, hsplice⟩ :=
    splice_capture P (terminated_lastCapture P (.inr h.lastCapture)) w
  rw [hlast] at hold
  have hnew : Tidy m (shown P n w.last) := shown_tidy hc hu n w.last
  have hold' : ¬ m.mark .End <:+: old := fun hi => h.running u hu' (hi.trans hold.isInfix)
  have hsplit := fun k (a b : Text) (ht : Terminated nl a) =>
    infix_append_terminated b ht (nl_notMem_mark hm k) (mark_ne_nil m k)
  have hend : m.mark .End <:+: rest ++ shown P n w.last ↔ m.mark .End <:+: capture P w := by
    rw [hcap, hsplit .End _ _ htidy.terminated, hsplit .End _ _ hterm]
    simp [hrun, hold']
  have herr' : ErrorBeforeEnd m (rest ++ shown P n w.last) ↔ ErrorSeen P ws w := by
    rw [ErrorSeen, hcap, errorBeforeEnd_append hm _ htidy.terminated hrun,
      errorBeforeEnd_append hm _ hterm hold', herr]
    have hmem : m.mark .Error <:+: old → ∃ v ∈ ws, m.mark .Error <:+: capture P v :=
      fun hi => ⟨u, hu', hi.trans hold.isInfix⟩
    rw [← or_assoc, or_iff_left_of_imp hmem]
  have hacc' : splice s (capture P w) = m.beginMark ++ nl :: (rest ++ shown P n w.last) := by
    rw [hsplice, hacc]
    simp
  have hreads := extract_reads hm terminated_nil (beginMark_not_infix_nil _) (quiet_nil m).1 (htidy.append hm hnew)
  rw [List.nil_append, ← hacc'] at hreads
  have htrim : trimAtBegin m (readCapture m (capture P w) s) = readCapture m (capture P w) s :=
    trimAtBegin_trimmed h.trimmed
  rw [htrim]
  by_cases hbegin : m.beginMark <:+: capture P w
  · have hlive := capture_reads hc hu hbegin (splice s (capture P w))
    refine ⟨rfl, ⟨_, hacc', htidy.append hm hnew, hend, herr'⟩, h.trimmed, hlive.found, hlive.foundEnd,
      fun hE => hlive.juliaError.trans ⟨.inr, ?_⟩, hlive.slices⟩
    rintro (⟨v, hv, he⟩ | he)
    · exact errorBeforeEnd_of_earlier P (hforward v hv) ((infix_begin P).mp hbegin).1 hE (h.running v hv) he
    · exact he
  · have he : extractCapture m (capture P w) (splice s (capture P w)) =
        extractBetweenMarkers (splice s (capture P w)) m := by
      rw [extractCapture, extract_noBegin hbegin]
      rfl
    have hpre := infix_after_begin hm (rest ++ shown P n w.last) terminated_nil (quiet_nil m).1 .End
    have hpre' := error_after_begin hm (rest ++ shown P n w.last) terminated_nil (quiet_nil m).1
    rw [List.nil_append, ← hacc'] at hpre hpre'
    rw [← he] at hreads
    exact ⟨rfl, ⟨_, hacc', htidy.append hm hnew, hend, herr'⟩, h.trimmed, hreads.found,
      hreads.foundEnd.trans (hpre.trans hend), fun _ => hreads.juliaError.trans (hpre'.trans herr'),
      hreads.slices⟩

end Turn

theorem Reading.emit {P : Pane m} {ws : List Window} {w : Window} {s : PollState} (pass : Pass)
    (h : Reading P ws w s) : Reading P ws w (emitProgress pass s) := by
  unfold emitProgress
  split
  · exact ⟨h.1, h.2, h.3, h.4, h.5, h.6, h.7⟩
  · exact h

theorem exists_mem_concat {ws : List Window} {w : Window} {p : Window → Prop} :
    (∃ v ∈ ws ++ [w], p v) ↔ (∃ v ∈ ws, p v) ∨ p w := by
  simp [or_and_right, exists_or]

/-- A capture without END leaves a state of the loop, compacted or not. -/
theorem Reading.bound {P : Pane m} {ws : List Window} {w : Window} {s : PollState} (h : Reading P ws w s)
    (hws : ∀ v ∈ ws, ¬ m.mark .End <:+: capture P v) (hend : ¬ m.mark .End <:+: capture P w) :
    Seen P (ws ++ [w]) (boundAccumulator m s) ∧ (boundAccumulator m s).lastExtract.foundEnd = false := by
  have hm := pane_oneLine P
  obtain ⟨rest, hacc, htidy, hendRest, herr⟩ := h.accumulator
  have hrun : ∀ v ∈ ws ++ [w], ¬ m.mark .End <:+: capture P v := by
    intro v hv
    rcases List.mem_append.mp hv with hv | hv
    · exact hws v hv
    · rw [List.mem_singleton.mp hv]
      exact hend
  have hrest : ¬ m.mark .End <:+: rest := fun hi => hend (hendRest.mp hi)
  have herror : m.mark .Error <:+: rest ↔ ∃ v ∈ ws ++ [w], m.mark .Error <:+: capture P v := by
    rw [← errorBeforeEnd_of_noEnd hrest, herr, exists_mem_concat, ErrorSeen, errorBeforeEnd_of_noEnd hend]
  have hlast : ∀ t : PollState, t.lastCapture = s.lastCapture →
      ∃ v ∈ ws ++ [w], t.lastCapture = capture P v :=
    fun t ht => ⟨w, by simp, ht.trans h.lastCapture⟩
  have hfound : s.lastExtract.foundEnd = false := by
    rw [Bool.eq_false_iff, ne_eq, h.foundEnd]
    exact hend
  unfold boundAccumulator
  split
  · rw [if_pos h.found]
    have hsaw : ∀ k, (find (m.mark k) s.accumulator).isSome = true ↔ m.mark k <:+: rest := by
      intro k
      rw [find_isSome, hacc]
      exact infix_after_begin hm rest terminated_nil (quiet_nil m).1 k
    have hsawEnd : (find (m.mark .End) s.accumulator).isSome = false := by
      rw [Bool.eq_false_iff, ne_eq, hsaw .End]
      exact hrest
    obtain ⟨rest', hacc', htidy', hrun', herr'⟩ := compactMarkerAccumulator_compacted hm h.slices
      (find (m.mark .OutEnd) s.accumulator).isSome (find (m.mark .ValEnd) s.accumulator).isSome
      (find (m.mark .Error) s.accumulator).isSome (find (m.mark .Backtrace) s.accumulator).isSome
    have hcompact : (compact m s).accumulator = m.beginMark ++ nl :: rest' := by
      simp only [compact, hsawEnd, hacc']
    have hreads := extract_reads hm terminated_nil (beginMark_not_infix_nil _) (quiet_nil m).1 htidy'
    rw [List.nil_append, ← hcompact] at hreads
    refine ⟨⟨hrun, hlast _ rfl, ⟨rest', hcompact, htidy', hrun', ?_⟩, h.trimmed, hreads.found⟩, ?_⟩
    · rw [herr', hsaw .Error, herror]
    · refine Bool.eq_false_iff.mpr fun hE => hrun' ?_
      have hi := hreads.foundEnd.mp hE
      rw [hcompact] at hi
      exact (infix_after_begin hm rest' terminated_nil (quiet_nil m).1 .End).mp hi
  · exact ⟨⟨hrun, hlast _ rfl, ⟨rest, hacc, htidy, hrest, herror⟩, h.trimmed, h.found⟩, hfound⟩

/-- A turn that found nothing only bounds the accumulator. -/
theorem finishTurn_nothing (pass : Pass) {s : PollState} (h : s.lastExtract = {}) :
    finishTurn pass s = if kMaxEvalAccumulatorBytes < s.accumulator.length then dropHead s else s := by
  have htrim : trimAtBegin pass.marker s = s := if_neg fun hn => by simp [h] at hn
  have hemit : emitProgress pass s = s := if_neg fun hn => by simp [h] at hn
  rw [finishTurn, htrim, hemit, boundAccumulator, h]
  simp

theorem Unseen.finish {P : Pane m} {pass : Pass} {ws : List Window} {w : Window}
    {s : PollState} (h : Unseen P ws s) (hbegin : ¬ m.beginMark <:+: capture P w) :
    Unseen P (ws ++ [w]) (finishTurn pass (readCapture m (capture P w) s)) ∧
      (finishTurn pass (readCapture m (capture P w) s)).lastExtract.foundEnd = false := by
  have hm := pane_oneLine P
  obtain ⟨n, old, _, _, hterm, hcap, hsplice⟩ := splice_capture P (terminated_lastCapture P h.lastCapture) w
  have hnew : ¬ m.beginMark <:+: shown P n w.last := by
    intro hi
    exact hbegin (hcap ▸ List.infix_append_of_infix_right hi)
  have hacc : ¬ m.beginMark <:+: splice s (capture P w) := by
    rw [hsplice, infix_append_terminated _ h.terminated (nl_notMem_beginMark.mpr hm) (beginMark_ne_nil m), not_or]
    exact ⟨h.accumulator, hnew⟩
  have hterm' : Terminated nl (splice s (capture P w)) := by
    rw [hsplice]
    exact h.terminated.append (shown_terminated P _ _)
  have hextract : (readCapture m (capture P w) s).lastExtract = {} := by
    simp only [readCapture, extractCapture, extract_noBegin hbegin, extract_noBegin hacc]
    rfl
  have hquiet : ∀ v ∈ ws ++ [w], ¬ m.beginMark <:+: capture P v := by
    intro v hv
    rcases List.mem_append.mp hv with hv | hv
    · exact h.quiet v hv
    · rw [List.mem_singleton.mp hv]
      exact hbegin
  rw [finishTurn_nothing pass hextract]
  split
  · obtain ⟨k, _, hk⟩ := dropHead_drop (readCapture m (capture P w) s)
    rw [hk]
    refine ⟨⟨hquiet, .inr ⟨w, by simp, rfl⟩, ?_, ?_, h.notTrimmed, ?_⟩, ?_⟩
    · have ht := hterm'
      rw [← List.take_append_drop k (splice s (capture P w))] at ht
      exact ht.suffix
    · exact fun hi => hacc (hi.trans (List.drop_suffix _ _).isInfix)
    · simp [hextract]
    · simp [hextract]
  · exact ⟨⟨hquiet, .inr ⟨w, by simp, rfl⟩, hterm', hacc, h.notTrimmed, by simp [hextract]⟩, by simp [hextract]⟩

def Running (P : Pane m) (ws : List Window) (s : PollState) : Prop := Unseen P ws s ∨ Seen P ws s

structure Ended (P : Pane m) (ws : List Window) (w : Window) (s : PollState) : Prop where
  found : s.lastExtract.foundBegin = true
  foundEnd : s.lastExtract.foundEnd = true
  juliaError : s.lastExtract.juliaError = true ↔ ErrorSeen P ws w

theorem running_init (P : Pane m) : Running P [] {} := by
  refine .inl ⟨by simp, .inl rfl, terminated_nil, ?_, rfl, rfl⟩
  exact beginMark_not_infix_nil m

theorem pollStep_input (pass : Pass) (P : Pane pass.marker) (s : PollState) (w : Window) :
    pollStep pass s (input P w) = .missing ∨
      pollStep pass s (input P w) =
        if (finishTurn pass (readCapture pass.marker (capture P w) s)).lastExtract.foundEnd then
          .done (finishTurn pass (readCapture pass.marker (capture P w) s))
        else .again (finishTurn pass (readCapture pass.marker (capture P w) s)) := by
  simp only [pollStep, input]
  split
  · exact .inl rfl
  · exact .inr (by simp)

def Turned (P : Pane m) (ws : List Window) (w : Window) (s s' : PollState) : Prop :=
  (s'.lastExtract.foundEnd = false ∧ Running P (ws ++ [w]) s' ∧
    (s.lastExtract.foundBegin = true → s'.lastExtract.foundBegin = true)) ∨
  (m.mark .End <:+: capture P w ∧ Ended P ws w s')

theorem turned_reading {pass : Pass} {P : Pane pass.marker} {ws : List Window} {w : Window} {s : PollState}
    (hws : ∀ v ∈ ws, ¬ pass.marker.mark .End <:+: capture P v)
    (h : Reading P ws w (trimAtBegin pass.marker (readCapture pass.marker (capture P w) s))) :
    Turned P ws w s (finishTurn pass (readCapture pass.marker (capture P w) s)) := by
  have hemit := h.emit pass
  by_cases hend : pass.marker.mark .End <:+: capture P w
  · have hfinish : finishTurn pass (readCapture pass.marker (capture P w) s) =
        emitProgress pass (trimAtBegin pass.marker (readCapture pass.marker (capture P w) s)) :=
      if_neg fun hn => absurd (hn.1.symm.trans (hemit.foundEnd.mpr hend)) (by decide)
    rw [hfinish]
    exact .inr ⟨hend, hemit.found, hemit.foundEnd.mpr hend, hemit.juliaError hend⟩
  · obtain ⟨hseen, hnot⟩ := hemit.bound hws hend
    exact .inl ⟨hnot, .inr hseen, fun _ => hseen.found⟩

section Run

variable {pass : Pass} {P : Pane pass.marker} (hc : Clean pass.marker (text P))
  (hu : Unsplit pass.marker (text P))
include hc hu

theorem turned {ws : List Window} {w : Window} {s : PollState} (h : Running P ws s)
    (hforward : ∀ v ∈ ws, v.first ≤ w.first) :
    Turned P ws w s (finishTurn pass (readCapture pass.marker (capture P w) s)) := by
  rcases h with h | h
  · by_cases hbegin : pass.marker.beginMark <:+: capture P w
    · refine turned_reading (fun v hv hi => ?_) (read_unseen hc hu h hforward hbegin)
      have hv' := hforward v hv
      have hw := ((infix_begin P).mp hbegin).1
      exact noMark_of_noBegin P (by omega) (h.quiet v hv) .End hi
    · obtain ⟨hunseen, hnot⟩ := h.finish hbegin
      exact .inl ⟨hnot, .inl hunseen, fun hf => absurd (h.notFound.symm.trans hf) (by decide)⟩
  · exact turned_reading h.running (read_seen hc hu h hforward)

theorem step_cases {ws : List Window} {w : Window} {s : PollState} (h : Running P ws s)
    (hforward : ∀ v ∈ ws, v.first ≤ w.first) :
    pollStep pass s (input P w) = .missing ∨
      (∃ s', pollStep pass s (input P w) = .again s' ∧ Running P (ws ++ [w]) s' ∧
        (s.lastExtract.foundBegin = true → s'.lastExtract.foundBegin = true)) ∨
      ∃ s', pollStep pass s (input P w) = .done s' ∧ pass.marker.mark .End <:+: capture P w ∧
        Ended P ws w s' := by
  rcases pollStep_input pass P s w with hstep | hstep
  · exact .inl hstep
  · rw [hstep]
    rcases turned hc hu h hforward with ⟨hnot, hrun, hmono⟩ | ⟨hend, hended⟩
    · exact .inr (.inl ⟨_, by rw [hnot, if_neg (by decide)], hrun, hmono⟩)
    · exact .inr (.inr ⟨_, by rw [hended.foundEnd, if_pos rfl], hend, hended⟩)

theorem poll_running {pre ws : List Window} {s : PollState} (h : Running P pre s)
    (hforward : Forward (pre ++ ws)) :
    poll pass s (ws.map (input P)) = .missing ∨
      (∃ s', poll pass s (ws.map (input P)) = .again s' ∧ Running P (pre ++ ws) s') ∨
      ∃ s', poll pass s (ws.map (input P)) = .done s' ∧ ∃ v ∈ ws, pass.marker.mark .End <:+: capture P v := by
  induction ws generalizing pre s with
  | nil => exact .inr (.inl ⟨s, rfl, by simpa using h⟩)
  | cons w ws ih =>
      have hw : ∀ v ∈ pre, v.first ≤ w.first := fun v hv =>
        (List.pairwise_append.mp hforward).2.2 v hv w (by simp)
      have hpre : pre ++ w :: ws = (pre ++ [w]) ++ ws := by simp
      simp only [List.map_cons, poll]
      rcases step_cases hc hu h hw with hstep | ⟨s', hstep, hrun, _⟩ | ⟨s', hstep, hi, _⟩
      · exact .inl (by rw [hstep])
      · rw [hstep]
        rcases ih hrun (hpre ▸ hforward) with hm | ⟨t, ht, hrun⟩ | ⟨t, ht, v, hv, hi⟩
        · exact .inl hm
        · exact .inr (.inl ⟨t, ht, by rwa [hpre]⟩)
        · exact .inr (.inr ⟨t, ht, v, by simp [hv], hi⟩)
      · exact .inr (.inr ⟨s', by rw [hstep], w, by simp, hi⟩)

theorem poll_keeps_found {pre ws : List Window} {s s' : PollState} (h : Running P pre s)
    (hforward : Forward (pre ++ ws)) (hs' : (poll pass s (ws.map (input P))).state? = some s')
    (hfound : s.lastExtract.foundBegin = true) : s'.lastExtract.foundBegin = true := by
  induction ws generalizing pre s with
  | nil =>
      have he : s = s' := by simpa [poll, Polled.state?] using hs'
      exact he ▸ hfound
  | cons w ws ih =>
      have hw : ∀ v ∈ pre, v.first ≤ w.first := fun v hv =>
        (List.pairwise_append.mp hforward).2.2 v hv w (by simp)
      have hpre : pre ++ w :: ws = (pre ++ [w]) ++ ws := by simp
      rcases step_cases hc hu h hw with hstep | ⟨t, hstep, hrun, hmono⟩ | ⟨t, hstep, _, hended⟩
      · simp [poll, hstep, Polled.state?] at hs'
      · simp only [List.map_cons, poll, hstep] at hs'
        exact ih hrun (hpre ▸ hforward) hs' (hmono hfound)
      · have he : t = s' := by simpa [poll, hstep, Polled.state?] using hs'
        exact he ▸ hended.found

end Run

/-- The capture w is the first with END, and BEGIN was shown by then. -/
structure FirstEnd (P : Pane m) (before : List Window) (w : Window) : Prop where
  forward : Forward (before ++ [w])
  begun : ∃ v ∈ before ++ [w], m.beginMark <:+: capture P v
  running : ∀ v ∈ before, ¬ m.mark .End <:+: capture P v
  ended : m.mark .End <:+: capture P w

/-- The first capture with END ends the loop, and reports the ERROR that any
capture showed before END; BEGIN once found stays found. -/
theorem poll_misses_no_end (pass : Pass) (P : Pane pass.marker) (hclean : Clean pass.marker (text P))
    (hunsplit : Unsplit pass.marker (text P)) :
    (∀ (before : List Window) (w : Window), FirstEnd P before w →
      poll pass {} ((before ++ [w]).map (input P)) ≠ .missing →
      ∃ s s', poll pass {} (before.map (input P)) = .again s ∧ pollStep pass s (input P w) = .done s' ∧
        s'.lastExtract.foundBegin = true ∧ s'.lastExtract.foundEnd = true ∧
        (s'.lastExtract.juliaError = true ↔
          (∃ v ∈ before, pass.marker.mark .Error <:+: capture P v) ∨
            ErrorBeforeEnd pass.marker (capture P w))) ∧
    ∀ (ws ws' : List Window) (s s' : PollState), Forward (ws ++ ws') →
      (poll pass {} (ws.map (input P))).state? = some s →
      (poll pass {} ((ws ++ ws').map (input P))).state? = some s' →
      s.lastExtract.foundBegin = true → s'.lastExtract.foundBegin = true := by
  constructor
  · rintro before w ⟨hforward, hbegin, hrun, hend⟩ hmissing
    have hpre : ∀ v ∈ before, v.first ≤ w.first := fun v hv =>
      (List.pairwise_append.mp hforward).2.2 v hv w (by simp)
    have hbefore : Forward ([] ++ before) := (List.pairwise_append.mp hforward).1
    rw [List.map_append, poll_append] at hmissing
    rcases poll_running hclean hunsplit (running_init P) hbefore with hm | ⟨s, hs, hinv⟩ | ⟨_, _, v, hv, hi⟩
    · exact absurd (by rw [hm]) hmissing
    · rw [hs] at hmissing
      rcases step_cases hclean hunsplit hinv hpre with hstep | ⟨s', _, hrun', _⟩ | ⟨s', hstep, _, hended⟩
      · exact absurd (by simp [poll, hstep]) hmissing
      · -- a state of the loop has either seen no BEGIN or no END
        rcases hrun' with hunseen | hseen
        · obtain ⟨v, hv, hi⟩ := hbegin
          exact absurd hi (hunseen.quiet v hv)
        · exact absurd hend (hseen.running w (by simp))
      · exact ⟨s, s', hs, hstep, hended.found, hended.foundEnd, hended.juliaError⟩
    · exact absurd hi (hrun v hv)
  · intro ws ws' s s' hforward hs hs' hfound
    rw [List.map_append, poll_append] at hs'
    have hws : Forward ([] ++ ws) := (List.pairwise_append.mp hforward).1
    rcases poll_running hclean hunsplit (running_init P) hws with hm | ⟨t, ht, hinv⟩ | ⟨t, ht, _⟩
    · simp [hm, Polled.state?] at hs
    · simp only [ht, Polled.state?, Option.some.injEq] at hs
      rw [ht] at hs'
      subst hs
      exact poll_keeps_found hclean hunsplit hinv hforward hs' hfound
    · simp only [ht, Polled.state?, Option.some.injEq] at hs hs'
      rw [← hs', hs]
      exact hfound

def paneOfLines (m : Marker) (lines : List Text) (n : Nat) (hone : ∀ l ∈ lines, nl ∉ l)
    (hat : lines[n]? = some m.beginMark)
    (honly : ∀ i : Fin lines.length, m.beginMark <:+: lines[i] → i.val = n)
    (hfirst : ∀ i : Fin lines.length, ∀ k ∈ [Kind.End, .Error, .OutEnd, .ValEnd, .Backtrace],
      m.mark k <:+: lines[i] → n < i.val) : Pane m where
  lines := lines
  oneLine := hone
  beginLine := n
  begin_at := hat
  begin_only i l hi h := by
    obtain ⟨hlt, rfl⟩ := List.getElem?_eq_some_iff.mp hi
    exact honly ⟨i, hlt⟩ h
  begin_first i l k hi h := by
    obtain ⟨hlt, rfl⟩ := List.getElem?_eq_some_iff.mp hi
    exact hfirst ⟨i, hlt⟩ k (mem_kinds k) h

theorem poll_misses_no_end_scrolled :
    let pass : Pass := { marker := makeMarker (lit "1"), detectMissingRuntime := false }
    let shows := fun ls => { captured := .ok (Lib.Lines.unlines nl ls) : PollInput }
    let m := pass.marker
    ∃ s s', poll pass {} [shows [lit "julia>", m.beginMark], shows [m.beginMark, m.mark .Error]] = .again s ∧
      pollStep pass s (shows [lit "boom", m.mark .End]) = .done s' ∧
      s'.lastExtract.foundBegin = true ∧ s'.lastExtract.juliaError = true := by
  intro pass shows m
  let P : Pane pass.marker := paneOfLines m
    [lit "julia>", m.beginMark, m.mark .Error, lit "boom", m.mark .End] 1
    (by decide) (by decide) (by decide) (by decide)
  have hm : m.OneLine := pane_oneLine P
  have htidy : Tidy m (text P) := by
    have hplain : ∀ l, (∀ k, ¬ m.mark k <:+: l ++ [nl]) → cr ∉ l ++ [nl] → Tidy m (l ++ [nl]) :=
      fun l hk hcr => Quiet.tidy ⟨hk, hcr⟩ (terminated_concat l)
    refine tidy_unlines hm ?_
    show ∀ l ∈ [lit "julia>", m.beginMark, m.mark .Error, lit "boom", m.mark .End], Tidy m (l ++ [nl])
    simp only [List.forall_mem_cons]
    refine ⟨hplain _ ?_ (by decide), hplain _ (noMark_beginLine m hm) (by decide), tidy_mark hm _,
      hplain _ ?_ (by decide), tidy_mark hm _, by simp⟩
    · intro k
      cases k <;> decide
    · intro k
      cases k <;> decide
  have hfirst : FirstEnd P [⟨0, 2⟩, ⟨1, 3⟩] ⟨3, 5⟩ :=
    ⟨by simp [Forward], ⟨⟨0, 2⟩, by simp, by decide⟩, by decide, by decide⟩
  obtain ⟨s, s', hs, hs', hb, _, herr⟩ := (poll_misses_no_end pass P htidy.clean htidy.unsplit).1
    [⟨0, 2⟩, ⟨1, 3⟩] ⟨3, 5⟩ hfirst (poll_not_missing rfl _ _)
  exact ⟨s, s', hs, hs', hb, herr.mpr (.inl ⟨⟨1, 3⟩, by simp, by decide⟩)⟩

theorem noMark_plain {t : Text} (h : 95 ∉ t) : NoMark m t :=
  fun k hk => h (hk.subset (List.mem_of_mem_head? (mark_head m k)))

theorem notMem_output (n : Nat) {c : UInt8} (hc : c ≠ 97) : c ∉ List.replicate n 97 :=
  fun h => hc (List.eq_of_mem_replicate h)

section SplitEnd

def splitPass : Pass := { marker := makeMarker (lit "1"), detectMissingRuntime := false }

/-- Output of that length, then the END of the pass with a carriage return in it. -/
def splitPane (n : Nat) : Pane splitPass.marker where
  lines := [lit "__JJMCP_BEGIN_1__", List.replicate n 97, lit "__JJMCP_E\rND_1__", lit "__JJMCP_END_1__"]
  oneLine := by
    simp only [List.forall_mem_cons]
    exact ⟨by decide, notMem_output n (by decide), by decide, by decide, by simp⟩
  beginLine := 0
  begin_at := rfl
  begin_only i l hi h := by
    rcases i with _ | _ | _ | _ | i
    · rfl
    · obtain rfl := Option.some.inj hi
      exact absurd (h.subset (show 95 ∈ _ by decide)) (notMem_output n (by decide))
    · obtain rfl := Option.some.inj hi
      exact absurd h (by decide)
    · obtain rfl := Option.some.inj hi
      exact absurd h (by decide)
    · cases hi
  begin_first i l k hi h := by
    rcases i with _ | i
    · obtain rfl := Option.some.inj hi
      exact absurd h (mark_not_infix_beginMark splitPass.marker k)
    · exact Nat.succ_pos i

variable (n : Nat)

def splitRest : Text := List.replicate n 97 ++ nl :: (lit "__JJMCP_E\rND_1__" ++ [nl])

def joinedRest : Text := List.replicate n 97 ++ nl :: lit "__JJMCP_END_1__"

theorem splitRest_noMark : NoMark splitPass.marker (splitRest n) := by
  intro k hk
  have hnl : nl ∉ splitPass.marker.mark k := nl_notMem_mark (pane_oneLine (splitPane n)) k
  have hne := mark_ne_nil splitPass.marker k
  rw [splitRest, infix_sep hnl hne, infix_sep hnl hne, List.infix_nil] at hk
  rcases hk with hk | hk | hk
  · exact noMark_plain (notMem_output n (by decide)) k hk
  · revert hk
    cases k <;> decide
  · exact hne hk

theorem splitRest_cleaned : markerSegmentText (splitRest n) = joinedRest n := by
  have hkeep : (splitRest n).filter (· ≠ cr) = joinedRest n ++ [nl] := by
    rw [splitRest, List.filter_append, filter_noCr (notMem_output n (by decide)), joinedRest, List.append_assoc]
    rfl
  rw [markerSegmentText, hkeep]
  simp

def splitCapture : Text := splitPass.marker.beginMark ++ nl :: splitRest n

theorem splitCapture_noMark : NoMark splitPass.marker (splitCapture n) := by
  intro k hk
  have hafter := infix_after_begin (pane_oneLine (splitPane n)) (splitRest n) terminated_nil (noMark_nil _) k
  exact splitRest_noMark n k (hafter.mp hk)

theorem splitCapture_extract : extractBetweenMarkers (splitCapture n) splitPass.marker =
    { foundBegin := true, text := joinedRest n, stdoutText := joinedRest n } := by
  have he := extract_begin (pane_oneLine (splitPane n)) (splitRest n) terminated_nil (beginMark_not_infix_nil _)
  rw [List.nil_append, extractFrom_noMark _ _ (splitRest_noMark n)] at he
  rw [splitCapture, he]
  simp only [record, appendSegment_nil_left, splitRest_cleaned]

theorem joinedRest_lines : truncateLinesTail (joinedRest n) kEvalAccumulatorTailLines = joinedRest n := by
  have hcr : cr ∉ joinedRest n := by
    rw [joinedRest, List.mem_append, not_or]
    exact ⟨notMem_output n (by decide), by decide⟩
  have hjoin : joinedRest n = [nl].intercalate [List.replicate n 97, lit "__JJMCP_END_1__"] := by
    simp [joinedRest, List.intercalate]
  have hno : ∀ l ∈ [List.replicate n 97, lit "__JJMCP_END_1__"], nl ∉ l := by
    simp only [List.forall_mem_cons]
    exact ⟨notMem_output n (by decide), by decide, by simp⟩
  have hlines : lines nl (joinedRest n) = [List.replicate n 97, lit "__JJMCP_END_1__"] := by
    rw [hjoin, lines_intercalate hno (by simp)]
    exact if_neg (by simp [lit])
  rw [truncateLinesTail, if_neg (by decide), LineTruncation.countedLines_eq hcr, hlines]
  exact if_pos (show 2 ≤ 2000 by decide)

/-- The tail that a compaction keeps of the joined text has END on its last line. -/
theorem joinedRest_tail (hn : kMaxMcpTextBytes ≤ n) :
    ∃ seg, 95 ∉ seg ∧ truncateToolTail (joinedRest n) kEvalAccumulatorTailLines kMaxMcpTextBytes =
      seg ++ nl :: lit "__JJMCP_END_1__" := by
  have hmax : kMaxMcpTextBytes = 262144 := rfl
  have hlen : (joinedRest n).length = n + 16 := by simp [joinedRest, lit]
  obtain ⟨start, hstart, hle⟩ : ∃ start, n + 16 - 262144 = start ∧ start < n := ⟨_, rfl, by omega⟩
  obtain ⟨k, hk⟩ := Nat.exists_eq_add_of_lt hle
  have hdrop : (joinedRest n).drop start = 97 :: (List.replicate k 97 ++ nl :: lit "__JJMCP_END_1__") := by
    have hshort : start ≤ (List.replicate n (97 : UInt8)).length := by
      rw [List.length_replicate]
      omega
    rw [joinedRest, List.drop_append_of_le_length hshort, List.drop_replicate, show n - start = k + 1 by omega,
      List.replicate_succ, List.cons_append]
  have hsafe : utf8SafeSuffixStart (joinedRest n) start = start := by
    rw [utf8SafeSuffixStart, if_neg (by omega), hdrop, List.takeWhile_cons_of_neg (by decide), List.length_nil,
      Nat.add_zero]
  refine ⟨lit "[JJMCP truncated: omitted " ++ (decimal start ++ (lit " earlier byte(s)]" ++
    nl :: 97 :: List.replicate k 97)), ?_, ?_⟩
  · have hdecimal : 95 ∉ decimal start := fun h => absurd (decimal_digit h).2 (by decide)
    simp only [List.mem_append, List.mem_cons, not_or]
    exact ⟨by decide, hdecimal, by decide, by decide, by decide, notMem_output k (by decide)⟩
  · rw [truncateToolTail, joinedRest_lines, truncateBytesTail, hmax, if_neg (by decide), if_neg (by omega), hlen, hstart]
    dsimp only
    rw [hsafe, hdrop]
    simp only [List.append_assoc, List.cons_append]

theorem compact_joins (hn : kMaxMcpTextBytes ≤ n) (s : PollState) (hacc : s.accumulator = splitCapture n)
    (he : s.lastExtract = { foundBegin := true, text := joinedRest n, stdoutText := joinedRest n }) :
    (compact splitPass.marker s).lastExtract.foundEnd = true := by
  have hm : splitPass.marker.OneLine := pane_oneLine (splitPane n)
  have hsaw (k : Kind) : (find (splitPass.marker.mark k) s.accumulator).isSome = false := by
    rw [hacc, find_eq_none.mpr (splitCapture_noMark n k)]
    rfl
  obtain ⟨seg, hseg, htail⟩ := joinedRest_tail n hn
  have hblock : appendBlock (appendLine [] splitPass.marker.beginMark)
      (seg ++ nl :: lit "__JJMCP_END_1__") =
        [] ++ (splitPass.marker.beginMark ++ nl :: ((seg ++ [nl]) ++ (splitPass.marker.mark .End ++ [nl]))) := by
    rw [appendBlock, if_neg (by simp), if_neg (by rw [List.getLast?_append_cons]; decide), appendLine]
    simp only [List.append_assoc, List.nil_append, List.cons_append]
    rfl
  have hclosed : NoMark splitPass.marker (seg ++ [nl]) := noMark_plain (by simp [hseg, show (95 : UInt8) ≠ nl by decide])
  have hfirst := firstMark_after hm (terminated_concat seg) hclosed .End [nl]
  simp only [compact, hsaw, compactMarkerAccumulator, Bool.false_eq_true, if_false, he, htail, hblock]
  rw [extract_begin hm _ terminated_nil (beginMark_not_infix_nil _), extractFrom_end _ _ hfirst]

theorem splitPane_capture : capture (splitPane n) ⟨0, 3⟩ = splitCapture n := by
  show unlines nl [splitPass.marker.beginMark, List.replicate n 97, lit "__JJMCP_E\rND_1__"] = _
  simp [splitCapture, splitRest]

/-- The capture shows no END, its compaction does. -/
theorem splitPass_done (hn : kMaxEvalAccumulatorBytes ≤ n) :
    ∃ s, pollStep splitPass {} (input (splitPane n) ⟨0, 3⟩) = .done s := by
  have hm : splitPass.marker.OneLine := pane_oneLine (splitPane n)
  have hmax : kMaxMcpTextBytes ≤ kMaxEvalAccumulatorBytes := by decide
  let read := readCapture splitPass.marker (splitCapture n) {}
  have he : read.lastExtract = { foundBegin := true, text := joinedRest n, stdoutText := joinedRest n } := by
    have hcap : extractBetweenMarkers (splitCapture n) splitPass.marker = _ := splitCapture_extract n
    show extractCapture splitPass.marker (splitCapture n) _ = _
    rw [extractCapture, hcap]
    rfl
  have hfound : read.lastExtract.foundBegin = true := congrArg ExtractedOutput.foundBegin he
  have htrim : trimAtBegin splitPass.marker read = { read with beginTrimmed := true } :=
    trim_accumulator hm terminated_nil (beginMark_not_infix_nil _) rfl rfl hfound
  have hlong : kMaxEvalAccumulatorBytes < (splitCapture n).length := by
    simp only [splitCapture, splitRest, List.length_append, List.length_cons, List.length_replicate]
    omega
  have hbound : boundAccumulator splitPass.marker { read with beginTrimmed := true } =
      compact splitPass.marker { read with beginTrimmed := true } := by
    rw [boundAccumulator, if_pos ⟨congrArg ExtractedOutput.foundEnd he, hlong⟩]
    exact if_pos hfound
  have hfinish : finishTurn splitPass read = compact splitPass.marker { read with beginTrimmed := true } := by
    rw [finishTurn, htrim, emitProgress, if_neg (fun h => Bool.false_ne_true h.1), hbound]
  have hend : (finishTurn splitPass read).lastExtract.foundEnd = true := by
    rw [hfinish]
    exact compact_joins n (hmax.trans hn) _ rfl he
  refine ⟨finishTurn splitPass read, ?_⟩
  rw [input, splitPane_capture]
  simp only [pollStep, show splitPass.detectMissingRuntime = false from rfl, Bool.false_eq_true, false_and, if_false]
  exact if_pos hend

theorem splitPane_clean : Clean splitPass.marker (text (splitPane n)) := by
  have hm : splitPass.marker.OneLine := pane_oneLine (splitPane n)
  have htext : text (splitPane n) = capture (splitPane n) ⟨0, 3⟩ ++ (splitPass.marker.mark .End ++ [nl]) := by
    show unlines nl [splitPass.marker.beginMark, List.replicate n 97, lit "__JJMCP_E\rND_1__", splitPass.marker.mark .End] =
      unlines nl [splitPass.marker.beginMark, List.replicate n 97, lit "__JJMCP_E\rND_1__"] ++ _
    simp
  rw [htext]
  refine Clean.append hm (shown_terminated (splitPane n) 0 3) (noMark_clean ?_) (tidy_mark hm .End).clean
  rw [splitPane_capture]
  exact splitCapture_noMark n

end SplitEnd

/-- In a pane with END first and ERROR after it, with tokens that overlap, or with a
carriage return in a token, a poll does not report what its capture holds. -/
theorem not_reports_all_tokens :
    (¬ ∀ (pass : Pass) (P : Pane pass.marker) (before : List Window) (w : Window), FirstEnd P before w →
      poll pass {} ((before ++ [w]).map (input P)) ≠ .missing →
      ∃ s s', poll pass {} (before.map (input P)) = .again s ∧ pollStep pass s (input P w) = .done s' ∧
        (s'.lastExtract.juliaError = true ↔
          ∃ v ∈ before ++ [w], pass.marker.mark .Error <:+: capture P v)) ∧
    (¬ ∀ (pass : Pass) (P : Pane pass.marker) (before : List Window) (w : Window), FirstEnd P before w →
      poll pass {} ((before ++ [w]).map (input P)) ≠ .missing →
      ∃ s s', poll pass {} (before.map (input P)) = .again s ∧ pollStep pass s (input P w) = .done s' ∧
        s'.lastExtract.foundEnd = true) ∧
    ¬ ∀ (pass : Pass) (P : Pane pass.marker) (before : List Window) (w : Window), Clean pass.marker (text P) →
      FirstEnd P before w → poll pass {} ((before ++ [w]).map (input P)) ≠ .missing →
      ∃ s, poll pass {} (before.map (input P)) = .again s := by
  let pass : Pass := { marker := makeMarker (lit "1"), detectMissingRuntime := false }
  let m := pass.marker
  have hfirst : ∀ (P : Pane m), m.beginMark <:+: capture P ⟨0, 3⟩ → m.mark .End <:+: capture P ⟨0, 3⟩ →
      FirstEnd P [] ⟨0, 3⟩ := fun P hb he =>
    ⟨by simp [Forward], ⟨⟨0, 3⟩, by simp, hb⟩, by simp, he⟩
  refine ⟨?_, ?_, ?_⟩
  · intro h
    let P : Pane m := paneOfLines m [m.beginMark, m.mark .End, m.mark .Error] 0
      (by decide) (by decide) (by decide) (by decide)
    obtain ⟨s, s', hs, hs', herr⟩ := h pass P [] ⟨0, 3⟩ (hfirst P (by decide) (by decide))
      (poll_not_missing rfl _ _)
    obtain rfl : ({} : PollState) = s := by simpa [poll] using hs
    have hnot : (pollStep pass {} (input P ⟨0, 3⟩)).state?.map (·.lastExtract.juliaError) = some false := by
      decide +kernel
    rw [hs', Polled.state?, Option.map_some, Option.some.injEq] at hnot
    have hyes := herr.mpr ⟨⟨0, 3⟩, by simp, by decide⟩
    rw [hnot] at hyes
    exact absurd hyes (by decide)
  · intro h
    let P : Pane m := paneOfLines m [m.beginMark, lit "__JJMCP_BT_1__JJMCP_END_1__", []] 0
      (by decide) (by decide) (by decide) (by decide)
    obtain ⟨s, s', hs, hs', hend⟩ := h pass P [] ⟨0, 3⟩ (hfirst P (by decide) (by decide))
      (poll_not_missing rfl _ _)
    obtain rfl : ({} : PollState) = s := by simpa [poll] using hs
    have hnot : (pollStep pass {} (input P ⟨0, 3⟩)).state?.map (·.lastExtract.foundEnd) = some false := by
      decide +kernel
    rw [hs', Polled.state?, Option.map_some, Option.some.injEq, hend] at hnot
    exact absurd hnot (by decide)
  · intro h
    obtain ⟨n, hn⟩ : ∃ n, kMaxEvalAccumulatorBytes ≤ n := ⟨_, Nat.le_refl _⟩
    obtain ⟨t, ht⟩ := splitPass_done n hn
    have hnoEnd : ¬ splitPass.marker.mark .End <:+: capture (splitPane n) ⟨0, 3⟩ := by
      rw [splitPane_capture]
      exact splitCapture_noMark n .End
    have hfirst : FirstEnd (splitPane n) [⟨0, 3⟩] ⟨0, 4⟩ :=
      ⟨by simp [Forward], ⟨⟨0, 3⟩, by simp, (infix_begin (splitPane n)).mpr ⟨Nat.le_refl _, Nat.succ_pos 2⟩⟩,
        by simpa using hnoEnd, (infix_mark (splitPane n) .End).mpr ⟨3, _, by decide, by decide, rfl, List.infix_rfl⟩⟩
    obtain ⟨s, hs⟩ := h splitPass (splitPane n) [⟨0, 3⟩] ⟨0, 4⟩ (splitPane_clean n) hfirst
      (poll_not_missing rfl _ _)
    rw [List.map_singleton, poll, ht] at hs
    cases hs

end JJMCP.PollComplete
