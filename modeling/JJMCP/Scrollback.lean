import JJMCP.Poll
import Mathlib.Data.List.Chain

namespace JJMCP.Scrollback

open Lib.Occurrence Lib.Lines Lib.Border Text Overlap Poll

/-- The lines on a pane with this text written to it; the last of them may be
unfinished. -/
def paneLines (written : Text) : List Text :=
  closedLines nl [] written ++ if openLine nl [] written = [] then [] else [openLine nl [] written]

def firstLine (lines : Nat) (written : Text) : Nat := (paneLines written).length - lines

def capturePane (lines : Nat) (written : Text) : Text :=
  unlines nl ((paneLines written).drop (firstLine lines written))

/-- Both captures show a line that was complete at the first of them. -/
def Shares (lines : Nat) (a b : Text) : Prop :=
  ∃ i, firstLine lines a ≤ i ∧ firstLine lines b ≤ i ∧ i < (closedLines nl [] a).length

/-- The lines both captures show. -/
def sharedLines (lines : Nat) (a b : Text) : List Text := (paneLines a).drop (firstLine lines b)

/-- What the earlier pane shows still stands, its unfinished line too, and no
text longer than the shared lines closes one capture and opens the next. -/
structure Joins (lines : Nat) (a b : Text) : Prop where
  stands : paneLines a <+: paneLines b
  longest : ∀ k ≤ (capturePane lines b).length, Matched (capturePane lines b) (capturePane lines a) k →
    k ≤ (unlines nl (sharedLines lines a b)).length

instance (s t : Text) (k : Nat) : Decidable (Matched s t k) := inferInstanceAs (Decidable (_ ∧ _))

instance (lines : Nat) (a b : Text) : Decidable (Joins lines a b) :=
  decidable_of_iff (_ ∧ _) ⟨fun h => Joins.mk h.1 h.2, fun h => ⟨h.stands, h.longest⟩⟩

/-- The loop's reading of the captures, without the trim and the compaction. -/
def readAll (m : Marker) (s : PollState) (captures : List Text) : PollState :=
  captures.foldl (fun s cap => readCapture m cap s) s

section

variable (m : Marker) (lines : Nat) (stream : Text)

def captures (moments : List Nat) : List Text := moments.map fun t => capturePane lines (stream.take t)

/-- The lines from the start of the first window to the last moment. -/
def covered (first last : Nat) : List Text :=
  (paneLines (stream.take last)).drop (firstLine lines (stream.take first))

def ShownOnce (moments : List Nat) : Prop :=
  ∀ first ∈ moments.head?, ∀ last ∈ moments.getLast?,
    (readAll m {} (captures lines stream moments)).accumulator = unlines nl (covered lines stream first last)

end

theorem nl_notMem_paneLines (written : Text) : ∀ l ∈ paneLines written, nl ∉ l := by
  obtain ⟨hclosed, hopen⟩ := @sep_notMem_lines _ nl _ [] List.not_mem_nil written
  intro l hl
  rcases List.mem_append.mp hl with hl | hl
  · exact hclosed l hl
  · split at hl
    · exact absurd hl List.not_mem_nil
    · exact List.mem_singleton.mp hl ▸ hopen

theorem closedLines_isPrefix {a b : Text} (h : a <+: b) : closedLines nl [] a <+: closedLines nl [] b := by
  obtain ⟨r, rfl⟩ := h
  rw [(lines_append [] a r).1]
  exact List.prefix_append _ _

theorem closedLines_paneLines (written : Text) : closedLines nl [] written <+: paneLines written :=
  List.prefix_append _ _

/-- A pane that is written to does not lose lines. -/
theorem paneLines_length {a b : Text} (h : a <+: b) : (paneLines a).length ≤ (paneLines b).length := by
  obtain ⟨r, rfl⟩ := h
  obtain ⟨hclosed, hopen⟩ := @lines_append _ nl _ [] a r
  have hrest := @unlines_closedLines _ nl _ (openLine nl [] a) r
  rw [paneLines, paneLines, hclosed, hopen]
  by_cases ha : openLine nl [] a = []
  · simp [ha]
  · cases hc : closedLines nl (openLine nl [] a) r with
    | nil =>
        rw [hc, unlines_nil, List.nil_append] at hrest
        simp [hrest, ha]
    | cons l ls => simp [ha]

theorem firstLine_mono (lines : Nat) {a b : Text} (h : a <+: b) : firstLine lines a ≤ firstLine lines b :=
  Nat.sub_le_sub_right (paneLines_length h) lines

theorem splice_gained {s : PollState} (hacc : s.accumulator ≠ []) (cap : Text) :
    splice s cap = s.accumulator ++ cap.drop (computeCaptureOverlap s.lastCapture cap) := by
  rw [splice, if_neg hacc]
  split
  next heq =>
    have hle : cap.length ≤ computeCaptureOverlap s.lastCapture cap := by
      refine overlap_longest ⟨Nat.le_refl _, ?_⟩
      rw [List.take_length, heq]
    rw [List.drop_eq_nil_of_le hle, List.append_nil]
  next =>
    dsimp only
    split
    · rfl
    next hlt => rw [List.drop_eq_nil_of_le (by omega), List.append_nil]

theorem take_paneLines {a b : Text} (hab : a <+: b) {k : Nat} (hk : k ≤ (closedLines nl [] a).length) :
    (paneLines a).take k = (paneLines b).take k := by
  obtain ⟨r, hr⟩ := closedLines_paneLines a
  obtain ⟨r', hr'⟩ := (closedLines_isPrefix hab).trans (closedLines_paneLines b)
  rw [← hr, ← hr', List.take_append_of_le_length hk, List.take_append_of_le_length hk]

section

variable {lines : Nat} {a b : Text}

theorem Shares.lt (hs : Shares lines a b) : firstLine lines b < (closedLines nl [] a).length := by
  obtain ⟨i, _, hb, hlt⟩ := hs
  omega

theorem Shares.lt_paneLines (hs : Shares lines a b) : firstLine lines b < (paneLines a).length :=
  hs.lt.trans_le (closedLines_paneLines a).length_le

theorem capturePane_split {rest : List Text} (hs : Shares lines a b) (h : paneLines a ++ rest = paneLines b) :
    capturePane lines b = unlines nl (sharedLines lines a b) ++ unlines nl rest := by
  rw [capturePane, ← h, List.drop_append_of_le_length (Nat.le_of_lt hs.lt_paneLines), unlines_append, sharedLines]

theorem sharedLines_matched (hab : a <+: b) (hs : Shares lines a b) (h : paneLines a <+: paneLines b) :
    Matched (capturePane lines b) (capturePane lines a) (unlines nl (sharedLines lines a b)).length := by
  obtain ⟨rest, hrest⟩ := h
  rw [capturePane_split hs hrest]
  refine ⟨by simp, ?_⟩
  rw [List.take_left]
  exact unlines_isSuffix (List.drop_suffix_drop_left _ (firstLine_mono lines hab))

theorem overlap_shared_iff (hab : a <+: b) (hs : Shares lines a b) (h : paneLines a <+: paneLines b) :
    computeCaptureOverlap (capturePane lines a) (capturePane lines b) =
      (unlines nl (sharedLines lines a b)).length ↔ Joins lines a b := by
  have hm := overlap_matched (capturePane lines a) (capturePane lines b)
  constructor
  · intro heq
    exact ⟨h, fun k _ hk => heq ▸ overlap_longest hk⟩
  · intro hj
    exact Nat.le_antisymm (hj.longest _ hm.1 hm) (overlap_longest (sharedLines_matched hab hs h))

/-- The splice continues a stretch exactly when the captures join. -/
theorem continues_iff (hab : a <+: b) (hs : Shares lines a b) {first : Nat} (hf : first ≤ firstLine lines a) :
    unlines nl ((paneLines a).drop first) ++ (capturePane lines b).drop
        (computeCaptureOverlap (capturePane lines a) (capturePane lines b)) =
      unlines nl ((paneLines b).drop first) ↔ Joins lines a b := by
  have hfirst : first < (closedLines nl [] a).length := (hf.trans (firstLine_mono lines hab)).trans_lt hs.lt
  have hstands : ∀ rest, paneLines a ++ rest = paneLines b →
      ((paneLines b).drop first = (paneLines a).drop first ++ rest) := by
    intro rest hrest
    rw [← hrest, List.drop_append_of_le_length (hfirst.le.trans (closedLines_paneLines a).length_le)]
  constructor
  · intro heq
    have hpre : (paneLines a).drop first <+: (paneLines b).drop first :=
      prefix_of_unlines (fun l hl => nl_notMem_paneLines a l (List.mem_of_mem_drop hl))
        (fun l hl => nl_notMem_paneLines b l (List.mem_of_mem_drop hl)) ⟨_, heq⟩
    have hpane : paneLines a <+: paneLines b := by
      obtain ⟨rest, hrest⟩ := hpre
      refine ⟨rest, ?_⟩
      rw [← List.take_append_drop first (paneLines a), ← List.take_append_drop first (paneLines b), ← hrest,
        take_paneLines hab hfirst.le, List.append_assoc]
    obtain ⟨rest, hrest⟩ := hpane
    refine (overlap_shared_iff hab hs ⟨rest, hrest⟩).mp ?_
    have hle := (overlap_matched (capturePane lines a) (capturePane lines b)).1
    rw [hstands rest hrest, unlines_append, List.append_cancel_left_eq] at heq
    have hlen := congrArg List.length heq
    rw [capturePane_split hs hrest] at hle hlen ⊢
    simp only [List.length_drop, List.length_append] at hle hlen ⊢
    omega
  · intro hj
    obtain ⟨rest, hrest⟩ := hj.stands
    rw [(overlap_shared_iff hab hs hj.stands).mpr hj, capturePane_split hs hrest, List.drop_left,
      hstands rest hrest, unlines_append]

end

section

variable {m : Marker} {lines : Nat} {stream : Text}

theorem readAll_concat (s : PollState) (caps : List Text) (cap : Text) :
    readAll m s (caps ++ [cap]) = readCapture m cap (readAll m s caps) := by
  simp [readAll]

theorem captures_concat (ms : List Nat) (t : Nat) :
    captures lines stream (ms ++ [t]) = captures lines stream ms ++ [capturePane lines (stream.take t)] := by
  simp [captures]

theorem shownOnce_singleton (t : Nat) : ShownOnce m lines stream [t] := by
  intro first hfirst last hlast
  obtain rfl := Option.mem_some.mp hfirst
  obtain rfl := Option.mem_some.mp hlast
  rfl

theorem shownOnce_concat {ms : List Nat} {first t t' : Nat} (hfirst : first ∈ (ms ++ [t]).head?) (hle : first ≤ t)
    (htt' : t ≤ t') (hs : Shares lines (stream.take t) (stream.take t'))
    (h : ShownOnce m lines stream (ms ++ [t])) :
    ShownOnce m lines stream (ms ++ [t] ++ [t']) ↔ Joins lines (stream.take t) (stream.take t') := by
  have hacc := h first hfirst t (by simp)
  have hlast : (readAll m {} (captures lines stream (ms ++ [t]))).lastCapture = capturePane lines (stream.take t) := by
    rw [captures_concat, readAll_concat]
    rfl
  have hf := firstLine_mono lines (List.take_prefix_take_left (l := stream) hle)
  have htt := List.take_prefix_take_left (l := stream) htt'
  have hne : (readAll m {} (captures lines stream (ms ++ [t]))).accumulator ≠ [] := by
    rw [hacc, covered, ne_eq, unlines_eq_nil, List.drop_eq_nil_iff]
    exact Nat.not_le_of_lt ((hf.trans (firstLine_mono lines htt)).trans_lt hs.lt_paneLines)
  rw [← continues_iff htt hs hf, ← covered, ← hacc, ← hlast]
  have hnext : (readAll m {} (captures lines stream (ms ++ [t] ++ [t']))).accumulator =
      (readAll m {} (captures lines stream (ms ++ [t]))).accumulator ++ (capturePane lines (stream.take t')).drop
        (computeCaptureOverlap (readAll m {} (captures lines stream (ms ++ [t]))).lastCapture
          (capturePane lines (stream.take t'))) := by
    rw [captures_concat, readAll_concat]
    exact splice_gained hne _
  rw [← hnext]
  constructor
  · intro hshown
    exact hshown first (by rw [List.head?_append, Option.mem_def.mp hfirst, Option.some_or, Option.mem_def])
      t' (by simp)
  · intro heq first' hfirst' last hlast'
    rw [List.head?_append, Option.mem_def.mp hfirst, Option.some_or, Option.mem_some] at hfirst'
    rw [List.getLast?_concat, Option.mem_some] at hlast'
    rw [← hfirst', ← hlast']
    exact heq

/-- Over every run: after each capture the accumulator is the covered stretch
exactly when every two captures that follow one another join. -/
theorem shownOnce_iff {moments : List Nat} (hgrow : moments.Pairwise (· ≤ ·))
    (hshare : moments.IsChain fun t t' => Shares lines (stream.take t) (stream.take t')) :
    (∀ ms, ms <+: moments → ShownOnce m lines stream ms) ↔
      moments.IsChain fun t t' => Joins lines (stream.take t) (stream.take t') := by
  induction moments using List.reverseRecOn with
  | nil =>
      refine iff_of_true ?_ .nil
      intro ms hms first hfirst
      rw [List.prefix_nil.mp hms] at hfirst
      simp at hfirst
  | append_singleton ms t' ih =>
      obtain ⟨hgrow', _, hlater⟩ := List.pairwise_append.mp hgrow
      obtain ⟨hshare', _, hlink⟩ := List.isChain_append.mp hshare
      rw [List.isChain_append, ← ih hgrow' hshare']
      simp only [List.prefix_concat_iff, forall_eq_or_imp, List.IsChain.singleton, true_and, List.head?_singleton,
        Option.mem_some, forall_eq']
      rw [and_comm]
      refine and_congr_right fun hshown => ?_
      rcases List.eq_nil_or_concat ms with rfl | ⟨pre, t, rfl⟩
      · exact iff_of_true (shownOnce_singleton t') (by simp)
      · rw [List.concat_eq_append] at hlink hlater hgrow' hshown ⊢
        simp only [List.getLast?_concat, Option.mem_some, List.head?_cons, forall_eq'] at hlink ⊢
        obtain ⟨first, hfirst⟩ : ∃ first, first ∈ (pre ++ [t]).head? := by
          cases pre <;> simp
        have hle : first ≤ t := by
          cases pre with
          | nil => exact (Option.mem_some.mp hfirst).ge
          | cons f fs =>
              obtain rfl := Option.mem_some.mp hfirst
              exact List.rel_of_pairwise_cons hgrow' (by simp)
        exact shownOnce_concat hfirst hle (hlater t (by simp) t' (by simp)) hlink (hshown _ List.prefix_rfl)

theorem shownOnce_scrolled : ShownOnce (Marker.makeMarker (lit "1")) 2 (lit "a\nb\nc\n") [4, 6] := by
  have hshare : [4, 6].IsChain fun t t' => Shares 2 ((lit "a\nb\nc\n").take t) ((lit "a\nb\nc\n").take t') :=
    List.isChain_pair.mpr ⟨1, by decide +kernel⟩
  have hjoin : [4, 6].IsChain fun t t' => Joins 2 ((lit "a\nb\nc\n").take t) ((lit "a\nb\nc\n").take t') :=
    List.isChain_pair.mpr (by decide +kernel)
  exact (shownOnce_iff (by decide) hshare).mpr hjoin [4, 6] List.prefix_rfl

/-- The line that was being written at the first capture is spliced in twice,
and so is every line above it. -/
theorem not_shownOnce :
    ¬ ∀ (m : Marker) (lines : Nat) (stream : Text) (moments : List Nat), moments.Pairwise (· ≤ ·) →
      (moments.IsChain fun t t' => Shares lines (stream.take t) (stream.take t')) →
      ShownOnce m lines stream moments := by
  intro h
  have hacc := h (Marker.makeMarker (lit "1")) 10 (lit "L1\nabcdef\n") [6, 10] (by decide)
    (List.isChain_pair.mpr ⟨0, by decide +kernel⟩) 6 rfl 10 rfl
  have hrun : (readAll (Marker.makeMarker (lit "1")) {}
      (captures 10 (lit "L1\nabcdef\n") [6, 10])).accumulator = lit "L1\nabc\nL1\nabcdef\n" := by
    decide +kernel
  rw [hrun] at hacc
  exact absurd hacc (by decide +kernel)

/-- Repeated lines go the other way: the captures are equal, and a line is lost. -/
example : (readAll (Marker.makeMarker (lit "1")) {}
    (captures 3 (lit "a\na\na\na\n") [6, 8])).accumulator = lit "a\na\na\n" := by
  decide +kernel

end

section

variable {m : Marker}

/-- A loop whose accumulator was trimmed at BEGIN, beside the reading without
trim and compaction: it lacks this text. -/
structure Trails (gone : Text) (s full : PollState) : Prop where
  lastCapture : s.lastCapture = full.lastCapture
  accumulator : full.accumulator = gone ++ s.accumulator
  nonempty : s.accumulator ≠ []
  trimmed : s.beginTrimmed = true

theorem Trails.readCapture {gone : Text} {s full : PollState} (h : Trails gone s full) (cap : Text) :
    Trails gone (readCapture m cap s) (Poll.readCapture m cap full) := by
  have hfull : full.accumulator ≠ [] := by
    rw [h.accumulator]
    exact fun hnil => h.nonempty (List.append_eq_nil_iff.mp hnil).2
  have hgained := splice_gained h.nonempty cap
  have hgained' := splice_gained hfull cap
  rw [h.lastCapture] at hgained
  refine ⟨rfl, ?_, ?_, h.trimmed⟩
  · change splice full cap = gone ++ splice s cap
    rw [hgained, hgained', h.accumulator, List.append_assoc]
  · change splice s cap ≠ []
    rw [hgained]
    exact fun hnil => h.nonempty (List.append_eq_nil_iff.mp hnil).1

theorem emitProgress_accumulator (pass : Pass) (s : PollState) :
    (emitProgress pass s).accumulator = s.accumulator ∧ (emitProgress pass s).lastCapture = s.lastCapture ∧
      (emitProgress pass s).beginTrimmed = s.beginTrimmed := by
  unfold emitProgress
  split <;> exact ⟨rfl, rfl, rfl⟩

/-- After the trim a turn changes the accumulator only by compaction. -/
theorem Trails.finishTurn {pass : Pass} {gone : Text} {s full : PollState}
    (h : Trails gone (trimAtBegin pass.marker s) full)
    (hsize : full.accumulator.length ≤ gone.length + kMaxEvalAccumulatorBytes) :
    Trails gone (finishTurn pass s) full := by
  obtain ⟨hacc, hlast, hbegin⟩ := emitProgress_accumulator pass (trimAtBegin pass.marker s)
  have hle := congrArg List.length h.accumulator
  rw [List.length_append] at hle
  have hfits : ¬ kMaxEvalAccumulatorBytes < (emitProgress pass (trimAtBegin pass.marker s)).accumulator.length := by
    rw [hacc]
    omega
  rw [Poll.finishTurn, boundAccumulator, if_neg fun hover => hfits hover.2]
  exact ⟨hlast.trans h.lastCapture, by rw [hacc]; exact h.accumulator, by rw [hacc]; exact h.nonempty,
    hbegin.trans h.trimmed⟩

/-- The captures that the turns could take. -/
def captured (is : List PollInput) : List Text := is.filterMap (·.captured.toOption)

theorem captured_append (is js : List PollInput) : captured (is ++ js) = captured is ++ captured js :=
  List.filterMap_append

theorem readAll_append (s : PollState) (caps caps' : List Text) :
    readAll m s (caps ++ caps') = readAll m (readAll m s caps) caps' := by
  simp [readAll]

theorem readAll_grows (s : PollState) (caps : List Text) :
    s.accumulator.length ≤ (readAll m s caps).accumulator.length := by
  induction caps generalizing s with
  | nil => exact Nat.le_refl _
  | cons cap caps ih =>
      obtain ⟨_, new, _, _, hsplice⟩ := splice_eq s cap
      have hle : s.accumulator.length ≤ (Poll.readCapture m cap s).accumulator.length := by
        change _ ≤ (splice s cap).length
        rw [hsplice, List.length_append]
        exact Nat.le_add_right _ _
      exact hle.trans (ih _)

/-- In a trimmed loop that compacts nothing, the accumulator is what the
captures splice to, but for what the trim took off. -/
theorem poll_trails {pass : Pass} {gone : Text} {s s' : PollState} {done : List Text} {is : List PollInput}
    (h : Trails gone s (readAll pass.marker {} done))
    (hsize : (readAll pass.marker {} (done ++ captured is)).accumulator.length ≤
      gone.length + kMaxEvalAccumulatorBytes)
    (hrun : poll pass s is = .again s') : Trails gone s' (readAll pass.marker {} (done ++ captured is)) := by
  induction is generalizing s done with
  | nil =>
      obtain rfl := Polled.again.inj hrun
      rwa [captured, List.filterMap_nil, List.append_nil]
  | cons i is ih =>
      obtain ⟨t, hstep, hrest⟩ := poll_cons_again hrun
      rcases pollStep_again hstep with ⟨error, hcap, rfl⟩ | ⟨cap, hcap, rfl, _⟩
      · have hall : captured (i :: is) = captured is := by simp [captured, hcap, Except.toOption]
        rw [hall] at hsize ⊢
        have hlost : Trails gone { s with captureFailures := s.captureFailures + 1 } (readAll pass.marker {} done) :=
          ⟨h.lastCapture, h.accumulator, h.nonempty, h.trimmed⟩
        exact ih hlost hsize hrest
      · have hall : done ++ captured (i :: is) = (done ++ [cap]) ++ captured is := by
          simp [captured, hcap, Except.toOption]
        rw [hall] at hsize ⊢
        have hread := @Trails.readCapture pass.marker _ _ _ h cap
        rw [← readAll_concat] at hread
        have hle : (readAll pass.marker {} (done ++ [cap])).accumulator.length ≤
            gone.length + kMaxEvalAccumulatorBytes := by
          rw [readAll_append] at hsize
          exact (readAll_grows _ _).trans hsize
        refine ih (Trails.finishTurn ?_ hle) hsize hrest
        rwa [trimAtBegin_trimmed hread.trimmed]

end

end JJMCP.Scrollback
