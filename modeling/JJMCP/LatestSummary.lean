import Mathlib.Data.List.Forall2
import Mathlib.Data.List.Perm.Subperm
import Mathlib.Data.Nat.Find
import JJMCP.TestSummary

namespace JJMCP.TestSummary

open Lib.Occurrence Lib.Words Text

def hasSummary (line : Text) : Bool := (find summaryMark line).isSome

def hasFailure (line : Text) : Bool := (find (lit "Test Failed at") line).isSome

/-- The last line with a summary mark, with the lines above and below it. -/
def latestSummary : List Text → Option (List Text × Text × List Text)
  | [] => none
  | line :: lines =>
      match latestSummary lines with
      | some (above, header, below) => some (line :: above, header, below)
      | none => if hasSummary line then some ([], line, lines) else none

/-- The snippet of the line at an index that names a failed test. -/
def FailsAt (lines : List Text) (k : Nat) (snippet : Text) : Prop :=
  ∃ line, lines[k]? = some line ∧ hasFailure line = true ∧
    snippet = failureSnippet (if k = 0 then none else lines[k - 1]?) line lines[k + 1]?

/-- The failing lines from one with the snippet on, up to an index, all give it. -/
def Repeats (lines : List Text) (k : Nat) (snippet : Text) : Prop :=
  ∃ j < k, FailsAt lines j snippet ∧ ∀ i other, j < i → i < k → FailsAt lines i other → other = snippet

/-- The line an entry is taken from: the first of the failing lines in a row that
give its snippet. -/
def TakenFrom (lines : List Text) (k : Nat) (snippet : Text) : Prop :=
  FailsAt lines k snippet ∧ ¬Repeats lines k snippet

/-- After every summary line of the lines above the latest one. -/
def AfterPrevious (above : List Text) (k : Nat) : Prop :=
  ∀ j line, above[j]? = some line → hasSummary line = true → j < k

/-- A row below the header reads as the parsed counts. -/
def RowReads (header : Text) (below : List Text) (parsed : TestSummaryResult) : Prop :=
  ∃ row ∈ below.take 11, ∃ columns ∈ columnCandidates header below,
    parseSummaryCountsRow columns (trimAscii row) = some parsed

/-- The counts come from below the latest summary line, and each entry of the failures
from a line of its own after the summary line before it. -/
def LatestReported (capture : Text) : Prop :=
  ∃ above header below, latestSummary (splitLines capture) = some (above, header, below) ∧
    (∃ parsed, RowReads header below parsed ∧
      parseTestSummary capture = { parsed with failures := (parseTestSummary capture).failures }) ∧
    ∃ ks : List Nat, ks.Pairwise (· < ·) ∧
      List.Forall₂ (TakenFrom (splitLines capture)) ks (parseTestSummary capture).failures ∧
        ∀ k ∈ ks, AfterPrevious above k

/-- Some row below the latest summary line reads as counts, and no failing line stands
before the previous one. -/
def LatestReadable (capture : Text) : Prop :=
  ∃ above header below, latestSummary (splitLines capture) = some (above, header, below) ∧
    (∃ parsed, RowReads header below parsed) ∧
    ∀ k line, (splitLines capture)[k]? = some line → hasFailure line = true → AfterPrevious above k

theorem latestSummary_some {lines above below : List Text} {header : Text}
    (h : latestSummary lines = some (above, header, below)) :
    lines = above ++ header :: below ∧ hasSummary header = true ∧ ∀ line ∈ below, hasSummary line = false := by
  have hnone : ∀ lines, latestSummary lines = none → ∀ line ∈ lines, hasSummary line = false := by
    intro lines
    induction lines with
    | nil => simp
    | cons line lines ih =>
        intro h
        cases hr : latestSummary lines with
        | some r => simp [latestSummary, hr] at h
        | none =>
            have hline : hasSummary line = false := by simpa [latestSummary, hr] using h
            simpa [hline] using ih hr
  induction lines generalizing above with
  | nil => cases h
  | cons line lines ih =>
      cases hr : latestSummary lines with
      | some r =>
          obtain ⟨above', header', below'⟩ := r
          simp only [latestSummary, hr, Option.some.injEq, Prod.mk.injEq] at h
          obtain ⟨rfl, rfl, rfl⟩ := h
          obtain ⟨hl, hm, hb⟩ := ih hr
          exact ⟨by rw [hl]; rfl, hm, hb⟩
      | none =>
          simp only [latestSummary, hr, Option.ite_none_right_eq_some, Option.some.injEq, Prod.mk.injEq] at h
          obtain ⟨hm, rfl, rfl, rfl⟩ := h
          exact ⟨rfl, hm, hnone _ hr⟩

theorem rowLoop_reads {candidates : List (List Column)} {rows : List Text} {parsed : TestSummaryResult}
    (h : rowLoop candidates rows = some parsed) :
    ∃ row ∈ rows, ∃ columns ∈ candidates, parseSummaryCountsRow columns (trimAscii row) = some parsed := by
  induction rows with
  | nil => cases h
  | cons row rows ih =>
      have hrest (h : rowLoop candidates rows = some parsed) : ∃ r ∈ row :: rows, ∃ columns ∈ candidates,
          parseSummaryCountsRow columns (trimAscii r) = some parsed := by
        obtain ⟨r, hr, hc⟩ := ih h
        exact ⟨r, List.mem_cons_of_mem _ hr, hc⟩
      rw [rowLoop] at h
      split at h
      · exact hrest h
      · split at h
        · cases h
        · split at h
          next p hp =>
            obtain rfl := Option.some.inj h
            obtain ⟨columns, hc, hparse⟩ := List.exists_of_findSome?_eq_some hp
            exact ⟨row, List.mem_cons_self, columns, hc, hparse⟩
          · exact hrest h

theorem parse_blank (columns : List Column) : parseSummaryCountsRow columns [] = none := if_pos (by decide)

theorem hasSummary_trim {row : Text} (h : hasSummary row = false) : hasSummary (trimAscii row) = false := by
  cases hm : hasSummary (trimAscii row) with
  | false => rfl
  | true =>
      have hrow : hasSummary row = true := find_isSome.mpr ((find_isSome.mp hm).trans (trimAscii_isInfix row))
      exact absurd hrow (by simp [h])

/-- Without another summary line among them, a row that reads is found. -/
theorem rowLoop_isSome {candidates : List (List Column)} {rows : List Text}
    (hrows : ∀ row ∈ rows, hasSummary row = false) {row : Text} (hrow : row ∈ rows) {columns : List Column}
    (hc : columns ∈ candidates) {parsed : TestSummaryResult}
    (h : parseSummaryCountsRow columns (trimAscii row) = some parsed) : ∃ p, rowLoop candidates rows = some p := by
  induction rows with
  | nil => cases hrow
  | cons r rows ih =>
      have hr : (find summaryMark (trimAscii r)).isSome = false := hasSummary_trim (hrows r List.mem_cons_self)
      have hrest (hrow : row ∈ rows) := ih (fun row h => hrows row (List.mem_cons_of_mem _ h)) hrow
      rw [rowLoop]
      by_cases hblank : trimAscii r = []
      · rw [if_pos hblank]
        rcases List.mem_cons.mp hrow with rfl | hrow
        · rw [hblank, parse_blank] at h
          cases h
        · exact hrest hrow
      · rw [if_neg hblank, if_neg (by simp [hr])]
        cases hf : candidates.findSome? (parseSummaryCountsRow · (trimAscii r)) with
        | some p => exact ⟨p, rfl⟩
        | none =>
            rcases List.mem_cons.mp hrow with rfl | hrow
            · rw [List.findSome?_eq_none_iff.mp hf columns hc] at h
              cases h
            · exact hrest hrow

/-- The loop over the lines comes to the latest summary line first. -/
theorem summaryLoop_below (below above acc : List Text) (h : ∀ line ∈ below, hasSummary line = false) :
    summaryLoop (below.reverse ++ above) acc = summaryLoop above (below ++ acc) := by
  induction below using List.reverseRecOn generalizing acc with
  | nil => rfl
  | append_singleton below line ih =>
      have hline : (find summaryMark line).isSome = false := h line (by simp)
      rw [List.reverse_append, List.reverse_singleton, List.append_assoc, List.singleton_append, summaryLoop, hline,
        if_neg (by simp), ih _ fun l hl => h l (by simp [hl]), List.append_assoc, List.singleton_append]

theorem summaryLoop_latest {above below : List Text} {header : Text} (hm : hasSummary header = true)
    (hb : ∀ line ∈ below, hasSummary line = false) :
    summaryLoop (above ++ header :: below).reverse [] =
      match rowLoop (columnCandidates header below) (below.take 11) with
      | some parsed => some parsed
      | none => summaryLoop above.reverse (header :: below) := by
  have hm' : (find summaryMark header).isSome = true := hm
  rw [List.reverse_append, List.reverse_cons, List.append_assoc, List.singleton_append, summaryLoop_below _ _ _ hb,
    List.append_nil, summaryLoop]
  exact if_pos hm'

theorem joinLines_ne_nil {line : Text} {lines : List Text} (h : line ∈ lines) (hne : ∀ l ∈ lines, l ≠ []) :
    joinLines lines 0 lines.length ≠ [] := by
  have hgrow : ∀ (ls : List Text) (out : Text), out ≠ [] →
      ls.foldl (fun out line => (if out = [] then out else out ++ [nl]) ++ line) out ≠ [] := by
    intro ls
    induction ls with
    | nil => exact fun _ h => h
    | cons l ls ih => exact fun out h => ih _ (by simp [h])
  cases lines with
  | nil => cases h
  | cons l ls =>
      rw [joinLines, List.take_length, List.drop_zero, List.foldl_cons]
      exact hgrow ls _ (by simpa using hne l List.mem_cons_self)

theorem failureSnippet_ne_nil {line : Text} (h : hasFailure line = true) (before after : Option Text) :
    failureSnippet before line after ≠ [] := by
  have htrim : trimAscii line ≠ [] := by
    intro hnil
    obtain ⟨a, b, hline, ha, hb⟩ := trimAscii_split line
    have hmem : 84 ∈ line := (find_isSome.mp h).subset (by decide)
    rw [hline, hnil, List.nil_append, List.mem_append] at hmem
    exact absurd (hmem.elim (ha 84) (hb 84)) (by decide)
  refine @joinLines_ne_nil (trimAscii line) _ ?_ fun l hl => by simpa using (List.mem_filter.mp hl).2
  simp [htrim]

theorem FailsAt.unique {lines : List Text} {k : Nat} {s t : Text} (hs : FailsAt lines k s) (ht : FailsAt lines k t) :
    s = t := by
  obtain ⟨line, hl, -, rfl⟩ := hs
  obtain ⟨line', hl', -, rfl⟩ := ht
  rw [hl] at hl'
  rw [Option.some.inj hl']

theorem Repeats.unique {lines : List Text} {k : Nat} {s t : Text} (hs : Repeats lines k s) (ht : Repeats lines k t) :
    s = t := by
  obtain ⟨i, hi, hfi, hsi⟩ := hs
  obtain ⟨j, hj, hfj, htj⟩ := ht
  rcases Nat.lt_trichotomy i j with h | rfl | h
  · exact (hsi j t h hj hfj).symm
  · exact hfi.unique hfj
  · exact htj i s h hi hfi

/-- Past a failing line, its snippet is the one that is repeated. -/
theorem repeats_succ_fails {lines : List Text} {k : Nat} {s t : Text} (h : FailsAt lines k s) :
    Repeats lines (k + 1) t ↔ t = s := by
  have hself : Repeats lines (k + 1) s := ⟨k, Nat.lt_succ_self k, h, fun i _ hk hi _ => absurd hi (by omega)⟩
  exact ⟨fun ht => ht.unique hself, fun ht => ht ▸ hself⟩

theorem repeats_succ_passes {lines : List Text} {k : Nat} {t : Text} (h : ∀ s, ¬FailsAt lines k s) :
    Repeats lines (k + 1) t ↔ Repeats lines k t := by
  constructor
  · rintro ⟨j, hj, hf, hrest⟩
    have hne : j ≠ k := fun hk => h t (hk ▸ hf)
    exact ⟨j, by omega, hf, fun i other hi hik => hrest i other hi (by omega)⟩
  · rintro ⟨j, hj, hf, hrest⟩
    refine ⟨j, by omega, hf, fun i other hi hik hother => ?_⟩
    have hne : i ≠ k := fun hk => h other (hk ▸ hother)
    exact hrest i other hi (by omega) hother

/-- The entries listed from the lines before an index, each with the line it is
taken from. -/
structure Listed (lines : List Text) (n : Nat) (ks : List Nat) (failures : List Text) : Prop where
  ordered : ks.Pairwise (· < ·)
  before : ∀ k ∈ ks, k < n
  taken : List.Forall₂ (TakenFrom lines) ks failures
  complete : ∀ k < n, ∀ snippet, TakenFrom lines k snippet → k ∈ ks
  last : ∀ snippet, failures.getLast? = some snippet ↔ Repeats lines n snippet

theorem listed_nil (lines : List Text) : Listed lines 0 [] [] where
  ordered := .nil
  before := by simp
  taken := .nil
  complete := by simp
  last snippet := by simp [Repeats]

theorem Listed.passed {lines : List Text} {n : Nat} {ks : List Nat} {failures : List Text}
    (h : Listed lines n ks failures) (hn : ∀ s, ¬FailsAt lines n s) : Listed lines (n + 1) ks failures where
  ordered := h.ordered
  before k hk := Nat.lt_succ_of_lt (h.before k hk)
  taken := h.taken
  complete k hk snippet ht := by
    have hne : k ≠ n := fun hkn => hn snippet (hkn ▸ ht.1)
    exact h.complete k (by omega) snippet ht
  last snippet := by rw [h.last, repeats_succ_passes hn]

theorem Listed.repeated {lines : List Text} {n : Nat} {ks : List Nat} {failures : List Text} {s : Text}
    (h : Listed lines n ks failures) (hn : FailsAt lines n s) (hlast : failures.getLast? = some s) :
    Listed lines (n + 1) ks failures where
  ordered := h.ordered
  before k hk := Nat.lt_succ_of_lt (h.before k hk)
  taken := h.taken
  complete k hk snippet ht := by
    have hne : k ≠ n := by
      rintro rfl
      exact ht.2 (ht.1.unique hn ▸ (h.last s).mp hlast)
    exact h.complete k (by omega) snippet ht
  last snippet := by
    rw [repeats_succ_fails hn, hlast, Option.some.injEq, eq_comm]

theorem Listed.added {lines : List Text} {n : Nat} {ks : List Nat} {failures : List Text} {s : Text}
    (h : Listed lines n ks failures) (hn : FailsAt lines n s) (hlast : failures.getLast? ≠ some s) :
    Listed lines (n + 1) (ks ++ [n]) (failures ++ [s]) where
  ordered := by
    rw [List.pairwise_append]
    refine ⟨h.ordered, List.pairwise_singleton _ _, fun k hk m hm => ?_⟩
    rw [List.mem_singleton.mp hm]
    exact h.before k hk
  before k hk := by
    rcases List.mem_append.mp hk with hk | hk
    · exact Nat.lt_succ_of_lt (h.before k hk)
    · rw [List.mem_singleton.mp hk]
      exact Nat.lt_succ_self n
  taken := List.rel_append h.taken (.cons ⟨hn, fun hr => hlast ((h.last s).mpr hr)⟩ .nil)
  complete k hk snippet ht := by
    rcases Nat.lt_succ_iff_lt_or_eq.mp hk with hk | rfl
    · exact List.mem_append_left _ (h.complete k hk snippet ht)
    · simp
  last snippet := by
    rw [repeats_succ_fails hn, List.getLast?_concat, Option.some.injEq, eq_comm]

/-- The loop lists each failing line that does not repeat the one before it. -/
theorem snippetLoop_listed {lines done rest : List Text} {ks : List Nat} {failures : List Text}
    (hlines : lines = done ++ rest) (h : Listed lines done.length ks failures) :
    ∃ ks', Listed lines lines.length ks' (snippetLoop done.getLast? failures rest) := by
  induction rest generalizing done ks failures with
  | nil =>
      rw [List.append_nil] at hlines
      exact ⟨ks, hlines ▸ h⟩
  | cons line rest ih =>
      have hsplit : lines = (done ++ [line]) ++ rest := by rw [hlines, List.append_assoc, List.singleton_append]
      have hline : lines[done.length]? = some line := by simp [hlines]
      have hbefore : (if done.length = 0 then none else lines[done.length - 1]?) = done.getLast? := by
        rcases List.eq_nil_or_concat done with rfl | ⟨before, last, rfl⟩
        · rfl
        · simp [hlines]
      have hafter : lines[done.length + 1]? = rest.head? := by
        rw [hsplit, List.getElem?_append_right (by simp), List.head?_eq_getElem?]
        simp
      have hfails (s : Text) : FailsAt lines done.length s ↔
          hasFailure line = true ∧ s = failureSnippet done.getLast? line rest.head? := by
        simp only [FailsAt, hline, Option.some.injEq, exists_eq_left', hbefore, hafter]
      have hlen : (done ++ [line]).length = done.length + 1 := by simp
      have hnext {ks' : List Nat} {failures' : List Text} (h' : Listed lines (done.length + 1) ks' failures') :
          ∃ ks'', Listed lines lines.length ks'' (snippetLoop (some line) failures' rest) := by
        simpa using ih hsplit (hlen ▸ h')
      rw [snippetLoop]
      by_cases hfail : hasFailure line = true
      · have hn := (hfails _).mpr ⟨hfail, rfl⟩
        by_cases hlast : failures.getLast? = some (failureSnippet done.getLast? line rest.head?)
        · rw [if_neg (by simp [hlast])]
          exact hnext (h.repeated hn hlast)
        · rw [if_pos ⟨hfail, failureSnippet_ne_nil hfail _ _, hlast⟩]
          exact hnext (h.added hn hlast)
      · rw [if_neg fun hc => hfail hc.1]
        exact hnext (h.passed fun s hs => hfail ((hfails s).mp hs).1)

theorem extractFailureSnippets_listed (lines : List Text) :
    ∃ ks, Listed lines lines.length ks (extractFailureSnippets lines) :=
  @snippetLoop_listed lines [] lines [] [] rfl (listed_nil lines)

theorem takenFrom_of_mem {lines : List Text} {ks : List Nat} {failures : List Text}
    (h : List.Forall₂ (TakenFrom lines) ks failures) {k : Nat} (hk : k ∈ ks) : ∃ snippet, TakenFrom lines k snippet := by
  induction h with
  | nil => cases hk
  | @cons j snippet ks failures hj _ ih =>
      rcases List.mem_cons.mp hk with rfl | hk
      · exact ⟨snippet, hj⟩
      · exact ih hk

/-- No other lines can stand for the entries. -/
theorem Listed.unique {lines : List Text} {ks ks' : List Nat} {failures : List Text}
    (h : Listed lines lines.length ks failures) (hord : ks'.Pairwise (· < ·))
    (htaken : List.Forall₂ (TakenFrom lines) ks' failures) {k : Nat} (hk : k ∈ ks) : k ∈ ks' := by
  have hsub : ks' ⊆ ks := by
    intro j hj
    obtain ⟨_, ht⟩ := takenFrom_of_mem htaken hj
    obtain ⟨line, hline, -⟩ := ht.1
    have hlt := (List.getElem?_eq_some_iff.mp hline).1
    exact h.complete _ hlt _ ht
  have hnodup : ks'.Nodup := hord.imp Nat.ne_of_lt
  have hlen : ks.length ≤ ks'.length := by rw [h.taken.length_eq, htaken.length_eq]
  exact ((hnodup.subperm hsub).perm_of_length_le hlen).mem_iff.mpr hk

/-- A line of the entries stands at or above every failing line. -/
theorem takenFrom_above {lines : List Text} {k : Nat} {snippet : Text} (h : FailsAt lines k snippet) :
    ∃ j ≤ k, ∃ s, TakenFrom lines j s := by
  classical
  have hex : ∃ j s, FailsAt lines j s := ⟨k, snippet, h⟩
  obtain ⟨s, hs⟩ := Nat.find_spec hex
  refine ⟨Nat.find hex, Nat.find_le ⟨snippet, h⟩, s, hs, ?_⟩
  rintro ⟨j, hj, hfj, -⟩
  exact Nat.find_min hex hj ⟨s, hfj⟩

theorem parse_failures (capture : Text) :
    (parseTestSummary capture).failures = extractFailureSnippets (splitLines capture) := by
  rw [parseTestSummary]
  split
  · rfl
  · rfl

theorem parse_found {capture : Text} {parsed : TestSummaryResult}
    (h : summaryLoop (splitLines capture).reverse [] = some parsed) :
    parseTestSummary capture = { parsed with failures := (parseTestSummary capture).failures } := by
  rw [parse_failures, parseTestSummary, h]

/-- A found summary is the latest one, and every failure is of its run, exactly when
a row below the latest summary line reads as counts and no failing line stands
before the previous summary line. -/
theorem latestReported_iff (capture : Text) :
    LatestReported capture ↔ LatestReadable capture := by
  obtain ⟨ks, hlisted⟩ := extractFailureSnippets_listed (splitLines capture)
  constructor
  · rintro ⟨above, header, below, hlatest, ⟨parsed, hreads, -⟩, ks', hord, htaken, hafter⟩
    refine ⟨above, header, below, hlatest, ⟨parsed, hreads⟩, fun k line hline hfail => ?_⟩
    obtain ⟨j, hjk, s, hj⟩ := takenFrom_above ⟨line, hline, hfail, rfl⟩
    obtain ⟨jline, hjline, -⟩ := hj.1
    have hmem : j ∈ ks := hlisted.complete j (List.getElem?_eq_some_iff.mp hjline).1 s hj
    rw [parse_failures] at htaken
    have hprev := hafter j (hlisted.unique hord htaken hmem)
    exact fun i l hi hs => Nat.lt_of_lt_of_le (hprev i l hi hs) hjk
  · rintro ⟨above, header, below, hlatest, ⟨parsed, row, hrow, columns, hc, hparse⟩, hnone⟩
    obtain ⟨hlines, hm, hb⟩ := latestSummary_some hlatest
    obtain ⟨first, hfirst⟩ := rowLoop_isSome (fun r hr => hb r (List.mem_of_mem_take hr)) hrow hc hparse
    have hloop : summaryLoop (splitLines capture).reverse [] = some first := by
      rw [hlines, summaryLoop_latest hm hb, hfirst]
    refine ⟨above, header, below, hlatest, ⟨first, rowLoop_reads hfirst, parse_found hloop⟩, ks, hlisted.ordered, ?_, ?_⟩
    · rw [parse_failures]
      exact hlisted.taken
    · intro k hk
      obtain ⟨_, ⟨line, hline, hfail, -⟩, -⟩ := takenFrom_of_mem hlisted.taken hk
      exact hnone _ line hline hfail

def unfinishedRun : Text := lit "Test Summary: | Pass  Total\nold | 3  3\nTest Summary: | Pass  Total\n"

/-- Two runs, each with a failed test and a row. -/
def twoRuns : Text :=
  lit "Test Failed at a.jl:1\nTest Summary: | Fail  Total\nold | 1  1\n" ++
    lit "Test Failed at b.jl:1\nTest Summary: | Fail  Total\nnew | 1  1\n"

/-- The row of the last run is not printed yet: the counts of the run before it are
reported as found. Where it is printed, the failures of the run before are still listed. -/
theorem not_latestReported :
    (¬ ∀ capture, (parseTestSummary capture).foundSummary = true → LatestReported capture) ∧
      ¬ ∀ capture, (∃ above header below parsed,
        latestSummary (splitLines capture) = some (above, header, below) ∧ RowReads header below parsed) →
          LatestReported capture := by
  constructor
  · intro h
    obtain ⟨above, header, below, hlatest, ⟨parsed, ⟨row, hrow, columns, -, hparse⟩, -⟩, -⟩ :=
      h unfinishedRun (by decide +kernel)
    have hbelow : (latestSummary (splitLines unfinishedRun)).map (fun r => r.2.2) = some [[]] := by decide +kernel
    rw [hlatest] at hbelow
    obtain rfl : below = [[]] := by simpa using hbelow
    obtain rfl : row = [] := by simpa using hrow
    rw [show trimAscii [] = [] from rfl, parse_blank] at hparse
    cases hparse
  · intro h
    have hlines : splitLines twoRuns = [lit "Test Failed at a.jl:1", lit "Test Summary: | Fail  Total", lit "old | 1  1",
        lit "Test Failed at b.jl:1", lit "Test Summary: | Fail  Total", lit "new | 1  1", []] := by
      decide +kernel
    have hlatest : latestSummary (splitLines twoRuns) = some ([lit "Test Failed at a.jl:1", lit "Test Summary: | Fail  Total",
        lit "old | 1  1", lit "Test Failed at b.jl:1"], lit "Test Summary: | Fail  Total", [lit "new | 1  1", []]) := by
      rw [hlines]
      decide +kernel
    have hrow : (rowLoop (columnCandidates (lit "Test Summary: | Fail  Total") [lit "new | 1  1", []])
        ([lit "new | 1  1", []].take 11)).isSome = true := by
      decide +kernel
    obtain ⟨parsed, hparsed⟩ := Option.isSome_iff_exists.mp hrow
    obtain ⟨above, header, below, hsame, -, ks, hord, htaken, hafter⟩ :=
      h twoRuns ⟨_, _, _, parsed, hlatest, rowLoop_reads hparsed⟩
    obtain ⟨rfl, -⟩ := Prod.mk.inj (Option.some.inj (hlatest.symm.trans hsame))
    have htwo : ks.length = 2 := by
      rw [htaken.length_eq]
      decide +kernel
    have hfails : ∀ k ∈ ks, k = 3 := by
      intro k hk
      obtain ⟨_, ⟨line, hline, hfail, -⟩, -⟩ := takenFrom_of_mem htaken hk
      have hprevious := hafter k hk 1 (lit "Test Summary: | Fail  Total") rfl (by decide)
      rw [hlines] at hline
      rcases k with _ | _ | _ | _ | _ | _ | _ | k
      · omega
      · omega
      · obtain rfl := Option.some.inj hline
        exact absurd hfail (by decide)
      · rfl
      · obtain rfl := Option.some.inj hline
        exact absurd hfail (by decide)
      · obtain rfl := Option.some.inj hline
        exact absurd hfail (by decide)
      · obtain rfl := Option.some.inj hline
        exact absurd hfail (by decide)
      · cases hline
    obtain ⟨a, b, rfl⟩ := List.length_eq_two.mp htwo
    have hab : a < b := by simpa using hord
    have ha := hfails a (by simp)
    have hb := hfails b (by simp)
    omega

end JJMCP.TestSummary
