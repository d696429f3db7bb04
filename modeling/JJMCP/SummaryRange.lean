import JJMCP.TestSummary

namespace JJMCP.SummaryRange

open Lib.Occurrence Text TestSummary

def kIntMax : Nat := 2147483647

/-- A number as an int of the source; past its range there is none. -/
def toInt (n : Nat) : Option Nat := if n ≤ kIntMax then some n else none

def addInt (a b : Nat) : Option Nat := toInt (a + b)

/-- The next attempt, where the last one came to nothing. -/
def orTry {α : Type} (r next : Option (Option α)) : Option (Option α) := r.bind fun r => r.elim next (some ∘ some)

def readColumnInt (s : RowState) (c : Column) : Option (Option RowState) :=
  if c = .time then some (readTime s)
  else
    (nextInteger s.tokens).elim (some none) fun p =>
      (toInt p.1).map fun v => some { tokens := p.2, row := setCount c v s.row, parsed := s.parsed ++ [c] }

def readColumnsInt (s : RowState) : List Column → Option (Option RowState)
  | [] => some (some s)
  | c :: cs => (readColumnInt s c).bind fun r => r.elim (some none) (readColumnsInt · cs)

/-- The counts are read, and no total beside them. -/
def Derives (s : RowState) : Prop :=
  .total ∉ s.parsed ∧ (Column.pass ∈ s.parsed ∨ .fail ∈ s.parsed ∨ .broken ∈ s.parsed ∨ .error ∈ s.parsed)

instance (s : RowState) : Decidable (Derives s) := inferInstanceAs (Decidable (_ ∧ _))

/-- The sum as the source adds it, from the left. -/
def derivedTotal (r : TestSummaryResult) : Option Nat :=
  ((addInt r.testPass r.testFail).bind (addInt · r.testBroken)).bind (addInt · r.testError)

def finishRowInt (s : RowState) : Option (Option TestSummaryResult) :=
  if Derives s then
    (derivedTotal s.row).map fun total =>
      finishRow { s with row := { s.row with testTotal := total }, parsed := s.parsed ++ [.total] }
  else some (finishRow s)

/-- parse_summary_counts_row with the source's ints: without a result where one
of them would leave its range. -/
def parseSummaryCountsRowInt (columns : List Column) (line : Text) : Option (Option TestSummaryResult) :=
  if summaryTokens line = [] then some none
  else (readColumnsInt { tokens := summaryTokens line } columns).bind fun r => r.elim (some none) finishRowInt

def firstRowInt (line : Text) : List (List Column) → Option (Option TestSummaryResult)
  | [] => some none
  | columns :: more => orTry (parseSummaryCountsRowInt columns line) (firstRowInt line more)

def rowLoopInt (candidates : List (List Column)) : List Text → Option (Option TestSummaryResult)
  | [] => some none
  | row :: rows =>
      let line := trimAscii row
      if line = [] then rowLoopInt candidates rows
      else if (find summaryMark line).isSome then some none
      else orTry (firstRowInt line candidates) (rowLoopInt candidates rows)

def summaryLoopInt : List Text → List Text → Option (Option TestSummaryResult)
  | [], _ => some none
  | line :: above, below =>
      if (find summaryMark line).isSome then
        orTry (rowLoopInt (columnCandidates line below) (below.take 11)) (summaryLoopInt above (line :: below))
      else summaryLoopInt above (line :: below)

def parseTestSummaryInt (capture : Text) : Option TestSummaryResult :=
  let lines := splitLines capture
  let failures := extractFailureSnippets lines
  (summaryLoopInt lines.reverse []).map fun r => { r.getD {} with failures := failures }

section Tokens

def clampDigits (t : Text) : Nat := min (digitsValue t) 1000000000

def nextToken : List Text → Option (Text × List Text)
  | [] => none
  | t :: ts => if isIntToken t then some (t, ts) else nextToken ts

def afterTime : List Text → Option (List Text)
  | [] => none
  | [_] => some []
  | _ :: u :: ts => if isIntToken u ∨ isFloatToken u then some (u :: ts) else some ts

/-- The tokens of a row that fall to its counted columns. -/
def assign : List Column → List Text → Option (List (Column × Text))
  | [], _ => some []
  | c :: cs, ts =>
      if c = .time then (afterTime ts).bind (assign cs)
      else (nextToken ts).bind fun p => (assign cs p.2).map ((c, p.1) :: ·)

/-- The last token of a column: a later one replaces an earlier one. -/
def lastOf (c : Column) : List (Column × Text) → Option Text
  | [] => none
  | p :: ps => (lastOf c ps).or (if p.1 = c then some p.2 else none)

def countOf (c : Column) (tokens : List (Column × Text)) : Nat := ((lastOf c tokens).map clampDigits).getD 0

/-- A row of which no sum is taken, or one whose clamped counts add up to an int. -/
def RowBound (columns : List Column) (line : Text) : Prop :=
  ∀ tokens ∈ assign columns (summaryTokens line), .total ∈ columns ∨
    countOf .pass tokens + countOf .fail tokens + countOf .broken tokens + countOf .error tokens ≤ kIntMax

instance (columns : List Column) (line : Text) : Decidable (RowBound columns line) := by
  unfold RowBound
  infer_instance

/-- The row has a number for every counted column, and there is such a column. -/
def readable (columns : List Column) (line : Text) : Bool :=
  (assign columns (summaryTokens line)).any (· ≠ [])

end Tokens

section Calls

/-- The column sets that are tried on a row, up to the first that reads it. -/
def firstCalls (line : Text) : List (List Column) → List (List Column × Text)
  | [] => []
  | columns :: more => (columns, line) :: (if readable columns line then [] else firstCalls line more)

def rowCalls (candidates : List (List Column)) : List Text → List (List Column × Text)
  | [] => []
  | row :: rows =>
      let line := trimAscii row
      if line = [] then rowCalls candidates rows
      else if (find summaryMark line).isSome then []
      else firstCalls line candidates ++ (if candidates.any (readable · line) then [] else rowCalls candidates rows)

def rowsRead (candidates : List (List Column)) : List Text → Bool
  | [] => false
  | row :: rows =>
      let line := trimAscii row
      if line = [] then rowsRead candidates rows
      else if (find summaryMark line).isSome then false
      else candidates.any (readable · line) || rowsRead candidates rows

def summaryCalls : List Text → List Text → List (List Column × Text)
  | [], _ => []
  | line :: above, below =>
      if (find summaryMark line).isSome then
        rowCalls (columnCandidates line below) (below.take 11) ++
          (if rowsRead (columnCandidates line below) (below.take 11) then [] else summaryCalls above (line :: below))
      else summaryCalls above (line :: below)

/-- The column sets and the rows that parse_summary_counts_row is called with. -/
def parseCalls (capture : Text) : List (List Column × Text) := summaryCalls (splitLines capture).reverse []

end Calls

def getCount (c : Column) (r : TestSummaryResult) : Nat :=
  match c with
  | .pass => r.testPass
  | .fail => r.testFail
  | .broken => r.testBroken
  | .error => r.testError
  | .total => r.testTotal
  | .time => 0

/-- Reading the columns has set the counts to the tokens that fall to them. -/
structure Assigned (s s' : RowState) (tokens : List (Column × Text)) : Prop where
  parsed : s'.parsed = s.parsed ++ tokens.map Prod.fst
  counts : ∀ c, getCount c s'.row = ((lastOf c tokens).map clampDigits).getD (getCount c s.row)

theorem nextInteger_eq (ts : List Text) : nextInteger ts = (nextToken ts).map fun p => (clampDigits p.1, p.2) := by
  induction ts with
  | nil => rfl
  | cons t ts ih =>
      rw [nextInteger, nextToken]
      split
      · rfl
      · exact ih

theorem clampDigits_le (t : Text) : clampDigits t ≤ kIntMax := by
  simp only [clampDigits, kIntMax]
  omega

theorem readTime_afterTime (s : RowState) :
    (afterTime s.tokens).elim (readTime s = none) fun ts =>
      ∃ time, readTime s = some { s with tokens := ts, row := { s.row with testTime := time } } := by
  unfold readTime
  rcases s.tokens with _ | ⟨t, _ | ⟨u, ts⟩⟩
  · rfl
  · exact ⟨t, rfl⟩
  · by_cases hu : isIntToken u = true ∨ isFloatToken u = true
    · simp only [afterTime, if_pos hu]
      exact ⟨t, rfl⟩
    · simp only [afterTime, if_neg hu]
      exact ⟨t ++ [32] ++ u, rfl⟩

theorem getCount_setCount {c : Column} (hc : c ≠ .time) (d : Column) (v : Nat) (r : TestSummaryResult) :
    getCount d (setCount c v r) = if c = d then v else getCount d r := by
  cases c <;> cases d <;> first | rfl | exact absurd rfl hc

theorem getCount_testTime (c : Column) (r : TestSummaryResult) (time : Text) :
    getCount c { r with testTime := time } = getCount c r := by
  cases c <;> rfl

theorem Assigned.cons {s s' : RowState} {c : Column} (hc : c ≠ .time) {t : Text} {ts : List Text}
    {tokens : List (Column × Text)}
    (h : Assigned ⟨ts, setCount c (clampDigits t) s.row, s.parsed ++ [c]⟩ s' tokens) :
    Assigned s s' ((c, t) :: tokens) := by
  refine ⟨by simp [h.parsed], fun d => ?_⟩
  rw [h.counts, lastOf, getCount_setCount hc]
  cases lastOf d tokens with
  | some u => rfl
  | none => by_cases hd : c = d <;> simp [hd]

/-- The loop over the columns, as an assignment of tokens. -/
theorem readColumns_assign (columns : List Column) (s : RowState) :
    (assign columns s.tokens).elim (readColumns s columns = none) fun tokens =>
      ∃ s', readColumns s columns = some s' ∧ Assigned s s' tokens := by
  induction columns generalizing s with
  | nil => exact ⟨s, rfl, by simp, fun c => rfl⟩
  | cons c cs ih =>
      rw [assign, readColumns, readColumn]
      by_cases hc : c = .time
      · rw [if_pos hc, if_pos hc]
        have htime := readTime_afterTime s
        cases ha : afterTime s.tokens with
        | none =>
            rw [ha] at htime
            rw [show readTime s = none from htime]
            rfl
        | some ts =>
            rw [ha] at htime
            obtain ⟨time, htime⟩ := htime
            rw [htime]
            have hrest := ih { s with tokens := ts, row := { s.row with testTime := time } }
            simp only [Option.bind_some] at hrest ⊢
            cases hr : assign cs ts with
            | none => rwa [hr] at hrest
            | some tokens =>
                rw [hr] at hrest
                obtain ⟨s', hread, hassigned⟩ := hrest
                exact ⟨s', hread, hassigned.parsed, fun d => getCount_testTime d s.row time ▸ hassigned.counts d⟩
      · rw [if_neg hc, if_neg hc, nextInteger_eq]
        cases hn : nextToken s.tokens with
        | none => rfl
        | some p =>
            obtain ⟨t, ts⟩ := p
            have hrest := ih ⟨ts, setCount c (clampDigits t) s.row, s.parsed ++ [c]⟩
            simp only [Option.bind_some, Option.map_some] at hrest ⊢
            cases hr : assign cs ts with
            | none => rwa [hr] at hrest
            | some tokens =>
                rw [hr] at hrest
                obtain ⟨s', hread, hassigned⟩ := hrest
                exact ⟨s', hread, hassigned.cons hc⟩

theorem readColumns_none {columns : List Column} {s : RowState} (h : assign columns s.tokens = none) :
    readColumns s columns = none := by
  have hread := readColumns_assign columns s
  rw [h] at hread
  exact hread

theorem readColumns_some {columns : List Column} {s : RowState} {tokens : List (Column × Text)}
    (h : assign columns s.tokens = some tokens) : ∃ s', readColumns s columns = some s' ∧ Assigned s s' tokens := by
  have hread := readColumns_assign columns s
  rw [h] at hread
  exact hread

theorem assign_columns {columns : List Column} {ts : List Text} {tokens : List (Column × Text)}
    (h : assign columns ts = some tokens) : tokens.map Prod.fst = columns.filter (· ≠ .time) := by
  induction columns generalizing ts tokens with
  | nil =>
      obtain rfl : tokens = [] := (Option.some.inj h).symm
      rfl
  | cons c cs ih =>
      rw [assign] at h
      by_cases hc : c = .time
      · rw [if_pos hc, Option.bind_eq_some_iff] at h
        obtain ⟨rest, -, h⟩ := h
        rw [ih h, List.filter_cons_of_neg (by simp [hc])]
      · rw [if_neg hc, Option.bind_eq_some_iff] at h
        obtain ⟨p, -, h⟩ := h
        obtain ⟨more, hmore, rfl⟩ := Option.map_eq_some_iff.mp h
        rw [List.map_cons, ih hmore, List.filter_cons_of_pos (by simp [hc])]

theorem assign_nil {columns : List Column} {tokens : List (Column × Text)} (h : assign columns [] = some tokens) :
    tokens = [] := by
  cases columns with
  | nil => exact (Option.some.inj h).symm
  | cons c cs =>
      rw [assign] at h
      split at h
      · cases h
      · cases h

theorem countOf_absent {c : Column} {tokens : List (Column × Text)} (h : c ∉ tokens.map Prod.fst) :
    countOf c tokens = 0 := by
  have hlast : lastOf c tokens = none := by
    induction tokens with
    | nil => rfl
    | cons p ps ih =>
        simp only [List.map_cons, List.mem_cons, not_or] at h
        rw [lastOf, ih h.2, if_neg (Ne.symm h.1)]
        rfl
  rw [countOf, hlast]
  rfl

theorem readColumnsInt_eq (s : RowState) (columns : List Column) :
    readColumnsInt s columns = some (readColumns s columns) := by
  induction columns generalizing s with
  | nil => rfl
  | cons c cs ih =>
      have hstep : readColumnInt s c = some (readColumn s c) := by
        rw [readColumnInt, readColumn]
        split
        · rfl
        · rw [nextInteger_eq]
          cases nextToken s.tokens with
          | none => rfl
          | some p =>
              simp only [Option.map_some, Option.elim_some, toInt, if_pos (clampDigits_le p.1)]
      rw [readColumnsInt, readColumns, hstep, Option.bind_some]
      cases readColumn s c with
      | none => rfl
      | some s' => exact ih s'

def countedSum (r : TestSummaryResult) : Nat := r.testPass + r.testFail + r.testBroken + r.testError

/-- The partial sums do not pass the last one. -/
theorem derivedTotal_eq (r : TestSummaryResult) : derivedTotal r = toInt (countedSum r) := by
  unfold derivedTotal addInt toInt countedSum
  by_cases h1 : r.testPass + r.testFail ≤ kIntMax
  · rw [if_pos h1, Option.bind_some]
    by_cases h2 : r.testPass + r.testFail + r.testBroken ≤ kIntMax
    · rw [if_pos h2, Option.bind_some]
    · rw [if_neg h2, Option.bind_none, if_neg (by omega)]
  · rw [if_neg h1, Option.bind_none, Option.bind_none, if_neg (by omega)]

theorem finishRow_derived {s : RowState} (h : Derives s) :
    finishRow { s with row := { s.row with testTotal := countedSum s.row }, parsed := s.parsed ++ [.total] } =
      finishRow s := by
  obtain ⟨htotal, hcounted⟩ := h
  simp [finishRow, countedSum, htotal, hcounted]

theorem finishRowInt_eq (s : RowState) :
    finishRowInt s = if Derives s ∧ kIntMax < countedSum s.row then none else some (finishRow s) := by
  rw [finishRowInt, derivedTotal_eq, toInt]
  by_cases hd : Derives s
  · by_cases hsum : countedSum s.row ≤ kIntMax
    · rw [if_pos hd, if_pos hsum, if_neg (by omega), Option.map_some, finishRow_derived hd]
    · rw [if_pos hd, if_neg hsum, if_pos ⟨hd, by omega⟩, Option.map_none]
  · rw [if_neg hd, if_neg fun h => hd h.1]

/-- A derived total is the exact sum of the counts beside it. -/
theorem finishRow_total {s : RowState} {r : TestSummaryResult} (h : finishRow s = some r) (hd : Derives s) :
    r.testTotal = countedSum r := by
  obtain ⟨htotal, hcounted⟩ := hd
  have hr : r = { s.row with
      testTotal := countedSum s.row
      status := if .fail ∉ s.parsed ∧ .broken ∉ s.parsed ∧ .error ∉ s.parsed then lit "pass" else lit "fail"
      foundSummary := true } := by
    simpa [finishRow, countedSum, htotal, hcounted, eq_comm] using h
  rw [hr]
  rfl

theorem parsed_columns {columns : List Column} {line : Text} {tokens : List (Column × Text)} {s : RowState}
    (ha : assign columns (summaryTokens line) = some tokens)
    (h : Assigned { tokens := summaryTokens line } s tokens) : s.parsed = columns.filter (· ≠ .time) := by
  rw [h.parsed, assign_columns ha]
  rfl

/-- With its columns read, a row sums its counts to more than an int exactly when
its tokens do. -/
theorem overflows_iff {columns : List Column} {line : Text} {tokens : List (Column × Text)} {s : RowState}
    (ha : assign columns (summaryTokens line) = some tokens)
    (h : Assigned { tokens := summaryTokens line } s tokens) :
    Derives s ∧ kIntMax < countedSum s.row ↔ ¬ RowBound columns line := by
  have htotal : .total ∈ s.parsed ↔ .total ∈ columns := by simp [parsed_columns ha h]
  have hcount (c : Column) (hc : getCount c ({} : TestSummaryResult) = 0) : getCount c s.row = countOf c tokens := by
    rw [h.counts c, hc]
    rfl
  have hsum : countedSum s.row =
      countOf .pass tokens + countOf .fail tokens + countOf .broken tokens + countOf .error tokens := by
    rw [← hcount .pass rfl, ← hcount .fail rfl, ← hcount .broken rfl, ← hcount .error rfl]
    rfl
  have hcounted (hlt : kIntMax < countedSum s.row) :
      Column.pass ∈ s.parsed ∨ .fail ∈ s.parsed ∨ .broken ∈ s.parsed ∨ .error ∈ s.parsed := by
    have habsent (c : Column) (hc : c ∉ s.parsed) : countOf c tokens = 0 := by
      apply countOf_absent
      rwa [h.parsed] at hc
    by_contra hnone
    simp only [not_or] at hnone
    rw [hsum, habsent _ hnone.1, habsent _ hnone.2.1, habsent _ hnone.2.2.1, habsent _ hnone.2.2.2] at hlt
    exact absurd hlt (by decide)
  have hbound : RowBound columns line ↔ .total ∈ columns ∨ countedSum s.row ≤ kIntMax := by
    simp only [RowBound, ha, Option.mem_some_iff, forall_eq', hsum]
  rw [hbound, not_or, Nat.not_le, Derives, htotal]
  exact ⟨fun h => ⟨h.1.1, h.2⟩, fun h => ⟨⟨h.1, hcounted h.2⟩, h.2⟩⟩

theorem parseSummaryCountsRowInt_eq (columns : List Column) (line : Text) :
    parseSummaryCountsRowInt columns line =
      if RowBound columns line then some (parseSummaryCountsRow columns line) else none := by
  rw [parseSummaryCountsRowInt, parseSummaryCountsRow]
  by_cases hnil : summaryTokens line = []
  · have hbound : RowBound columns line := by
      intro tokens ht
      rw [hnil] at ht
      rw [assign_nil ht]
      exact .inr (by decide)
    rw [if_pos hnil, if_pos hnil, if_pos hbound]
  · rw [if_neg hnil, if_neg hnil, readColumnsInt_eq]
    cases ha : assign columns (summaryTokens line) with
    | none =>
        have hbound : RowBound columns line := by
          intro tokens ht
          rw [ha] at ht
          cases ht
        rw [readColumns_none ha, if_pos hbound]
        rfl
    | some tokens =>
        obtain ⟨s, hs, hassigned⟩ := readColumns_some (s := { tokens := summaryTokens line }) ha
        have hover := overflows_iff ha hassigned
        simp only [hs, Option.bind_some, Option.elim_some, finishRowInt_eq, hover]
        by_cases hbound : RowBound columns line
        · rw [if_pos hbound, if_neg (not_not.mpr hbound)]
        · rw [if_neg hbound, if_pos hbound]

theorem finishRow_isSome (s : RowState) :
    (finishRow s).isSome ↔ .total ∈ s.parsed ∨
      Column.pass ∈ s.parsed ∨ .fail ∈ s.parsed ∨ .broken ∈ s.parsed ∨ .error ∈ s.parsed := by
  rw [finishRow]
  split
  next hcolumn => simp [hcolumn]
  next hcolumn => simp [hcolumn]

/-- No token falls to the time column. -/
theorem assign_counted {columns : List Column} {ts : List Text} {tokens : List (Column × Text)}
    (h : assign columns ts = some tokens) {p : Column × Text} (hp : p ∈ tokens) : p.1 ≠ .time := by
  have hmem : p.1 ∈ columns.filter (· ≠ .time) := by
    rw [← assign_columns h]
    exact List.mem_map_of_mem hp
  simpa using (List.mem_filter.mp hmem).2

/-- A row is read when every counted column has a number and there is one. -/
theorem parseSummaryCountsRow_isSome (columns : List Column) (line : Text) :
    (parseSummaryCountsRow columns line).isSome = readable columns line := by
  rw [parseSummaryCountsRow, readable]
  by_cases hnil : summaryTokens line = []
  · rw [if_pos hnil, hnil]
    cases ha : assign columns [] with
    | none => rfl
    | some tokens =>
        rw [assign_nil ha]
        rfl
  · rw [if_neg hnil]
    cases ha : assign columns (summaryTokens line) with
    | none =>
        rw [readColumns_none ha]
        rfl
    | some tokens =>
        obtain ⟨s, hs, hassigned⟩ := readColumns_some (s := { tokens := summaryTokens line }) ha
        have hparsed : s.parsed = tokens.map Prod.fst := hassigned.parsed
        rw [hs, Option.bind_some, Option.any_some, Bool.eq_iff_iff, finishRow_isSome, hparsed]
        cases tokens with
        | nil => simp
        | cons p ps =>
            have hp := assign_counted ha List.mem_cons_self
            cases hc : p.1 <;> simp [hc] at hp ⊢

def Bounded (calls : List (List Column × Text)) : Prop := ∀ call ∈ calls, RowBound call.1 call.2

instance (calls : List (List Column × Text)) : Decidable (Bounded calls) :=
  inferInstanceAs (Decidable (∀ call ∈ calls, _))

theorem bounded_append {calls calls' : List (List Column × Text)} :
    Bounded (calls ++ calls') ↔ Bounded calls ∧ Bounded calls' := List.forall_mem_append

/-- With ints the exact result comes out while every call is bounded, and none otherwise. -/
def Settles {α : Type} (r : Option (Option α)) (calls : List (List Column × Text)) (exact : Option α) : Prop :=
  r = if Bounded calls then some exact else none

theorem Settles.nothing {α : Type} : Settles (some none : Option (Option α)) [] none := by
  rw [Settles, if_pos (by simp [Bounded])]

theorem Settles.orTry {α : Type} {r next : Option (Option α)} {calls calls' : List (List Column × Text)}
    {exact exact' : Option α} (h : Settles r calls exact) (h' : Settles next calls' exact') :
    Settles (orTry r next) (calls ++ if exact.isSome then [] else calls') (exact.or exact') := by
  unfold Settles at h h' ⊢
  rw [h, h']
  by_cases hb : Bounded calls
  · cases exact with
    | some v => simp [SummaryRange.orTry, hb]
    | none => by_cases hb' : Bounded calls' <;> simp [SummaryRange.orTry, bounded_append, hb, hb']
  · have hall : ¬ Bounded (calls ++ if exact.isSome then [] else calls') := fun h => hb (bounded_append.mp h).1
    rw [if_neg hb, if_neg hall]
    rfl

theorem parseSummaryCountsRowInt_settles (columns : List Column) (line : Text) :
    Settles (parseSummaryCountsRowInt columns line) [(columns, line)] (parseSummaryCountsRow columns line) := by
  have hone : Bounded [(columns, line)] ↔ RowBound columns line := by simp [Bounded]
  rw [Settles, parseSummaryCountsRowInt_eq]
  simp only [hone]

theorem findSome?_isSome (candidates : List (List Column)) (line : Text) :
    (candidates.findSome? (parseSummaryCountsRow · line)).isSome = candidates.any (readable · line) := by
  induction candidates with
  | nil => rfl
  | cons columns more ih =>
      rw [List.findSome?_cons, List.any_cons, ← parseSummaryCountsRow_isSome]
      cases parseSummaryCountsRow columns line with
      | some r => rfl
      | none => exact ih

theorem firstRowInt_settles (candidates : List (List Column)) (line : Text) :
    Settles (firstRowInt line candidates) (firstCalls line candidates)
      (candidates.findSome? (parseSummaryCountsRow · line)) := by
  induction candidates with
  | nil => exact .nothing
  | cons columns more ih =>
      have h := (parseSummaryCountsRowInt_settles columns line).orTry ih
      rw [parseSummaryCountsRow_isSome, List.singleton_append] at h
      rw [List.findSome?_cons]
      cases hr : parseSummaryCountsRow columns line with
      | some r => rwa [hr] at h
      | none => rwa [hr] at h

theorem rowLoop_isSome (candidates : List (List Column)) (rows : List Text) :
    (rowLoop candidates rows).isSome = rowsRead candidates rows := by
  induction rows with
  | nil => rfl
  | cons row rows ih =>
      simp only [rowLoop, rowsRead]
      split
      · exact ih
      · split
        · rfl
        · rw [← findSome?_isSome]
          cases candidates.findSome? (parseSummaryCountsRow · (trimAscii row)) with
          | some r => rfl
          | none => exact ih

theorem rowLoopInt_settles (candidates : List (List Column)) (rows : List Text) :
    Settles (rowLoopInt candidates rows) (rowCalls candidates rows) (rowLoop candidates rows) := by
  induction rows with
  | nil => exact .nothing
  | cons row rows ih =>
      simp only [rowLoopInt, rowCalls, rowLoop]
      by_cases hblank : trimAscii row = []
      · simp only [if_pos hblank]
        exact ih
      · simp only [if_neg hblank]
        by_cases hmark : (find summaryMark (trimAscii row)).isSome = true
        · simp only [if_pos hmark]
          exact .nothing
        · simp only [if_neg hmark]
          have h := (firstRowInt_settles candidates (trimAscii row)).orTry ih
          rw [findSome?_isSome] at h
          cases hr : candidates.findSome? (parseSummaryCountsRow · (trimAscii row)) with
          | some r => rwa [hr] at h
          | none => rwa [hr] at h

theorem summaryLoopInt_settles (above below : List Text) :
    Settles (summaryLoopInt above below) (summaryCalls above below) (summaryLoop above below) := by
  induction above generalizing below with
  | nil => exact .nothing
  | cons line above ih =>
      simp only [summaryLoopInt, summaryCalls, summaryLoop]
      by_cases hmark : (find summaryMark line).isSome = true
      · simp only [if_pos hmark]
        have h := (rowLoopInt_settles (columnCandidates line below) (below.take 11)).orTry (ih (line :: below))
        rw [rowLoop_isSome] at h
        cases hr : rowLoop (columnCandidates line below) (below.take 11) with
        | some r => rwa [hr] at h
        | none => rwa [hr] at h
      · simp only [if_neg hmark]
        exact ih (line :: below)

theorem parseTestSummaryInt_eq (capture : Text) :
    parseTestSummaryInt capture = if Bounded (parseCalls capture) then some (parseTestSummary capture) else none := by
  have h := summaryLoopInt_settles (splitLines capture).reverse []
  rw [Settles] at h
  rw [parseTestSummaryInt, h, parseTestSummary, parseCalls]
  dsimp only
  by_cases hb : Bounded (summaryCalls (splitLines capture).reverse [])
  · rw [if_pos hb, if_pos hb, Option.map_some]
    cases summaryLoop (splitLines capture).reverse [] with
    | none => rfl
    | some r => rfl
  · rw [if_neg hb, if_neg hb, Option.map_none]

/-- Where a total is derived it is the exact sum. -/
theorem parseSummaryCountsRow_total {columns : List Column} {line : Text} {r : TestSummaryResult}
    (h : parseSummaryCountsRow columns line = some r) (htotal : .total ∉ columns) : r.testTotal = countedSum r := by
  rw [parseSummaryCountsRow] at h
  split at h
  · cases h
  · obtain ⟨s, hs, hfinish⟩ := Option.bind_eq_some_iff.mp h
    cases ha : assign columns (summaryTokens line) with
    | none => cases hs.symm.trans (readColumns_none ha)
    | some tokens =>
        obtain ⟨s', hs', hassigned⟩ := readColumns_some (s := { tokens := summaryTokens line }) ha
        obtain rfl : s = s' := Option.some.inj (hs.symm.trans hs')
        have habsent : .total ∉ s.parsed := by
          rw [parsed_columns ha hassigned]
          simpa using htotal
        have hcounted := (finishRow_isSome s).mp (Option.isSome_of_eq_some hfinish)
        exact finishRow_total hfinish ⟨habsent, hcounted.resolve_left habsent⟩

/-- The ints of the parser hold what the parser counts, each total derived being
the exact sum, exactly when no row it comes to adds up to more than an int. -/
theorem summary_in_range_iff (capture : Text) :
    (parseTestSummaryInt capture = some (parseTestSummary capture) ↔
        ∀ call ∈ parseCalls capture, RowBound call.1 call.2) ∧
      ∀ call ∈ parseCalls capture, ∀ r, parseSummaryCountsRow call.1 call.2 = some r → .total ∉ call.1 →
        r.testTotal = r.testPass + r.testFail + r.testBroken + r.testError := by
  refine ⟨?_, fun call _ r hr htotal => parseSummaryCountsRow_total hr htotal⟩
  change _ ↔ Bounded (parseCalls capture)
  rw [parseTestSummaryInt_eq]
  constructor
  · intro h
    by_contra hb
    rw [if_neg hb] at h
    cases h
  · intro hb
    rw [if_pos hb]

def threeLongRuns : Text :=
  lit "Test Summary: | Pass  Fail  Broken  Error\nx | 1000000000  1000000000  1000000000  0\n"

/-- Three clamped counts and no total: the sum is past the range of an int. -/
theorem not_summary_in_range : ¬ ∀ capture, parseTestSummaryInt capture = some (parseTestSummary capture) := by
  intro h
  have hnone : parseTestSummaryInt threeLongRuns = none := by decide +kernel
  have hsome := h threeLongRuns
  rw [hnone] at hsome
  cases hsome

end JJMCP.SummaryRange
