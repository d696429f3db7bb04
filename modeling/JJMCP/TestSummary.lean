import JJMCP.Text
import JJMCP.Lib.Words

namespace JJMCP

inductive Column
  | pass | fail | broken | error | total | time
  deriving DecidableEq, Repr

structure TestSummaryResult where
  foundSummary : Bool := false
  testPass : Nat := 0
  testFail : Nat := 0
  testBroken : Nat := 0
  testError : Nat := 0
  testTotal : Nat := 0
  testTime : Text := []
  status : Text := Text.lit "unknown"
  failures : List Text := []
  deriving DecidableEq, Repr

structure RowState where
  tokens : List Text
  row : TestSummaryResult := {}
  parsed : List Column := []
  deriving DecidableEq, Repr

end JJMCP

namespace JJMCP.TestSummary

open Lib.Occurrence Lib.Lines Lib.Words Text

def summaryMark : Text := lit "Test Summary:"

def isSpace (c : UInt8) : Bool := c == 32 || (9 ≤ c && c ≤ 13)

def pipeToSpace (c : UInt8) : UInt8 := if c = 124 then 32 else c

def summaryTokens (text : Text) : List Text := words isSpace (text.map pipeToSpace)

def toLower (t : Text) : Text := t.map fun c => if 65 ≤ c && c ≤ 90 then c + 32 else c

def isIntToken (t : Text) : Bool := t ≠ [] && t.all isDigit

def dropSign (t : Text) : Text :=
  match t with
  | c :: cs => if c = 43 ∨ c = 45 then cs else c :: cs
  | [] => []

def isExponent (t : Text) : Bool :=
  match t with
  | [] => true
  | c :: cs => (c = 101 ∨ c = 69) && isIntToken (dropSign cs)

def isFloatToken (token : Text) : Bool :=
  let t := dropSign token
  let rest := t.dropWhile isDigit
  if t.takeWhile isDigit ≠ [] then
    isExponent (if rest.head? = some 46 then rest.tail.dropWhile isDigit else rest)
  else rest.head? = some 46 && rest.tail.takeWhile isDigit ≠ [] && isExponent (rest.tail.dropWhile isDigit)

def columnOf (token : Text) : Option Column :=
  let name := toLower token
  if name = lit "pass" ∨ name = lit "passes" then some .pass
  else if name = lit "fail" ∨ name = lit "fails" then some .fail
  else if name = lit "broken" then some .broken
  else if name = lit "error" ∨ name = lit "errors" then some .error
  else if name = lit "total" ∨ name = lit "tot" then some .total
  else if name = lit "time" then some .time
  else none

def normalizeSummaryColumns (summaryLine : Text) : List Column :=
  let tail :=
    match find summaryMark summaryLine with
    | none => summaryLine
    | some p => summaryLine.drop (p + summaryMark.length)
  let tail :=
    match find [124] tail with
    | none => tail
    | some p => tail.drop (p + 1)
  (summaryTokens tail).filterMap columnOf

/-- The lambda next_integer: other tokens are passed over, and a long run of
digits is clamped. -/
def nextInteger : List Text → Option (Nat × List Text)
  | [] => none
  | t :: ts => if isIntToken t then some (min (digitsValue t) 1000000000, ts) else nextInteger ts

def setCount (c : Column) (v : Nat) (r : TestSummaryResult) : TestSummaryResult :=
  match c with
  | .pass => { r with testPass := v }
  | .fail => { r with testFail := v }
  | .broken => { r with testBroken := v }
  | .error => { r with testError := v }
  | .total => { r with testTotal := v }
  | .time => r

def readTime (s : RowState) : Option RowState :=
  match s.tokens with
  | [] => none
  | [t] => some { s with tokens := [], row := { s.row with testTime := t } }
  | t :: u :: ts =>
      if isIntToken u ∨ isFloatToken u then some { s with tokens := u :: ts, row := { s.row with testTime := t } }
      else some { s with tokens := ts, row := { s.row with testTime := t ++ [32] ++ u } }

def readColumn (s : RowState) (c : Column) : Option RowState :=
  if c = .time then readTime s
  else (nextInteger s.tokens).map fun p =>
    { tokens := p.2, row := setCount c p.1 s.row, parsed := s.parsed ++ [c] }

def readColumns (s : RowState) : List Column → Option RowState
  | [] => some s
  | c :: cs => (readColumn s c).bind (readColumns · cs)

def finishRow (s : RowState) : Option TestSummaryResult :=
  let counted := Column.pass ∈ s.parsed ∨ .fail ∈ s.parsed ∨ .broken ∈ s.parsed ∨ .error ∈ s.parsed
  let row :=
    if .total ∉ s.parsed ∧ counted then
      -- four clamped counts may pass the bound of an int, where the source's sum is undefined
      { s.row with testTotal := s.row.testPass + s.row.testFail + s.row.testBroken + s.row.testError }
    else s.row
  if .total ∈ s.parsed ∨ counted then
    some { row with
      status := if .fail ∉ s.parsed ∧ .broken ∉ s.parsed ∧ .error ∉ s.parsed then lit "pass" else lit "fail"
      foundSummary := true }
  else none

def parseSummaryCountsRow (columns : List Column) (line : Text) : Option TestSummaryResult :=
  if summaryTokens line = [] then none
  else (readColumns { tokens := summaryTokens line } columns).bind finishRow

def failureSnippet (before : Option Text) (line : Text) (after : Option Text) : Text :=
  let trimmed := ((before.toList ++ [line] ++ after.toList).map trimAscii).filter (· ≠ [])
  joinLines trimmed 0 trimmed.length

def snippetLoop (before : Option Text) (failures : List Text) : List Text → List Text
  | [] => failures
  | line :: rest =>
      let snippet := failureSnippet before line rest.head?
      let failures :=
        if (find (lit "Test Failed at") line).isSome ∧ snippet ≠ [] ∧ failures.getLast? ≠ some snippet then
          failures ++ [snippet]
        else failures
      snippetLoop (some line) failures rest

def extractFailureSnippets (lines : List Text) : List Text := snippetLoop none [] lines

/-- The rows below a header, up to the first that one of the column sets reads. -/
def rowLoop (candidates : List (List Column)) : List Text → Option TestSummaryResult
  | [] => none
  | row :: rows =>
      let line := trimAscii row
      if line = [] then rowLoop candidates rows
      else if (find summaryMark line).isSome then none
      else
        match candidates.findSome? (parseSummaryCountsRow · line) with
        | some parsed => some parsed
        | none => rowLoop candidates rows

def columnCandidates (line : Text) (below : List Text) : List (List Column) :=
  let own := normalizeSummaryColumns line
  let next := (below.head?.map normalizeSummaryColumns).getD []
  let candidates := [own, next].filter (· ≠ [])
  if candidates = [] then [[.pass, .total, .time]] else candidates

/-- The lines from the last one up, with those below the current line. -/
def summaryLoop : List Text → List Text → Option TestSummaryResult
  | [], _ => none
  | line :: above, below =>
      if (find summaryMark line).isSome then
        match rowLoop (columnCandidates line below) (below.take 11) with
        | some parsed => some parsed
        | none => summaryLoop above (line :: below)
      else summaryLoop above (line :: below)

def parseTestSummary (capture : Text) : TestSummaryResult :=
  let lines := splitLines capture
  let failures := extractFailureSnippets lines
  match summaryLoop lines.reverse [] with
  | none => { failures := failures }
  | some parsed => { parsed with failures := failures }

example : (parseTestSummary (lit "Test Summary: | Pass  Total  Time\nadds 2 up     |    5      5  0.1s\n")).testPass = 2 := by
  decide +kernel

end JJMCP.TestSummary
