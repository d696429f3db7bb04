import JJMCP.TestSummary

namespace JJMCP

/-- The counts a summary table shows; an absent column has none. -/
structure Counts where
  pass : Option Nat := none
  fail : Option Nat := none
  error : Option Nat := none
  broken : Option Nat := none
  total : Nat
  deriving DecidableEq, Repr

/-- The runs of spaces in a table, each one shorter than what is printed. -/
structure Layout where
  headerPipe : Nat := 0
  rowPipe : Nat := 0
  columnGap : Nat → Nat := fun _ => 0
  fieldGap : Nat → Nat := fun _ => 0

end JJMCP

namespace JJMCP.SummaryTable

open Lib.Occurrence Lib.Lines Lib.Words Text TestSummary

def shown (c : Column) (n : Option Nat) : List (Column × Nat) := (n.map (c, ·)).toList

def fields (k : Counts) : List (Column × Nat) :=
  shown .pass k.pass ++ shown .fail k.fail ++ shown .error k.error ++ shown .broken k.broken ++ [(.total, k.total)]

def columnName : Column → Text
  | .pass => lit "Pass"
  | .fail => lit "Fail"
  | .broken => lit "Broken"
  | .error => lit "Error"
  | .total => lit "Total"
  | .time => lit "Time"

def spaced (gap : Nat → Nat) : List Text → Text
  | [] => []
  | t :: ts => List.replicate (gap 0 + 1) 32 ++ (t ++ spaced (fun i => gap (i + 1)) ts)

def headerLine (k : Counts) (l : Layout) : Text :=
  summaryMark ++ (List.replicate l.headerPipe 32 ++
    124 :: spaced l.columnGap (((fields k).map Prod.fst ++ [Column.time]).map columnName))

def rowLine (name : Text) (k : Counts) (duration : Text) (l : Layout) : Text :=
  name ++ (List.replicate l.rowPipe 32 ++
    124 :: spaced l.fieldGap ((fields k).map (fun p => decimal p.2) ++ [duration]))

def capture (before name : Text) (k : Counts) (duration : Text) (l : Layout) (after : Text) : Text :=
  before ++ (headerLine k l ++ nl :: (rowLine name k duration l ++ after))

def Token (t : Text) : Prop := t ≠ [] ∧ ∀ c ∈ t, isSpace c = false ∧ c ≠ 124

instance (t : Text) : Decidable (Token t) := @instDecidableAnd _ _ _ (t.decidableBAll _)

/-- One counted column at least, counts within bounds and a duration in one piece. -/
structure Rendered (k : Counts) (duration : Text) : Prop where
  some_column : k.pass.isSome ∨ k.fail.isSome ∨ k.error.isSome ∨ k.broken.isSome
  bounded : ∀ p ∈ fields k, p.2 ≤ 1000000000
  token : Token duration

/-- Whole lines before the table, and after it nothing or a line end and text
that shows no other summary. -/
structure Around (before after : Text) : Prop where
  lines : Terminated nl before
  ending : after = [] ∨ ∃ rest, after = nl :: rest
  quiet : ¬ summaryMark <:+: after.filter (· ≠ cr)

structure Name (name : Text) : Prop where
  oneLine : nl ∉ name ∧ cr ∉ name
  noPipe : 124 ∉ name
  quiet : ¬ summaryMark <:+: name

def Inverts (k : Counts) (duration : Text) (r : TestSummaryResult) : Prop :=
  r.foundSummary = true ∧ r.testPass = k.pass.getD 0 ∧ r.testFail = k.fail.getD 0 ∧
    r.testError = k.error.getD 0 ∧ r.testBroken = k.broken.getD 0 ∧ r.testTotal = k.total ∧
    duration <+: r.testTime

instance (k : Counts) (duration : Text) (r : TestSummaryResult) : Decidable (Inverts k duration r) :=
  inferInstanceAs (Decidable (_ ∧ _))

theorem map_pipeToSpace {t : Text} (h : 124 ∉ t) : t.map pipeToSpace = t := by
  induction t with
  | nil => rfl
  | cons c cs ih =>
      simp only [List.mem_cons, not_or] at h
      rw [List.map_cons, ih h.2, pipeToSpace, if_neg (Ne.symm h.1)]

theorem summaryTokens_token {t : Text} (h : Token t) : summaryTokens t = [t] := by
  rw [summaryTokens, map_pipeToSpace fun hc => (h.2 124 hc).2 rfl]
  exact words_solid (fun c hc => (h.2 c hc).1) h.1

theorem summaryTokens_blanks {a : Text} (b : Text) (ha : ∀ c ∈ a, isSpace (pipeToSpace c) = true) :
    summaryTokens (a ++ b) = summaryTokens b := by
  rw [summaryTokens, List.map_append]
  refine words_seps _ fun c hc => ?_
  obtain ⟨d, hd, rfl⟩ := List.mem_map.mp hc
  exact ha d hd

theorem summaryTokens_append_blanks (a : Text) {b : Text} (hb : ∀ c ∈ b, isSpace (pipeToSpace c) = true) :
    summaryTokens (a ++ b) = summaryTokens a := by
  rw [summaryTokens, List.map_append]
  refine words_append_seps _ fun c hc => ?_
  obtain ⟨d, hd, rfl⟩ := List.mem_map.mp hc
  exact hb d hd

theorem summaryTokens_sep (a b : Text) {c : UInt8} (hc : isSpace (pipeToSpace c) = true) :
    summaryTokens (a ++ c :: b) = summaryTokens a ++ summaryTokens b := by
  rw [summaryTokens, List.map_append, List.map_cons]
  exact words_sep _ _ hc

theorem isSpace_pipeToSpace_of_isBlank {c : UInt8} (h : isBlank c = true) : isSpace (pipeToSpace c) = true := by
  simp only [isBlank, cr, nl, Bool.or_eq_true, beq_iff_eq] at h
  rcases h with ((rfl | rfl) | rfl) | rfl <;> decide

theorem summaryTokens_trimAscii (t : Text) : summaryTokens (trimAscii t) = summaryTokens t := by
  obtain ⟨a, b, ht, ha, hb⟩ := trimAscii_split t
  conv_rhs => rw [ht]
  rw [summaryTokens_blanks _ fun c hc => isSpace_pipeToSpace_of_isBlank (ha c hc),
    summaryTokens_append_blanks _ fun c hc => isSpace_pipeToSpace_of_isBlank (hb c hc)]

theorem summaryTokens_spaced (gap : Nat → Nat) {ts : List Text} (h : ∀ t ∈ ts, Token t) :
    summaryTokens (spaced gap ts) = ts := by
  induction ts generalizing gap with
  | nil => rfl
  | cons t ts ih =>
      have ht := h t (by simp)
      have hrest := ih (fun i => gap (i + 1)) fun u hu => h u (by simp [hu])
      have hsp : ∀ c ∈ List.replicate (gap 0 + 1) (32 : UInt8), isSpace (pipeToSpace c) = true := by
        intro c hc
        rw [(List.mem_replicate.mp hc).2]
        rfl
      rw [spaced, summaryTokens_blanks _ hsp]
      cases ts with
      | nil => simpa [spaced] using summaryTokens_token ht
      | cons u us =>
          rw [spaced, List.replicate_succ, List.cons_append, summaryTokens_sep _ _ (by rfl), summaryTokens_token ht]
          rw [spaced, List.replicate_succ, List.cons_append] at hrest
          rw [← List.nil_append (32 :: _), summaryTokens_sep [] _ (by rfl)] at hrest
          simpa [summaryTokens] using hrest

theorem token_decimal (n : Nat) : Token (decimal n) := by
  refine ⟨by simp [decimal, Nat.toDigits_ne_nil], fun c hc => ?_⟩
  obtain ⟨h1, h2⟩ := decimal_digit hc
  constructor
  · rw [Bool.eq_false_iff]
    intro h
    simp only [isSpace, Bool.or_eq_true, beq_iff_eq, Bool.and_eq_true, decide_eq_true_eq] at h
    rcases h with rfl | ⟨_, h⟩
    · exact absurd h1 (by decide)
    · exact absurd (UInt8.le_trans h1 h) (by decide)
  · rintro rfl
    exact absurd h2 (by decide)

theorem token_values {k : Counts} {duration : Text} (hd : Token duration) :
    ∀ t ∈ (fields k).map (fun p => decimal p.2) ++ [duration], Token t := by
  intro t ht
  rcases List.mem_append.mp ht with ht | ht
  · obtain ⟨p, _, rfl⟩ := List.mem_map.mp ht
    exact token_decimal p.2
  · rw [List.mem_singleton.mp ht]
    exact hd

theorem summaryTokens_rowLine (name : Text) (k : Counts) (l : Layout) {duration : Text} (hd : Token duration) :
    summaryTokens (rowLine name k duration l) =
      summaryTokens name ++ ((fields k).map (fun p => decimal p.2) ++ [duration]) := by
  have hsp : ∀ c ∈ List.replicate l.rowPipe (32 : UInt8), isSpace (pipeToSpace c) = true := by
    intro c hc
    rw [(List.mem_replicate.mp hc).2]
    rfl
  rw [rowLine, ← List.append_assoc, summaryTokens_sep _ _ (by rfl), summaryTokens_append_blanks _ hsp,
    summaryTokens_spaced _ (token_values hd)]

theorem token_columnName (c : Column) : Token (columnName c) := by
  cases c <;> decide

theorem columnOf_columnName (c : Column) : columnOf (columnName c) = some c := by
  cases c <;> decide

theorem normalizeSummaryColumns_headerLine (k : Counts) (l : Layout) :
    normalizeSummaryColumns (headerLine k l) = (fields k).map Prod.fst ++ [.time] := by
  have hmark : find summaryMark (headerLine k l) = some 0 :=
    find_eq_some.mpr ⟨Nat.zero_le _, List.prefix_append _ _, fun q hq => absurd hq (Nat.not_lt_zero q)⟩
  have hpipe : ∀ rest : Text, find [124] (List.replicate l.headerPipe 32 ++ 124 :: rest) = some l.headerPipe := by
    intro rest
    simpa using find_singleton (a := List.replicate l.headerPipe (32 : UInt8)) rest
      (fun h => absurd (List.mem_replicate.mp h).2 (by decide))
  have hdrop : ∀ rest : Text, (List.replicate l.headerPipe 32 ++ 124 :: rest).drop (l.headerPipe + 1) = rest := by
    intro rest
    rw [← List.drop_drop, List.drop_left' (by simp), List.drop_one, List.tail_cons]
  have hskip : (headerLine k l).drop (0 + summaryMark.length) = List.replicate l.headerPipe 32 ++
      124 :: spaced l.columnGap (((fields k).map Prod.fst ++ [Column.time]).map columnName) := by
    rw [headerLine, Nat.zero_add, List.drop_left]
  simp only [normalizeSummaryColumns, hmark, hskip, hpipe, hdrop]
  rw [summaryTokens_spaced, List.filterMap_map]
  · simp [columnOf_columnName]
  · intro t ht
    obtain ⟨c, _, rfl⟩ := List.mem_map.mp ht
    exact token_columnName c

theorem isIntToken_decimal (n : Nat) : isIntToken (decimal n) = true := by
  simp only [isIntToken, Bool.and_eq_true, decide_eq_true_eq, List.all_eq_true]
  refine ⟨(token_decimal n).1, fun c hc => ?_⟩
  obtain ⟨h1, h2⟩ := decimal_digit hc
  simp [isDigit, h1, h2]

theorem nextInteger_skip {ws : List Text} (ts : List Text) (h : ∀ w ∈ ws, isIntToken w = false) :
    nextInteger (ws ++ ts) = nextInteger ts := by
  induction ws with
  | nil => rfl
  | cons w ws ih =>
      rw [List.cons_append, nextInteger, h w (by simp), if_neg (by decide), ih fun v hv => h v (by simp [hv])]

theorem nextInteger_decimal (n : Nat) (ts : List Text) :
    nextInteger (decimal n :: ts) = some (min n 1000000000, ts) := by
  rw [nextInteger, if_pos (isIntToken_decimal n), digitsValue_decimal]

theorem nextInteger_append {ws : List Text} (ts : List Text) (h : ∃ w ∈ ws, isIntToken w = true) :
    ∃ v rest, nextInteger ws = some (v, rest) ∧ nextInteger (ws ++ ts) = some (v, rest ++ ts) := by
  induction ws with
  | nil => simp at h
  | cons w ws ih =>
      by_cases hw : isIntToken w = true
      · exact ⟨_, ws, by rw [nextInteger, if_pos hw], by rw [List.cons_append, nextInteger, if_pos hw]⟩
      · obtain ⟨v, rest, h1, h2⟩ := ih (by simpa [hw] using h)
        exact ⟨v, rest, by rw [nextInteger, if_neg hw, h1], by rw [List.cons_append, nextInteger, if_neg hw, h2]⟩

theorem mem_fields_ne_time {k : Counts} {p : Column × Nat} (h : p ∈ fields k) : p.1 ≠ .time := by
  simp only [fields, shown, List.mem_append, Option.mem_toList, Option.map_eq_some_iff, List.mem_singleton] at h
  rintro hp
  rcases h with (((⟨_, _, rfl⟩ | ⟨_, _, rfl⟩) | ⟨_, _, rfl⟩) | ⟨_, _, rfl⟩) | rfl <;> cases hp

theorem readColumns_fields {fs : List (Column × Nat)} (hne : ∀ p ∈ fs, p.1 ≠ .time)
    (hb : ∀ p ∈ fs, p.2 ≤ 1000000000) (ts : List Text) (row : TestSummaryResult) (parsed cs : List Column) :
    readColumns ⟨fs.map (fun p => decimal p.2) ++ ts, row, parsed⟩ (fs.map Prod.fst ++ cs) =
      readColumns ⟨ts, fs.foldl (fun r p => setCount p.1 p.2 r) row, parsed ++ fs.map Prod.fst⟩ cs := by
  induction fs generalizing row parsed with
  | nil => simp
  | cons p ps ih =>
      have hread : readColumn ⟨(p :: ps).map (fun p => decimal p.2) ++ ts, row, parsed⟩ p.1 =
          some ⟨ps.map (fun p => decimal p.2) ++ ts, setCount p.1 p.2 row, parsed ++ [p.1]⟩ := by
        rw [readColumn, if_neg (hne p (by simp)), List.map_cons, List.cons_append,
          nextInteger_decimal, Nat.min_eq_left (hb p (by simp))]
        rfl
      change readColumns _ (p.1 :: (ps.map Prod.fst ++ cs)) = _
      rw [readColumns, hread, Option.bind_some,
        ih (fun q hq => hne q (by simp [hq])) (fun q hq => hb q (by simp [hq]))]
      simp

theorem readColumns_skip {ws ts : List Text} (h : ∀ w ∈ ws, isIntToken w = false) {c : Column} (hc : c ≠ .time)
    (cs : List Column) :
    readColumns { tokens := ws ++ ts } (c :: cs) = readColumns { tokens := ts } (c :: cs) := by
  simp only [readColumns, readColumn, if_neg hc, nextInteger_skip ts h]

theorem fields_cons (k : Counts) : ∃ p ps, fields k = p :: ps := by
  cases hf : fields k with
  | nil => simp [fields] at hf
  | cons p ps => exact ⟨p, ps, rfl⟩

/-- A row whose name has no number is read as it was printed. -/
theorem parseSummaryCountsRow_inverts {ws : List Text} (hws : ∀ w ∈ ws, isIntToken w = false) {k : Counts}
    {duration line : Text} (hr : Rendered k duration)
    (hline : summaryTokens line = ws ++ ((fields k).map (fun p => decimal p.2) ++ [duration])) :
    ∃ r, parseSummaryCountsRow ((fields k).map Prod.fst ++ [.time]) line = some r ∧ Inverts k duration r := by
  have hne : summaryTokens line ≠ [] := by simp [hline]
  obtain ⟨p, ps, hf⟩ := fields_cons k
  have hp : p.1 ≠ .time := mem_fields_ne_time (k := k) (by simp [hf])
  have hskip : readColumns { tokens := summaryTokens line } ((fields k).map Prod.fst ++ [.time]) =
      readColumns { tokens := (fields k).map (fun p => decimal p.2) ++ [duration] } ((fields k).map Prod.fst ++ [.time]) := by
    rw [hline, hf]
    exact readColumns_skip hws hp _
  rw [parseSummaryCountsRow, if_neg hne, hskip,
    readColumns_fields (fun p hp => mem_fields_ne_time hp) hr.bounded]
  obtain ⟨pass, fail, error, broken, total⟩ := k
  cases pass <;> cases fail <;> cases error <;> cases broken <;>
    simp [fields, shown, readColumns, readColumn, readTime, finishRow, setCount, Inverts]

theorem summaryLoop_skip {ls : List Text} (h : ∀ t ∈ ls, ¬ summaryMark <:+: t) (rest below : List Text) :
    summaryLoop (ls ++ rest) below = summaryLoop rest (ls.reverse ++ below) := by
  induction ls generalizing below with
  | nil => rfl
  | cons t ts ih =>
      have ht : ¬ (find summaryMark t).isSome := fun hf => h t (by simp) (find_isSome.mp hf)
      rw [List.cons_append, summaryLoop, if_neg ht, ih fun u hu => h u (by simp [hu])]
      simp

theorem mark_not_spaces {t : Text} (h : ¬ summaryMark <:+: t) (n : Nat) :
    ¬ summaryMark <:+: t ++ List.replicate n 32 := by
  induction n with
  | zero => simpa using h
  | succ n ih =>
      rw [List.replicate_succ', ← List.append_assoc, List.infix_concat_iff]
      rintro (⟨a, ha⟩ | hin)
      · have hlast := congrArg List.getLast? ha
        rw [List.getLast?_append_of_ne_nil _ (by decide), List.getLast?_concat] at hlast
        exact absurd hlast (by decide)
      · exact ih hin

theorem spaced_values (gap : Nat → Nat) (ns : List Nat) (duration : Text) :
    ∃ a, spaced gap (ns.map decimal ++ [duration]) = a ++ duration ∧ ∀ c ∈ a, c = 32 ∨ isDigit c = true := by
  induction ns generalizing gap with
  | nil =>
      refine ⟨List.replicate (gap 0 + 1) 32, by simp [spaced], ?_⟩
      intro c hc
      exact .inl (List.mem_replicate.mp hc).2
  | cons n ns ih =>
      obtain ⟨a, ha, hc⟩ := ih fun i => gap (i + 1)
      refine ⟨List.replicate (gap 0 + 1) 32 ++ (decimal n ++ a), by simp [spaced, ha], ?_⟩
      intro c hm
      rcases List.mem_append.mp hm with hm | hm
      · exact .inl (List.mem_replicate.mp hm).2
      · rcases List.mem_append.mp hm with hm | hm
        · obtain ⟨h1, h2⟩ := decimal_digit hm
          exact .inr (by simp [isDigit, h1, h2])
        · exact hc c hm

theorem mark_not_spaced (gap : Nat → Nat) (ns : List Nat) {duration : Text} (hd : Token duration) :
    ¬ summaryMark <:+: spaced gap (ns.map decimal ++ [duration]) := by
  obtain ⟨a, ha, hc⟩ := spaced_values gap ns duration
  rw [ha, infix_iff_at]
  rintro ⟨p, hp⟩
  by_cases hpa : p < a.length
  · have h0 := hp.getElem? (i := 0) (by decide)
    rw [Nat.add_zero, List.getElem?_append_left hpa] at h0
    rcases hc 84 (List.mem_of_getElem? h0) with h | h
    · exact absurd h (by decide)
    · exact absurd h (by decide)
  · obtain ⟨q, rfl⟩ := Nat.exists_eq_add_of_le (Nat.le_of_not_lt hpa)
    have hin := ((at_append_right _ _ _ _).mp hp).isInfix
    have hspace : (32 : UInt8) ∈ duration := hin.subset (by decide)
    exact absurd (hd.2 32 hspace).1 (by decide)

theorem mark_not_rowLine {name : Text} (hn : Name name) (k : Counts) {duration : Text} (hd : Token duration)
    (l : Layout) : ¬ summaryMark <:+: rowLine name k duration l := by
  rw [rowLine, ← List.append_assoc, infix_sep (by decide) (by decide)]
  rintro (h | h)
  · exact mark_not_spaces hn.quiet _ h
  · refine mark_not_spaced l.fieldGap ((fields k).map Prod.snd) hd ?_
    simpa [Function.comp_def] using h

theorem not_mem_spaced {c : UInt8} (hc : c ≠ 32) (gap : Nat → Nat) {ts : List Text} (h : ∀ t ∈ ts, c ∉ t) :
    c ∉ spaced gap ts := by
  induction ts generalizing gap with
  | nil => simp [spaced]
  | cons t ts ih =>
      simp only [spaced, List.mem_append, List.mem_replicate, not_or]
      exact ⟨fun hm => hc hm.2, h t (by simp), ih _ fun u hu => h u (by simp [hu])⟩

theorem not_mem_token {c : UInt8} (hc : isSpace c = true) {t : Text} (ht : Token t) : c ∉ t := by
  intro hm
  rw [(ht.2 c hm).1] at hc
  cases hc

theorem not_mem_headerLine {c : UInt8} (hc : isSpace c = true) (h32 : c ≠ 32) (k : Counts) (l : Layout) :
    c ∉ headerLine k l := by
  have hnames : ∀ t ∈ ((fields k).map Prod.fst ++ [Column.time]).map columnName, c ∉ t := by
    intro t ht
    obtain ⟨col, _, rfl⟩ := List.mem_map.mp ht
    exact not_mem_token hc (token_columnName col)
  have hspaced := not_mem_spaced h32 l.columnGap hnames
  have hmark : summaryMark.all (fun d => isSpace d → d = 32) = true := by decide
  simp only [headerLine, List.mem_append, List.mem_replicate, List.mem_cons, not_or]
  refine ⟨fun hm => h32 (of_decide_eq_true (List.all_eq_true.mp hmark c hm) hc), fun hm => h32 hm.2, ?_, hspaced⟩
  rintro rfl
  cases hc

theorem not_mem_rowLine {c : UInt8} (hc : isSpace c = true) (h32 : c ≠ 32) {name : Text} (hn : c ∉ name)
    (k : Counts) {duration : Text} (hd : Token duration) (l : Layout) : c ∉ rowLine name k duration l := by
  have hspaced := not_mem_spaced h32 l.fieldGap fun t ht => not_mem_token hc (token_values (k := k) hd t ht)
  simp only [rowLine, List.mem_append, List.mem_replicate, List.mem_cons, not_or]
  refine ⟨hn, fun hm => h32 hm.2, ?_, by simpa using hspaced⟩
  rintro rfl
  cases hc

theorem splitLines_capture {before after name duration : Text} (ha : Around before after) (hn : Name name)
    (hd : Token duration) (k : Counts) (l : Layout) :
    ∃ above below, splitLines (capture before name k duration l after) =
        above ++ headerLine k l :: rowLine name k duration l :: below ∧
      ∀ t ∈ below, ¬ summaryMark <:+: t := by
  have hhead := splitLoop_line (not_mem_headerLine (c := nl) rfl (by decide) k l)
    (not_mem_headerLine (c := cr) rfl (by decide) k l) []
  have hrow_nl := not_mem_rowLine (c := nl) rfl (by decide) hn.oneLine.1 k hd l
  have hrow_cr := not_mem_rowLine (c := cr) rfl (by decide) hn.oneLine.2 k hd l
  have hsplit : splitLoop [] (capture before name k duration l after) =
      ((splitLoop [] before).1 ++ headerLine k l :: (splitLoop [] (rowLine name k duration l ++ after)).1,
        (splitLoop [] (rowLine name k duration l ++ after)).2) := by
    rw [capture, splitLoop_append _ ha.lines, hhead, List.nil_append]
  rcases ha.ending with rfl | ⟨rest, rfl⟩
  · have hne : rowLine name k duration l ≠ [] := by simp [rowLine]
    rw [List.append_nil, splitLoop_open hrow_nl hrow_cr, List.nil_append] at hsplit
    refine ⟨(splitLoop [] before).1, [], ?_, by simp⟩
    simp [splitLines, hsplit, hne]
  · rw [splitLoop_line hrow_nl hrow_cr, List.nil_append] at hsplit
    obtain ⟨hlines, hopen⟩ := splitLoop_isInfix rest []
    have hquiet : ∀ t : Text, t <:+: [] ++ rest.filter (· ≠ cr) → ¬ summaryMark <:+: t := by
      intro t ht hm
      refine ha.quiet (hm.trans (ht.trans ?_))
      rw [List.filter_cons_of_pos (by decide), List.nil_append]
      exact (List.suffix_cons _ _).isInfix
    by_cases hend : (splitLoop [] rest).2 ≠ [] ∨
        (capture before name k duration l (nl :: rest)).getLast? = some nl
    · refine ⟨(splitLoop [] before).1, (splitLoop [] rest).1 ++ [(splitLoop [] rest).2], ?_, ?_⟩
      · simp only [splitLines, hsplit, if_pos hend]
        simp
      · intro t ht
        rcases List.mem_append.mp ht with ht | ht
        · exact hquiet t (hlines t ht)
        · rw [List.mem_singleton.mp ht]
          exact hquiet _ hopen
    · refine ⟨(splitLoop [] before).1, (splitLoop [] rest).1, ?_, fun t ht => hquiet t (hlines t ht)⟩
      simp only [splitLines, hsplit, if_neg hend]

/-- The row below the header is read under the header's own columns. -/
theorem parseTestSummary_capture {before after name duration : Text} (ha : Around before after) (hn : Name name)
    (hd : Token duration) (k : Counts) (l : Layout) {r : TestSummaryResult}
    (hr : parseSummaryCountsRow ((fields k).map Prod.fst ++ [.time]) (trimAscii (rowLine name k duration l)) = some r) :
    ∃ failures, parseTestSummary (capture before name k duration l after) = { r with failures := failures } := by
  obtain ⟨above, below, hlines, hbelow⟩ := splitLines_capture ha hn hd k l
  have hheader : (find summaryMark (headerLine k l)).isSome := by
    rw [find_isSome, headerLine]
    exact (List.prefix_append _ _).isInfix
  have hrow : ¬ (find summaryMark (rowLine name k duration l)).isSome := by
    rw [find_isSome]
    exact mark_not_rowLine hn k hd l
  have htrim : ¬ (find summaryMark (trimAscii (rowLine name k duration l))).isSome := by
    rw [find_isSome]
    exact fun h => mark_not_rowLine hn k hd l (h.trans (trimAscii_isInfix _))
  have hne : trimAscii (rowLine name k duration l) ≠ [] := by
    intro h
    rw [h] at hr
    cases hr
  have hcand : ∃ cs, columnCandidates (headerLine k l) (rowLine name k duration l :: below) =
      ((fields k).map Prod.fst ++ [.time]) :: cs := by
    simp [columnCandidates, normalizeSummaryColumns_headerLine]
  obtain ⟨cs, hcand⟩ := hcand
  have hloop : rowLoop (columnCandidates (headerLine k l) (rowLine name k duration l :: below))
      ((rowLine name k duration l :: below).take 11) = some r := by
    simp only [List.take_succ_cons, rowLoop, if_neg hne, if_neg htrim, hcand, List.findSome?_cons, hr]
  have hsummary : summaryLoop (splitLines (capture before name k duration l after)).reverse [] = some r := by
    have hrev : (splitLines (capture before name k duration l after)).reverse =
        below.reverse ++ rowLine name k duration l :: headerLine k l :: above.reverse := by simp [hlines]
    rw [hrev, summaryLoop_skip fun t ht => hbelow t (List.mem_reverse.mp ht), summaryLoop, if_neg hrow,
      summaryLoop, if_pos hheader, List.reverse_reverse, List.append_nil, hloop]
  refine ⟨extractFailureSnippets (splitLines (capture before name k duration l after)), ?_⟩
  simp only [parseTestSummary, hsummary]

theorem nextInteger_values (ws : List Text) (p total : Nat) (duration : Text) :
    ∃ u t ts, nextInteger (ws ++ [decimal p, decimal total, duration]) = some (u, t :: ts) := by
  by_cases h : ∃ w ∈ ws, isIntToken w = true
  · obtain ⟨u, rest, _, hu⟩ := nextInteger_append [decimal p, decimal total, duration] h
    cases rest with
    | nil => exact ⟨u, _, _, hu⟩
    | cons t ts => exact ⟨u, _, _, hu⟩
  · have hskip : ∀ w ∈ ws, isIntToken w = false := by simpa using h
    exact ⟨_, _, _, (nextInteger_skip _ hskip).trans (nextInteger_decimal p _)⟩

theorem readTime_some (t : Text) (ts : List Text) (row : TestSummaryResult) (parsed : List Column) :
    ∃ s, readTime ⟨t :: ts, row, parsed⟩ = some s ∧ s.row.testPass = row.testPass ∧ s.parsed = parsed := by
  cases ts with
  | nil => exact ⟨_, rfl, rfl, rfl⟩
  | cons u us =>
      simp only [readTime]
      split
      · exact ⟨_, rfl, rfl, rfl⟩
      · exact ⟨_, rfl, rfl, rfl⟩

/-- A number in the name is taken for the first count. -/
theorem parseSummaryCountsRow_number {ws : List Text} (hws : ∃ w ∈ ws, isIntToken w = true) :
    ∃ v, ∀ (p total : Nat) (duration line : Text),
      summaryTokens line = ws ++ [decimal p, decimal total, duration] →
        ∃ r, parseSummaryCountsRow [.pass, .total, .time] line = some r ∧ r.testPass = v := by
  obtain ⟨v, _, hv, _⟩ := nextInteger_append [] hws
  refine ⟨v, fun p total duration line hline => ?_⟩
  have hne : summaryTokens line ≠ [] := by simp [hline]
  obtain ⟨v', rest, hv', hfirst⟩ := nextInteger_append [decimal p, decimal total, duration] hws
  obtain rfl : v = v' := by
    rw [hv] at hv'
    cases hv'
    rfl
  obtain ⟨u, t, ts, hsecond⟩ := nextInteger_values rest p total duration
  obtain ⟨s, htime, hpass, hparsed⟩ :=
    readTime_some t ts (setCount .total u (setCount .pass v {})) [Column.pass, .total]
  have hcolumns : readColumns { tokens := summaryTokens line } [.pass, .total, .time] = some s := by
    simpa [readColumns, readColumn, hline, hfirst, hsecond] using htime
  have htotal : Column.total ∈ s.parsed := by simp [hparsed]
  rw [parseSummaryCountsRow, if_neg hne, hcolumns, Option.bind_some]
  simp only [finishRow, htotal, true_or, if_true, not_true_eq_false, false_and, if_false]
  exact ⟨_, rfl, hpass⟩

theorem inverts_of_no_number {name : Text} (hn : Name name) (hw : ∀ w ∈ summaryTokens name, isIntToken w = false)
    {before after duration : Text} (ha : Around before after) {k : Counts} (hr : Rendered k duration) (l : Layout) :
    Inverts k duration (parseTestSummary (capture before name k duration l after)) := by
  have hline := summaryTokens_trimAscii (rowLine name k duration l)
  rw [summaryTokens_rowLine name k l hr.token] at hline
  obtain ⟨r, hrow, hinv⟩ := parseSummaryCountsRow_inverts hw hr hline
  obtain ⟨failures, hparse⟩ := parseTestSummary_capture ha hn hr.token k l hrow
  rw [hparse]
  exact hinv

theorem testPass_of_number {name : Text} (hn : Name name) (hw : ∃ w ∈ summaryTokens name, isIntToken w = true) :
    ∃ v, ∀ (p total : Nat) (duration : Text) (l : Layout) (before after : Text), Token duration →
      Around before after →
        (parseTestSummary (capture before name { pass := some p, total } duration l after)).testPass = v := by
  obtain ⟨v, hv⟩ := parseSummaryCountsRow_number hw
  refine ⟨v, fun p total duration l before after hd ha => ?_⟩
  have hline := summaryTokens_trimAscii (rowLine name { pass := some p, total } duration l)
  rw [summaryTokens_rowLine name _ l hd] at hline
  obtain ⟨r, hrow, hpass⟩ := hv p total duration _ hline
  obtain ⟨failures, hparse⟩ := parseTestSummary_capture ha hn hd { pass := some p, total } l hrow
  rw [hparse]
  exact hpass

theorem around_nil : Around [] [] := ⟨.inl rfl, .inl rfl, by decide⟩

/-- The tables of a testset are read back, all of them, exactly when no token of
its name is a number. -/
theorem table_inverted_iff {name : Text} (hn : Name name) :
    (∀ k duration l before after, Rendered k duration → Around before after →
      Inverts k duration (parseTestSummary (capture before name k duration l after))) ↔
      ∀ w ∈ summaryTokens name, isIntToken w = false := by
  constructor
  · intro h
    by_contra hw
    obtain ⟨v, hv⟩ := testPass_of_number hn (by simpa using hw)
    have hd : Token (lit "0.1s") := by decide
    have hread : ∀ p ≤ 1, p = v := by
      intro p hp
      have hr : Rendered { pass := some p, total := 0 } (lit "0.1s") := by
        refine ⟨.inl rfl, ?_, hd⟩
        intro q hq
        simp only [fields, shown, Option.map_some, Option.toList_some, Option.map_none, Option.toList_none,
          List.append_nil, List.cons_append, List.nil_append, List.mem_cons, List.not_mem_nil, or_false] at hq
        rcases hq with rfl | rfl
        · exact hp.trans (by decide)
        · exact Nat.zero_le _
      have hp := (h _ _ {} [] [] hr around_nil).2.1
      rw [hv p 0 _ {} [] [] hd around_nil] at hp
      exact hp.symm
    have h0 := hread 0 (by decide)
    have h1 := hread 1 (by decide)
    omega
  · intro hw k duration l before after hr ha
    exact inverts_of_no_number hn hw ha hr l

theorem table_inverted_arithmetic :
    Inverts { pass := some 5, fail := some 1, total := 6 } (lit "0.1s")
      (parseTestSummary (capture (lit "julia> run()\n") (lit "arithmetic mod 7a")
        { pass := some 5, fail := some 1, total := 6 } (lit "0.1s") { rowPipe := 3 } (lit "\njulia> "))) := by
  have hn : Name (lit "arithmetic mod 7a") := ⟨by decide, by decide, by decide⟩
  have hr : Rendered { pass := some 5, fail := some 1, total := 6 } (lit "0.1s") :=
    ⟨.inl rfl, by decide, by decide⟩
  have ha : Around (lit "julia> run()\n") (lit "\njulia> ") :=
    ⟨.inr ⟨lit "julia> run()", by decide⟩, .inr ⟨lit "julia> ", by decide⟩, by decide⟩
  exact (table_inverted_iff hn).mpr (by decide) _ _ _ _ _ hr ha

theorem not_table_inverted :
    ¬ ∀ name, Name name → ∀ k duration l before after, Rendered k duration → Around before after →
      Inverts k duration (parseTestSummary (capture before name k duration l after)) := by
  intro h
  have hn : Name (lit "adds 2 up") := ⟨by decide, by decide, by decide⟩
  have hr : Rendered { pass := some 5, total := 5 } (lit "0.1s") :=
    ⟨.inl rfl, by decide, by decide⟩
  exact absurd (h _ hn _ _ {} [] [] hr around_nil) (by decide +kernel)

end JJMCP.SummaryTable
