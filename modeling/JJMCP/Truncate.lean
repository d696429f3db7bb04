import JJMCP.Text

namespace JJMCP.Truncate

open Lib.Occurrence Text

def isUtf8Continuation (c : UInt8) : Bool := c &&& 0xc0 == 0x80

def utf8SafeSuffixStart (text : Text) (start : Nat) : Nat :=
  if text.length ≤ start then text.length
  else start + ((text.drop start).takeWhile isUtf8Continuation).length

/-- The loop of utf8_safe_prefix_length, downwards from the limit. -/
def prefixLoop (text : Text) : Nat → Nat
  | 0 => 0
  | keep + 1 => if text[keep + 1]?.any isUtf8Continuation then prefixLoop text keep else keep + 1

def utf8SafePrefixLength (text : Text) (maxBytes : Nat) : Nat :=
  if text.length ≤ maxBytes then text.length else prefixLoop text maxBytes

/-- The lines a limit counts: a closing line end opens no further line. -/
def countedLines (text : Text) : List Text :=
  let lines := splitLines text
  if lines.getLast? = some [] then lines.dropLast else lines

def truncateLinesTail (text : Text) (maxLines : Nat) : Text :=
  if maxLines = 0 then lit "[JJMCP truncated: output hidden because max line count is 0]"
  else
    let lines := countedLines text
    if lines.length ≤ maxLines then text
    else
      let omitted := lines.length - maxLines
      lit "[JJMCP truncated: omitted " ++ (decimal omitted ++ (lit " earlier line(s)]" ++
        nl :: joinLines lines omitted lines.length))

def truncateLines (text : Text) (maxLines : Nat) : Text :=
  if maxLines = 0 then lit "[JJMCP truncated: output hidden because max line count is 0]"
  else
    let lines := countedLines text
    if lines.length ≤ maxLines then text
    else
      let omitted := lines.length - maxLines
      let out := joinLines lines 0 maxLines
      (if out = [] then out else out ++ [nl]) ++
        (lit "[JJMCP truncated: omitted " ++ (decimal omitted ++ lit " line(s)]"))

def truncateBytes (text : Text) (maxBytes : Nat) : Text :=
  if maxBytes = 0 then lit "[JJMCP truncated: output hidden because max byte count is 0]"
  else if text.length ≤ maxBytes then text
  else
    let keep := utf8SafePrefixLength text maxBytes
    let out := text.take keep
    (if out ≠ [] ∧ out.getLast? ≠ some nl then out ++ [nl] else out) ++
      (lit "[JJMCP truncated: omitted " ++ (decimal (text.length - keep) ++ lit " byte(s)]"))

def truncateBytesTail (text : Text) (maxBytes : Nat) : Text :=
  if maxBytes = 0 then lit "[JJMCP truncated: output hidden because max byte count is 0]"
  else if text.length ≤ maxBytes then text
  else
    let start := utf8SafeSuffixStart text (text.length - maxBytes)
    lit "[JJMCP truncated: omitted " ++ (decimal start ++ (lit " earlier byte(s)]" ++ nl :: text.drop start))

def kMaxMcpTextBytes : Nat := 256 * 1024
def kMaxMcpBacktraceBytes : Nat := 128 * 1024

def truncateToolTail (text : Text) (maxLines maxBytes : Nat) : Text :=
  truncateBytesTail (truncateLinesTail text maxLines) maxBytes

/-- A string that stands in a line and has an underscore, as every marker string. -/
def Solid (pat : Text) : Prop := nl ∉ pat ∧ 95 ∈ pat

theorem Solid.ne_nil {pat : Text} (h : Solid pat) : pat ≠ [] := List.ne_nil_of_mem h.2

theorem countedLines_isInfix {text l : Text} (h : l ∈ countedLines text) :
    l <:+: text.filter (· ≠ cr) := by
  simp only [countedLines] at h
  split at h
  · exact splitLines_isInfix (List.mem_of_mem_dropLast h)
  · exact splitLines_isInfix h

theorem joinLines_isInfix {pat : Text} (hpat : Solid pat) {lines : List Text} {a b : Nat}
    (h : pat <:+: joinLines lines a b) : ∃ l ∈ lines, pat <:+: l := by
  have hgen : ∀ ls : List Text, ∀ out, pat <:+: ls.foldl
      (fun out line => (if out = [] then out else out ++ [nl]) ++ line) out →
      pat <:+: out ∨ ∃ l ∈ ls, pat <:+: l := by
    intro ls
    induction ls with
    | nil => exact fun out h => .inl h
    | cons l ls ih =>
        intro out h
        rcases ih _ h with h | ⟨l', hl', h⟩
        · dsimp only at h
          split at h
          next he => exact .inr ⟨l, by simp, by simpa [he] using h⟩
          next he =>
            rw [List.append_assoc, List.singleton_append, infix_sep hpat.1 hpat.ne_nil] at h
            rcases h with h | h
            · exact .inl h
            · exact .inr ⟨l, by simp, h⟩
        · exact .inr ⟨l', by simp [hl'], h⟩
  rcases hgen _ [] h with h | ⟨l, hl, h⟩
  · exact absurd (List.infix_nil.mp h) hpat.ne_nil
  · exact ⟨l, List.mem_of_mem_take (List.mem_of_mem_drop hl), h⟩

theorem solid_not_infix_plain {pat t : Text} (hpat : Solid pat) (ht : 95 ∉ t) : ¬ pat <:+: t :=
  fun h => ht (h.subset hpat.2)

theorem solid_infix_note {pat : Text} (hpat : Solid pat) (n : Nat) {what : Text} (hwhat : 95 ∉ what)
    (rest : Text) :
    pat <:+: lit "[JJMCP truncated: omitted " ++ (decimal n ++ (what ++ nl :: rest)) ↔ pat <:+: rest := by
  have hd : 95 ∉ decimal n := fun h => absurd (decimal_digit h) (by decide)
  have ho : 95 ∉ lit "[JJMCP truncated: omitted " := by decide
  rw [← List.append_assoc, ← List.append_assoc, infix_sep hpat.1 hpat.ne_nil]
  have hplain : ¬ pat <:+: lit "[JJMCP truncated: omitted " ++ decimal n ++ what := by
    refine solid_not_infix_plain hpat ?_
    simp only [List.mem_append, not_or]
    exact ⟨⟨ho, hd⟩, hwhat⟩
  rw [List.append_assoc] at hplain ⊢
  exact or_iff_right hplain

theorem infix_truncateLinesTail {pat text : Text} (hpat : Solid pat) (n : Nat)
    (h : pat <:+: truncateLinesTail text n) : pat <:+: text ∨ pat <:+: text.filter (· ≠ cr) := by
  simp only [truncateLinesTail] at h
  split at h
  · exact absurd h (solid_not_infix_plain hpat (by decide))
  · split at h
    · exact .inl h
    · rw [solid_infix_note hpat _ (by decide)] at h
      obtain ⟨l, hl, h⟩ := joinLines_isInfix hpat h
      exact .inr (h.trans (countedLines_isInfix hl))

theorem infix_truncateBytesTail {pat text : Text} (hpat : Solid pat) (n : Nat)
    (h : pat <:+: truncateBytesTail text n) : pat <:+: text := by
  simp only [truncateBytesTail] at h
  split at h
  · exact absurd h (solid_not_infix_plain hpat (by decide))
  · split at h
    · exact h
    · rw [solid_infix_note hpat _ (by decide)] at h
      exact h.trans (List.drop_suffix _ _).isInfix

theorem cr_note {n : Nat} {what rest : Text} (hwhat : cr ∉ what) (hrest : cr ∉ rest) :
    cr ∉ lit "[JJMCP truncated: omitted " ++ (decimal n ++ (what ++ nl :: rest)) := by
  have hd : cr ∉ decimal n := fun h => absurd (decimal_digit h) (by decide)
  have ho : cr ∉ lit "[JJMCP truncated: omitted " := by decide
  have hn : cr ≠ nl := by decide
  simp only [List.mem_append, List.mem_cons, not_or]
  exact ⟨ho, hd, hwhat, hn, hrest⟩

theorem cr_joinLines {lines : List Text} {a b : Nat} (h : ∀ l ∈ lines, cr ∉ l) :
    cr ∉ joinLines lines a b := by
  have hgen : ∀ ls : List Text, (∀ l ∈ ls, cr ∉ l) → ∀ out : Text, cr ∉ out → cr ∉ ls.foldl
      (fun out line => (if out = [] then out else out ++ [nl]) ++ line) out := by
    intro ls
    induction ls with
    | nil => exact fun _ out h => h
    | cons l ls ih =>
        intro hls out hout
        have hn : cr ≠ nl := by decide
        refine ih (fun l' hl' => hls l' (by simp [hl'])) _ ?_
        have hl := hls l (by simp)
        dsimp only
        split
        · simp [hl, hout]
        · simp [hl, hout, hn]
  exact hgen _ (fun l hl => h l (List.mem_of_mem_take (List.mem_of_mem_drop hl))) [] (by simp)

theorem cr_truncateLinesTail {text : Text} (h : cr ∉ text) (n : Nat) : cr ∉ truncateLinesTail text n := by
  simp only [truncateLinesTail]
  split
  · decide
  · split
    · exact h
    · refine cr_note (by decide) (cr_joinLines fun l hl hc => ?_)
      simpa using (countedLines_isInfix hl).subset hc

theorem cr_truncateBytesTail {text : Text} (h : cr ∉ text) (n : Nat) : cr ∉ truncateBytesTail text n := by
  simp only [truncateBytesTail]
  split
  · decide
  · split
    · exact h
    · exact cr_note (by decide) fun hc => h (List.mem_of_mem_drop hc)

theorem cr_truncateToolTail {text : Text} (h : cr ∉ text) (a b : Nat) : cr ∉ truncateToolTail text a b :=
  cr_truncateBytesTail (cr_truncateLinesTail h a) b

/-- Cutting the head off a text without carriage returns brings out no marker string. -/
theorem infix_truncateToolTail {pat text : Text} (hpat : Solid pat) (hcr : cr ∉ text) (a b : Nat)
    (h : pat <:+: truncateToolTail text a b) : pat <:+: text := by
  rcases infix_truncateLinesTail hpat a (infix_truncateBytesTail hpat b h) with h | h
  · exact h
  · rwa [filter_noCr hcr] at h

end JJMCP.Truncate
