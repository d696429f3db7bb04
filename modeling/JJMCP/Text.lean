import JJMCP.Lib.Lines
import Mathlib.Algebra.Group.Nat.Defs
import Mathlib.Data.List.DropRight

namespace JJMCP

/-- A byte string, as std::string holds it. -/
abbrev Text := List UInt8

end JJMCP

namespace JJMCP.Text

open Lib.Occurrence Lib.Lines

def lit (s : String) : Text := s.toList.map Char.toUInt8

def nl : UInt8 := 10
def cr : UInt8 := 13

/-- std::to_string of a non-negative number. -/
def decimal (n : Nat) : Text := (Nat.toDigits 10 n).map Char.toUInt8

def isDigit (c : UInt8) : Bool := 48 ≤ c && c ≤ 57

def digitsValue (t : Text) : Nat := t.foldl (fun n c => 10 * n + (c.toNat - 48)) 0

def isBlank (c : UInt8) : Bool := c == 32 || c == 9 || c == cr || c == nl

def trimAscii (text : Text) : Text := (text.rdropWhile isBlank).dropWhile isBlank

/-- The loop of split_lines: the finished lines and the unfinished one. -/
def splitLoop (current : Text) : Text → List Text × Text
  | [] => ([], current)
  | c :: cs =>
      if c = cr then splitLoop current cs
      else if c = nl then (current :: (splitLoop [] cs).1, (splitLoop [] cs).2)
      else splitLoop (current ++ [c]) cs

def splitLines (text : Text) : List Text :=
  let (lines, current) := splitLoop [] text
  if current ≠ [] ∨ text.getLast? = some nl then lines ++ [current] else lines

def joinLines (lines : List Text) (first last : Nat) : Text :=
  ((lines.take last).drop first).foldl
    (fun out line => (if out = [] then out else out ++ [nl]) ++ line) []

theorem filter_noCr {t : Text} (h : cr ∉ t) : t.filter (· ≠ cr) = t := by
  rw [List.filter_eq_self]
  intro c hc
  have hne : c ≠ cr := fun he => h (he ▸ hc)
  simpa using hne

theorem decimal_digit {n : Nat} {c : UInt8} (h : c ∈ decimal n) : 48 ≤ c ∧ c ≤ 57 := by
  obtain ⟨d, hd, rfl⟩ := List.mem_map.mp h
  have hdig := Nat.isDigit_of_mem_toDigits (by decide) (by decide) hd
  simp only [Char.isDigit, Bool.and_eq_true, decide_eq_true_eq, ge_iff_le, UInt32.le_iff_toNat_le] at hdig
  simp only [Char.toUInt8, UInt8.le_iff_toNat_le, UInt32.toNat_toUInt8]
  have h48 : '0'.val.toNat = 48 := rfl
  have h57 : '9'.val.toNat = 57 := rfl
  have h48' : UInt8.toNat 48 = 48 := rfl
  have h57' : UInt8.toNat 57 = 57 := rfl
  omega

theorem decimal_length {n k : Nat} (h : n < 10 ^ k) (hk : 0 < k) : (decimal n).length ≤ k := by
  rwa [decimal, List.length_map, Nat.length_toDigits_le_iff (by decide) hk]

theorem splitLoop_isInfix (t current : Text) :
    (∀ l ∈ (splitLoop current t).1, l <:+: current ++ t.filter (· ≠ cr)) ∧
      (splitLoop current t).2 <:+: current ++ t.filter (· ≠ cr) := by
  induction t generalizing current with
  | nil => simp [splitLoop]
  | cons c cs ih =>
      by_cases hcr : c = cr
      · simpa [splitLoop, hcr] using ih current
      · by_cases hnl : c = nl
        · obtain ⟨h1, h2⟩ := ih []
          have hne : nl ≠ cr := by decide
          have hin : ∀ l, l <:+: cs.filter (· ≠ cr) → l <:+: current ++ nl :: cs.filter (· ≠ cr) :=
            fun l hl => List.infix_append_of_infix_right (List.infix_cons hl)
          simp only [splitLoop, hnl, hne, if_false, if_true, List.mem_cons, forall_eq_or_imp]
          rw [List.filter_cons_of_pos (by simp [hne])]
          exact ⟨⟨List.infix_append_left, fun l hl => hin l (h1 l hl)⟩, hin _ h2⟩
        · obtain ⟨h1, h2⟩ := ih (current ++ [c])
          have hf : current ++ (c :: cs).filter (· ≠ cr) = current ++ [c] ++ cs.filter (· ≠ cr) := by
            rw [List.filter_cons_of_pos (by simp [hcr])]
            simp
          simp only [splitLoop, hcr, hnl, if_false, hf]
          exact ⟨h1, h2⟩

theorem splitLines_isInfix {text l : Text} (h : l ∈ splitLines text) : l <:+: text.filter (· ≠ cr) := by
  obtain ⟨h1, h2⟩ := splitLoop_isInfix text []
  simp only [splitLines] at h
  split at h
  · rcases List.mem_append.mp h with h | h
    · exact h1 l h
    · rw [List.mem_singleton.mp h]
      exact h2
  · exact h1 l h

theorem splitLoop_line {line : Text} (hnl : nl ∉ line) (hcr : cr ∉ line) (current rest : Text) :
    splitLoop current (line ++ nl :: rest) = ((current ++ line) :: (splitLoop [] rest).1, (splitLoop [] rest).2) := by
  have hne : nl ≠ cr := by decide
  induction line generalizing current with
  | nil => simp [splitLoop, hne]
  | cons c cs ih =>
      simp only [List.mem_cons, not_or] at hnl hcr
      simp [splitLoop, Ne.symm hcr.1, Ne.symm hnl.1, ih hnl.2 hcr.2]

theorem splitLoop_open {line : Text} (hnl : nl ∉ line) (hcr : cr ∉ line) (current : Text) :
    splitLoop current line = ([], current ++ line) := by
  induction line generalizing current with
  | nil => simp [splitLoop]
  | cons c cs ih =>
      simp only [List.mem_cons, not_or] at hnl hcr
      simp [splitLoop, Ne.symm hcr.1, Ne.symm hnl.1, ih hnl.2 hcr.2]

theorem splitLoop_closed (current t b : Text) :
    splitLoop current (t ++ nl :: b) =
      ((splitLoop current t).1 ++ (splitLoop current t).2 :: (splitLoop [] b).1, (splitLoop [] b).2) := by
  have hne : nl ≠ cr := by decide
  induction t generalizing current with
  | nil => simp [splitLoop, hne]
  | cons c cs ih =>
      by_cases hcr : c = cr
      · simp [splitLoop, hcr, ih]
      · by_cases hnl : c = nl
        · simp [splitLoop, hnl, hne, ih]
        · simp [splitLoop, hcr, hnl, ih]

theorem splitLoop_append {a : Text} (b : Text) (ha : Terminated nl a) :
    splitLoop [] (a ++ b) = ((splitLoop [] a).1 ++ (splitLoop [] b).1, (splitLoop [] b).2) := by
  rcases ha with rfl | ⟨t, rfl⟩
  · simp [splitLoop]
  · rw [List.append_assoc, List.singleton_append, splitLoop_closed, splitLoop_closed]
    simp [splitLoop]

theorem trimAscii_split (t : Text) :
    ∃ a b, t = a ++ (trimAscii t ++ b) ∧ (∀ c ∈ a, isBlank c = true) ∧ ∀ c ∈ b, isBlank c = true := by
  refine ⟨(t.rdropWhile isBlank).takeWhile isBlank, t.rtakeWhile isBlank, ?_, ?_, ?_⟩
  · rw [trimAscii, ← List.append_assoc, List.takeWhile_append_dropWhile, List.rdropWhile_append_rtakeWhile]
  · exact fun c hc => List.mem_takeWhile_imp hc
  · exact fun c hc => List.mem_rtakeWhile_imp hc

theorem digitChar_value {d : Nat} (h : d < 10) : d.digitChar.toUInt8.toNat - 48 = d := by
  have hv : d.digitChar.val.toNat = 48 + d := Nat.toNat_digitChar_of_lt_ten h
  simp only [Char.toUInt8, UInt32.toNat_toUInt8, hv]
  omega

theorem digitsValue_decimal (n : Nat) : digitsValue (decimal n) = n := by
  induction n using Nat.strong_induction_on with
  | _ n ih =>
      rw [decimal, Nat.toDigits_eq_if (by decide)]
      split
      next h => simpa [digitsValue] using digitChar_value h
      next h =>
        have hrec : digitsValue (decimal (n / 10)) = n / 10 := ih (n / 10) (by omega)
        have hlast := digitChar_value (show n % 10 < 10 by omega)
        simp only [digitsValue, decimal, List.map_append, List.foldl_append, List.map_cons, List.map_nil,
          List.foldl_cons, List.foldl_nil] at hrec ⊢
        rw [hrec, hlast]
        omega

theorem trimAscii_isInfix (text : Text) : trimAscii text <:+: text :=
  (List.dropWhile_suffix _).isInfix.trans (List.rdropWhile_prefix _ _).isInfix

theorem trimAscii_solid {c d : UInt8} (hc : isBlank c = false) (hd : isBlank d = false) (t : Text) :
    trimAscii (c :: t ++ [d]) = c :: t ++ [d] := by
  have hr : (c :: t ++ [d]).rdropWhile isBlank = c :: t ++ [d] :=
    List.rdropWhile_concat_neg _ _ _ (by simp [hd])
  rw [trimAscii, hr, List.cons_append, List.dropWhile_cons_of_neg (by simp [hc])]

theorem trimAscii_concat_blank {c : UInt8} (hc : isBlank c = true) (t : Text) :
    trimAscii (t ++ [c]) = trimAscii t := by
  rw [trimAscii, List.rdropWhile_concat_pos _ _ _ hc, trimAscii]

theorem suffix_dropWhile {p : UInt8 → Bool} {c : UInt8} (hc : p c = false) (t r : Text) :
    c :: r <:+ (t ++ c :: r).dropWhile p := by
  induction t with
  | nil => simp [hc]
  | cons x t ih =>
      by_cases hx : p x = true
      · rw [List.cons_append, List.dropWhile_cons_of_pos hx]
        exact ih
      · rw [List.cons_append, List.dropWhile_cons_of_neg hx]
        exact ⟨x :: t, by simp⟩

theorem suffix_trimAscii {c d : UInt8} (hc : isBlank c = false) (hd : isBlank d = false) (t s : Text) :
    c :: s ++ [d] <:+ trimAscii (t ++ (c :: s ++ [d])) := by
  have hr : (t ++ (c :: s ++ [d])).rdropWhile isBlank = t ++ (c :: s ++ [d]) := by
    rw [← List.append_assoc]
    exact List.rdropWhile_concat_neg _ _ _ (by simp [hd])
  rw [trimAscii, hr]
  exact suffix_dropWhile hc t (s ++ [d])

end JJMCP.Text
