import Mathlib.Data.List.Infix

namespace JJMCP.Lib.Occurrence

variable {α : Type}

/-- The pattern stands in the text at offset p. -/
def At (pat text : List α) (p : Nat) : Prop := pat <+: text.drop p

instance [DecidableEq α] (pat text : List α) (p : Nat) : Decidable (At pat text p) :=
  inferInstanceAs (Decidable (pat <+: text.drop p))

theorem At.bound {pat text : List α} {p : Nat} (h : At pat text p) (hp : pat ≠ []) :
    p + pat.length ≤ text.length := by
  have hl := h.length_le
  have hpos : 0 < pat.length := List.length_pos_iff.mpr hp
  rw [List.length_drop] at hl
  omega

theorem At.isInfix {pat text : List α} {p : Nat} (h : At pat text p) : pat <:+: text :=
  (List.IsPrefix.isInfix h).trans (List.drop_suffix p text).isInfix

theorem infix_iff_at {pat text : List α} : pat <:+: text ↔ ∃ p, At pat text p := by
  constructor
  · rintro ⟨a, b, rfl⟩
    exact ⟨a.length, by simp [At]⟩
  · rintro ⟨p, h⟩
    exact h.isInfix

theorem at_append_right (pat a b : List α) (p : Nat) :
    At pat (a ++ b) (a.length + p) ↔ At pat b p := by
  unfold At
  rw [← List.drop_drop, List.drop_left]

theorem at_append_left {pat a : List α} (b : List α) {p : Nat} (hp : p + pat.length ≤ a.length) :
    At pat (a ++ b) p ↔ At pat a p := by
  unfold At
  rw [List.drop_append_of_le_length (by omega)]
  constructor
  · intro h
    exact List.prefix_of_prefix_length_le h (List.prefix_append _ _) (by rw [List.length_drop]; omega)
  · intro h
    exact h.trans (List.prefix_append _ _)

theorem at_length (a pat rest : List α) : At pat (a ++ (pat ++ rest)) a.length := by
  rw [At, List.drop_left]
  exact List.prefix_append _ _

theorem at_drop {pat text : List α} {p q : Nat} : At pat (text.drop q) p ↔ At pat text (q + p) := by
  simp [At, List.drop_drop]

theorem At.getElem? {pat text : List α} {p i : Nat} (h : At pat text p) (hi : i < pat.length) :
    text[p + i]? = pat[i]? := by
  obtain ⟨rest, hr⟩ := h
  rw [← List.getElem?_drop, ← hr, List.getElem?_append_left hi]

/-- An occurrence that lies within another one. -/
theorem At.inside {pat outer text : List α} {p q : Nat} (h : At pat text p) (ho : At outer text q) (hq : q ≤ p)
    (hp : p + pat.length ≤ q + outer.length) : At pat outer (p - q) := by
  obtain ⟨rest, hr⟩ := ho
  have hsplit : text.drop p = (outer ++ rest).drop (p - q) := by
    rw [hr, List.drop_drop, Nat.add_sub_cancel' hq]
  rw [At, hsplit] at h
  exact (at_append_left rest (by omega)).mp h

/-- A pattern without the separator lies on one side of it. -/
theorem at_sep {pat : List α} {sep : α} (hsep : sep ∉ pat) (hne : pat ≠ []) (l r : List α) (p : Nat) :
    At pat (l ++ sep :: r) p ↔
      (p + pat.length ≤ l.length ∧ At pat l p) ∨ (l.length < p ∧ At pat r (p - (l.length + 1))) := by
  have hpos : 0 < pat.length := List.length_pos_iff.mpr hne
  by_cases hl : p + pat.length ≤ l.length
  · rw [at_append_left _ hl]
    constructor
    · intro h; exact .inl ⟨hl, h⟩
    · rintro (⟨_, h⟩ | ⟨hp, _⟩)
      · exact h
      · omega
  · by_cases hr : l.length < p
    · obtain ⟨d, rfl⟩ := Nat.exists_eq_add_of_lt hr
      have he : l ++ sep :: r = (l ++ [sep]) ++ r := by simp
      have hd : l.length + d + 1 = (l ++ [sep]).length + d := by simp; omega
      have hs : l.length + d + 1 - (l.length + 1) = d := by omega
      rw [hs, he, hd, at_append_right]
      constructor
      · intro h; exact .inr ⟨by simp; omega, h⟩
      · rintro (⟨hp, _⟩ | ⟨_, h⟩)
        · simp only [List.length_append, List.length_singleton] at hp; omega
        · exact h
    · constructor
      · intro h
        exfalso
        have hi := h.getElem? (i := l.length - p) (by omega)
        have hidx : p + (l.length - p) = l.length := by omega
        rw [hidx, List.getElem?_append_right (Nat.le_refl _), Nat.sub_self] at hi
        exact hsep (List.mem_of_getElem? hi.symm)
      · rintro (⟨hp, _⟩ | ⟨hp, _⟩)
        · exact absurd hp hl
        · exact absurd hp hr

theorem infix_sep {pat : List α} {sep : α} (hsep : sep ∉ pat) (hne : pat ≠ []) (l r : List α) :
    pat <:+: l ++ sep :: r ↔ pat <:+: l ∨ pat <:+: r := by
  constructor
  · intro h
    obtain ⟨p, hp⟩ := infix_iff_at.mp h
    rcases (at_sep hsep hne l r p).mp hp with ⟨_, h⟩ | ⟨_, h⟩
    · exact .inl h.isInfix
    · exact .inr h.isInfix
  · rintro (h | h)
    · exact List.infix_append_of_infix_left h
    · exact List.infix_append_of_infix_right (List.infix_cons h)

variable [DecidableEq α]

def find (pat : List α) : List α → Option Nat
  | [] => if pat = [] then some 0 else none
  | c :: cs => if pat <+: c :: cs then some 0 else (find pat cs).map (· + 1)

def rfind (pat : List α) : List α → Option Nat
  | [] => if pat = [] then some 0 else none
  | c :: cs =>
      match rfind pat cs with
      | some p => some (p + 1)
      | none => if pat <+: c :: cs then some 0 else none

theorem find_eq_none {pat text : List α} : find pat text = none ↔ ¬ pat <:+: text := by
  induction text with
  | nil => by_cases h : pat = [] <;> simp [find, h]
  | cons c cs ih =>
      by_cases h : pat <+: c :: cs
      · simp [find, h, h.isInfix]
      · simp [find, h, ih, List.infix_cons_iff]

theorem find_eq_some {pat text : List α} {p : Nat} :
    find pat text = some p ↔ p ≤ text.length ∧ At pat text p ∧ ∀ q < p, ¬ At pat text q := by
  induction text generalizing p with
  | nil =>
      by_cases h : pat = []
      · subst h
        constructor
        · intro hf
          have hp : p = 0 := by simpa [find, eq_comm] using hf
          subst hp
          simp [At]
        · rintro ⟨hp, _⟩
          have hp : p = 0 := by simpa using hp
          simp [find, hp]
      · simp [find, h, At]
  | cons c cs ih =>
      by_cases h : pat <+: c :: cs
      · have h0 : At pat (c :: cs) 0 := h
        simp only [find, h, if_true, Option.some.injEq]
        constructor
        · rintro rfl
          exact ⟨Nat.zero_le _, h0, fun q hq => absurd hq (Nat.not_lt_zero q)⟩
        · rintro ⟨_, _, hq⟩
          by_contra hp
          exact hq 0 (Nat.pos_of_ne_zero (Ne.symm hp)) h0
      · simp only [find, h, if_false]
        cases p with
        | zero => simp [At, h]
        | succ p =>
            rw [Option.map_eq_some_iff]
            have hshift : ∀ q, At pat (c :: cs) (q + 1) ↔ At pat cs q := fun q => by simp [At]
            constructor
            · rintro ⟨a, ha, he⟩
              obtain rfl : a = p := by omega
              obtain ⟨hl, hat, hmin⟩ := ih.mp ha
              refine ⟨by simpa using hl, (hshift a).mpr hat, ?_⟩
              intro q hq
              cases q with
              | zero => exact h
              | succ q => exact fun hc => hmin q (by omega) ((hshift q).mp hc)
            · rintro ⟨hl, hat, hmin⟩
              refine ⟨p, ih.mpr ⟨by simpa using hl, (hshift p).mp hat, ?_⟩, rfl⟩
              intro q hq hc
              exact hmin (q + 1) (by omega) ((hshift q).mpr hc)

theorem find_singleton {c : α} {a : List α} (b : List α) (ha : c ∉ a) : find [c] (a ++ c :: b) = some a.length := by
  refine find_eq_some.mpr ⟨by simp, by simp [At], fun q hq hat => ha ?_⟩
  have h0 := hat.getElem? (i := 0) (by simp)
  rw [Nat.add_zero, List.getElem?_append_left hq] at h0
  exact List.mem_of_getElem? h0

theorem find_isSome {pat text : List α} : (find pat text).isSome ↔ pat <:+: text := by
  rw [← not_iff_not, ← find_eq_none]
  simp

theorem rfind_eq_none {pat text : List α} : rfind pat text = none ↔ ¬ pat <:+: text := by
  induction text with
  | nil => by_cases h : pat = [] <;> simp [rfind, h]
  | cons c cs ih =>
      cases hr : rfind pat cs with
      | some p =>
          have hin : pat <:+: cs := by
            by_contra hno
            rw [ih.mpr hno] at hr
            cases hr
          simp [rfind, hr, List.infix_cons hin]
      | none =>
          have hno := ih.mp hr
          by_cases h : pat <+: c :: cs
          · simp [rfind, hr, h, h.isInfix]
          · simp [rfind, hr, h, List.infix_cons_iff, hno]

theorem rfind_eq_some {pat text : List α} (hne : pat ≠ []) {p : Nat} :
    rfind pat text = some p ↔ At pat text p ∧ ∀ q, p < q → ¬ At pat text q := by
  induction text generalizing p with
  | nil => simp [rfind, hne, At]
  | cons c cs ih =>
      have hshift (q : Nat) : At pat (c :: cs) (q + 1) ↔ At pat cs q := by simp [At]
      cases hr : rfind pat cs with
      | some r =>
          obtain ⟨hat, hlast⟩ := ih.mp hr
          simp only [rfind, hr, Option.some.injEq]
          constructor
          · rintro rfl
            refine ⟨(hshift r).mpr hat, fun q hq hq' => ?_⟩
            obtain ⟨q, rfl⟩ := Nat.exists_eq_add_of_lt (Nat.zero_lt_of_lt hq)
            rw [Nat.zero_add] at hq hq'
            exact hlast q (by omega) ((hshift q).mp hq')
          · rintro ⟨hp, hmax⟩
            by_contra hpr
            rcases Nat.lt_or_gt_of_ne hpr with h | h
            · cases p with
              | zero => omega
              | succ p => exact hlast p (by omega) ((hshift p).mp hp)
            · exact hmax (r + 1) h ((hshift r).mpr hat)
      | none =>
          have hno (q : Nat) : ¬ At pat cs q := fun h => rfind_eq_none.mp hr h.isInfix
          simp only [rfind, hr, Option.ite_none_right_eq_some, Option.some.injEq]
          constructor
          · rintro ⟨h, rfl⟩
            refine ⟨h, fun q hq hq' => ?_⟩
            obtain ⟨q, rfl⟩ := Nat.exists_eq_add_of_lt hq
            rw [Nat.zero_add] at hq'
            exact hno q ((hshift q).mp hq')
          · rintro ⟨hp, -⟩
            cases p with
            | zero => exact ⟨hp, rfl⟩
            | succ p => exact absurd ((hshift p).mp hp) (hno p)

/-- The last occurrence of a pattern without the separator. -/
theorem rfind_sep {pat : List α} {sep : α} (hsep : sep ∉ pat) (hne : pat ≠ []) (l r : List α) :
    rfind pat (l ++ sep :: r) = ((rfind pat r).map (l.length + 1 + ·)).or (rfind pat l) := by
  cases hr : rfind pat r with
  | some p =>
      obtain ⟨hat, hlast⟩ := (rfind_eq_some hne).mp hr
      rw [Option.map_some, Option.some_or, rfind_eq_some hne]
      have hsub : l.length + 1 + p - (l.length + 1) = p := by omega
      refine ⟨(at_sep hsep hne l r _).mpr (.inr ⟨by omega, by rwa [hsub]⟩), fun q hq hq' => ?_⟩
      rcases (at_sep hsep hne l r q).mp hq' with ⟨hle, -⟩ | ⟨-, hq'⟩
      · omega
      · exact hlast _ (by omega) hq'
  | none =>
      have hno (q : Nat) : ¬ At pat r q := fun h => rfind_eq_none.mp hr h.isInfix
      rw [Option.map_none, Option.none_or]
      cases hl : rfind pat l with
      | none =>
          rw [rfind_eq_none] at hl hr ⊢
          exact fun h => ((infix_sep hsep hne l r).mp h).elim hl hr
      | some p =>
          obtain ⟨hat, hlast⟩ := (rfind_eq_some hne).mp hl
          rw [rfind_eq_some hne]
          refine ⟨(at_sep hsep hne l r p).mpr (.inl ⟨hat.bound hne, hat⟩), fun q hq hq' => ?_⟩
          rcases (at_sep hsep hne l r q).mp hq' with ⟨-, hq'⟩ | ⟨-, hq'⟩
          · exact hlast q hq hq'
          · exact hno _ hq'

theorem rfind_suffix {pat : List α} (hne : pat ≠ []) (l : List α) : rfind pat (l ++ pat) = some l.length := by
  rw [rfind_eq_some hne]
  refine ⟨by simp [At], fun q hq hat => ?_⟩
  have hb := hat.bound hne
  rw [List.length_append] at hb
  omega

theorem rfind_singleton {c : α} {b : List α} (a : List α) (hb : c ∉ b) : rfind [c] (a ++ c :: b) = some a.length := by
  rw [rfind_eq_some (by simp)]
  refine ⟨by simp [At], fun q hq hat => hb ?_⟩
  have h0 := hat.getElem? (i := 0) (by simp)
  obtain ⟨d, rfl⟩ := Nat.exists_eq_add_of_lt hq
  rw [Nat.add_zero, List.getElem?_append_right (by omega), show a.length + d + 1 - a.length = d + 1 by omega,
    List.getElem?_cons_succ] at h0
  exact List.mem_of_getElem? h0

end JJMCP.Lib.Occurrence
