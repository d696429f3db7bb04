import Mathlib.Data.List.Basic

namespace JJMCP.Lib.Words

variable {α : Type} (sep : α → Bool)

def wordsFrom (word : List α) : List α → List (List α)
  | [] => if word.isEmpty then [] else [word]
  | c :: cs =>
      if sep c then (if word.isEmpty then wordsFrom [] cs else word :: wordsFrom [] cs)
      else wordsFrom (word ++ [c]) cs

/-- The maximal parts without a separator. -/
def words (text : List α) : List (List α) := wordsFrom sep [] text

variable {sep}

@[simp] theorem words_nil : words sep ([] : List α) = [] := rfl

theorem wordsFrom_sep (word a b : List α) {c : α} (hc : sep c = true) :
    wordsFrom sep word (a ++ c :: b) = wordsFrom sep word a ++ words sep b := by
  induction a generalizing word with
  | nil =>
      cases word with
      | nil => simp [wordsFrom, words, hc]
      | cons x xs => simp [wordsFrom, words, hc]
  | cons d ds ih =>
      by_cases hd : sep d = true
      · cases word with
        | nil => simp [wordsFrom, hd, ih]
        | cons x xs => simp [wordsFrom, hd, ih]
      · simp [wordsFrom, hd, ih]

theorem words_sep (a b : List α) {c : α} (hc : sep c = true) :
    words sep (a ++ c :: b) = words sep a ++ words sep b :=
  wordsFrom_sep [] a b hc

theorem words_cons_sep (b : List α) {c : α} (hc : sep c = true) : words sep (c :: b) = words sep b := by
  simpa using words_sep [] b hc

theorem words_seps {a : List α} (b : List α) (ha : ∀ c ∈ a, sep c = true) :
    words sep (a ++ b) = words sep b := by
  induction a with
  | nil => rfl
  | cons c cs ih =>
      rw [List.cons_append, words_cons_sep _ (ha c (by simp)), ih fun d hd => ha d (by simp [hd])]

theorem words_append_seps (a : List α) {b : List α} (hb : ∀ c ∈ b, sep c = true) :
    words sep (a ++ b) = words sep a := by
  cases b with
  | nil => simp
  | cons c cs =>
      have hcs : words sep (cs ++ []) = words sep [] := words_seps [] fun d hd => hb d (by simp [hd])
      rw [words_sep a cs (hb c (by simp)), ← List.append_nil cs, hcs, words_nil, List.append_nil]

theorem wordsFrom_solid (word : List α) {t : List α} (ht : ∀ c ∈ t, sep c = false) (hne : word ++ t ≠ []) :
    wordsFrom sep word t = [word ++ t] := by
  induction t generalizing word with
  | nil =>
      cases word with
      | nil => simp at hne
      | cons x xs => simp [wordsFrom]
  | cons c cs ih =>
      have hc := ht c (by simp)
      rw [wordsFrom, hc, if_neg (by decide), ih (word ++ [c]) (fun d hd => ht d (by simp [hd])) (by simp)]
      simp

theorem words_solid {t : List α} (ht : ∀ c ∈ t, sep c = false) (hne : t ≠ []) : words sep t = [t] :=
  wordsFrom_solid [] ht (by simpa using hne)

theorem words_intercalate {c : α} (hc : sep c = true) {ws : List (List α)}
    (hw : ∀ w ∈ ws, w ≠ [] ∧ ∀ x ∈ w, sep x = false) : words sep ([c].intercalate ws) = ws := by
  induction ws with
  | nil => rfl
  | cons w ws ih =>
      obtain ⟨hne, hsolid⟩ := hw w (by simp)
      have hrest := ih fun x hx => hw x (by simp [hx])
      cases ws with
      | nil => rw [List.intercalate_singleton, words_solid hsolid hne]
      | cons v vs =>
          rw [List.intercalate_cons_cons, List.append_assoc, List.singleton_append, words_sep _ _ hc,
            words_solid hsolid hne, hrest, List.singleton_append]

end JJMCP.Lib.Words
