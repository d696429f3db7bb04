import JJMCP.Emission
import JJMCP.RuntimeInstall
import JJMCP.TestSummary

namespace JJMCP

open Text TestSummary

/-- A field of a stat line after the process name. -/
structure StatField where
  text : Text
  nonempty : text ≠ []
  solid : ∀ c ∈ text, isSpace c = false ∧ c ≠ 41

/-- What /proc tells of a process, its pid aside: the name may be any text of
one line, and the fields stand after its closing parenthesis. -/
structure Stat where
  name : Text
  fields : List StatField
  more : Text := []
  oneLine : nl ∉ name
  six : 6 ≤ fields.length
  ended : more = [] ∨ more.head? = some nl

end JJMCP

namespace JJMCP.ForegroundGeneration

open Lib.Occurrence Lib.Words Text TestSummary Emission

def statPath (panePid : Text) : Text := lit "/proc/" ++ panePid ++ lit "/stat"

/-- The six extractions from the stream leave its sixth word. -/
def paneForegroundGeneration (files : Text → Option Text) (panePid : Text) : Text :=
  if panePid = [] ∨ panePid.any (fun c => !isDigit c) then []
  else
    match files (statPath panePid) with
    | none => []
    | some content =>
        let line := content.takeWhile (· ≠ nl)
        match rfind (lit ")") line with
        | none => []
        | some commEnd =>
            match (words isSpace (line.drop (commEnd + 1)))[5]? with
            | none => []
            | some field => if field = [] ∨ field = lit "-1" then [] else panePid ++ lit ":" ++ field

def fieldsText (fields : List StatField) : Text := [32].intercalate (fields.map StatField.text)

/-- The first line of the file. -/
def statLine (panePid : Text) (s : Stat) : Text :=
  panePid ++ lit " (" ++ s.name ++ lit ") " ++ fieldsText s.fields

def content (panePid : Text) (s : Stat) : Text := statLine panePid s ++ s.more

/-- The sixth field: the foreground process group of the terminal. -/
def group (s : Stat) : Text := (s.fields.get ⟨5, s.six⟩).text

theorem words_fieldsText (fields : List StatField) :
    words isSpace (32 :: fieldsText fields) = fields.map StatField.text := by
  rw [words_cons_sep _ (by decide), fieldsText, words_intercalate (by decide)]
  intro w hw
  obtain ⟨f, _, rfl⟩ := List.mem_map.mp hw
  exact ⟨f.nonempty, fun c hc => (f.solid c hc).1⟩

/-- No field holds what the parse looks for before it. -/
theorem mem_fieldsText {fields : List StatField} {c : UInt8} (h : c ∈ fieldsText fields) :
    c = 32 ∨ isSpace c = false ∧ c ≠ 41 := by
  induction fields with
  | nil => exact absurd h List.not_mem_nil
  | cons f fs ih =>
      cases fs with
      | nil => exact .inr (f.solid c (by simpa [fieldsText, List.intercalate_singleton] using h))
      | cons g gs =>
          simp only [fieldsText, List.map_cons, List.intercalate_cons_cons, List.mem_append, List.mem_singleton] at h
          rcases h with (h | h) | h
          · exact .inr (f.solid c h)
          · exact .inl h
          · exact ih (by simpa [fieldsText] using h)

theorem statLine_oneLine {panePid : Text} (hpid : Digits panePid) (s : Stat) : nl ∉ statLine panePid s := by
  have hopen : nl ∉ lit " (" := by decide
  have hclose : nl ∉ lit ") " := by decide
  have hfields : nl ∉ fieldsText s.fields := by
    intro h
    rcases mem_fieldsText h with h | h
    · exact absurd h (by decide)
    · exact absurd h.1 (by decide)
  simp only [statLine, List.mem_append, not_or]
  exact ⟨⟨⟨⟨digits_notMem hpid (by decide), hopen⟩, s.oneLine⟩, hclose⟩, hfields⟩

theorem takeWhile_line {line more : Text} (hline : nl ∉ line) (hmore : more = [] ∨ more.head? = some nl) :
    (line ++ more).takeWhile (· ≠ nl) = line := by
  have hpos : ∀ c ∈ line, decide (c ≠ nl) = true := by
    intro c hc
    simpa using fun he : c = nl => hline (he ▸ hc)
  rw [List.takeWhile_append_of_pos hpos]
  rcases hmore with rfl | hmore
  · simp
  · cases more with
    | nil => simp
    | cons c cs =>
        have hc : c = nl := by simpa using hmore
        simp [hc]

/-- The line up to the end of the name, and what stands after it. -/
theorem statLine_split (panePid : Text) (s : Stat) :
    statLine panePid s = (panePid ++ lit " (" ++ s.name) ++ 41 :: 32 :: fieldsText s.fields := by
  have hclose : lit ") " = [41, 32] := by decide
  rw [statLine, hclose, List.append_assoc _ [41, 32]]
  rfl

/-- The last parenthesis of the line closes the name, whatever the name holds. -/
theorem rfind_statLine (panePid : Text) (s : Stat) :
    rfind (lit ")") (statLine panePid s) = some (panePid ++ lit " (" ++ s.name).length := by
  have hafter : (41 : UInt8) ∉ 32 :: fieldsText s.fields := by
    intro h
    rcases List.mem_cons.mp h with h | h
    · exact absurd h (by decide)
    · rcases mem_fieldsText h with h | h
      · exact absurd h (by decide)
      · exact h.2 rfl
  rw [statLine_split, show lit ")" = [41] from rfl, rfind_singleton _ hafter]

theorem drop_statLine (panePid : Text) (s : Stat) :
    (statLine panePid s).drop ((panePid ++ lit " (" ++ s.name).length + 1) = 32 :: fieldsText s.fields := by
  rw [statLine_split, ← List.drop_drop, List.drop_left]
  rfl

theorem paneForegroundGeneration_stat {panePid : Text} (hpid : Digits panePid) {s : Stat} {files : Text → Option Text}
    (hs : files (statPath panePid) = some (content panePid s)) :
    paneForegroundGeneration files panePid = if group s = lit "-1" then [] else panePid ++ lit ":" ++ group s := by
  have hdigits : ¬ (panePid = [] ∨ panePid.any (fun c => !isDigit c) = true) := by
    rintro (h | h)
    · exact hpid.1 h
    · obtain ⟨c, hc, hn⟩ := List.any_eq_true.mp h
      have hd := hpid.2 c hc
      simp [isDigit, hd] at hn
  have hline : (content panePid s).takeWhile (· ≠ nl) = statLine panePid s :=
    takeWhile_line (statLine_oneLine hpid s) s.ended
  have hsixth : (words isSpace (32 :: fieldsText s.fields))[5]? = some (group s) := by
    have hsix := s.six
    rw [words_fieldsText, List.getElem?_map, List.getElem?_eq_getElem (by omega)]
    rfl
  have hne : group s ≠ [] := (s.fields.get ⟨5, s.six⟩).nonempty
  rw [paneForegroundGeneration, if_neg hdigits, hs]
  dsimp only
  rw [hline, rfind_statLine]
  dsimp only
  rw [drop_statLine, hsixth]
  simp [hne]

/-- The token of a process is its pid and its terminal's foreground group,
whatever the process is called, and tells two groups apart. -/
theorem foreground_generation {panePid : Text} (hpid : Digits panePid) {s t : Stat} {files files' : Text → Option Text}
    (hs : files (statPath panePid) = some (content panePid s))
    (ht : files' (statPath panePid) = some (content panePid t)) :
    (paneForegroundGeneration files panePid = if group s = lit "-1" then [] else panePid ++ lit ":" ++ group s) ∧
      (paneForegroundGeneration files panePid = [] ↔ group s = lit "-1") ∧
      (group s ≠ lit "-1" → group t ≠ lit "-1" →
        (paneForegroundGeneration files panePid = paneForegroundGeneration files' panePid ↔ group s = group t)) := by
  rw [paneForegroundGeneration_stat hpid hs, paneForegroundGeneration_stat hpid ht]
  refine ⟨rfl, ?_, ?_⟩
  · constructor
    · intro h
      by_contra hg
      rw [if_neg hg] at h
      exact absurd h (by simp [hpid.1])
    · intro hg
      rw [if_pos hg]
  · intro hg hg'
    rw [if_neg hg, if_neg hg']
    exact List.append_right_inj _

/-- A process that imitates the rest of its own line. -/
def imitation : Stat where
  name := lit "a) R 1 2 3 4 5 ("
  fields := [⟨lit "S", by decide, by decide +kernel⟩, ⟨lit "1", by decide, by decide +kernel⟩,
    ⟨lit "2", by decide, by decide +kernel⟩, ⟨lit "3", by decide, by decide +kernel⟩,
    ⟨lit "4", by decide, by decide +kernel⟩, ⟨lit "77", by decide, by decide +kernel⟩,
    ⟨lit "0", by decide, by decide +kernel⟩]
  more := [nl]
  oneLine := by decide
  six := by decide
  ended := .inr rfl

theorem foreground_generation_imitation :
    paneForegroundGeneration (fun _ => some (content (lit "41") imitation)) (lit "41") = lit "41:77" := by
  let files : Text → Option Text := fun _ => some (content (lit "41") imitation)
  have hread : files (statPath (lit "41")) = some (content (lit "41") imitation) := rfl
  exact (foreground_generation (by decide) hread hread).1.trans (by decide)

/-- The token of a process whose terminal has a foreground group. -/
theorem paneForegroundGeneration_group {panePid tpgid : Nat} {s : Stat} {files : Text → Option Text}
    (hs : files (statPath (decimal panePid)) = some (content (decimal panePid) s)) (hg : group s = decimal tpgid) :
    paneForegroundGeneration files (decimal panePid) = RuntimeInstall.generation panePid tpgid := by
  have hdigits : Digits (decimal panePid) := digits_decimal panePid
  have hminus : decimal tpgid ≠ lit "-1" := by
    intro h
    have hc : (45 : UInt8) ∈ decimal tpgid := by
      rw [h]
      decide
    exact absurd (decimal_digit hc) (by decide)
  rw [paneForegroundGeneration_stat hdigits hs, hg, if_neg hminus, RuntimeInstall.generation]

end JJMCP.ForegroundGeneration
