import JJMCP.EvalCode
import JJMCP.Lib.Split

namespace JJMCP.TmuxFields

open Lib.Occurrence Lib.Split Text

def kTmuxFieldSep : Text := lit "<jjmcp|sep>"

def joinFormat : List Text → Text
  | [] => []
  | field :: fields => fields.foldl (fun fmt field => fmt ++ kTmuxFieldSep ++ field) field

/-- The search loop of split_tmux_fields, from the index start. Each turn moves
it, so the length of the line bounds the turns. -/
def fieldLoop (clean : Text) : Nat → Nat → List Text
  | 0, start => [clean.drop start]
  | turns + 1, start =>
      match find kTmuxFieldSep (clean.drop start) with
      | none => [clean.drop start]
      | some p => (clean.drop start).take p :: fieldLoop clean turns (start + p + kTmuxFieldSep.length)

def splitTmuxFields (line : Text) : List Text :=
  let clean := line.filter fun c => c ≠ cr ∧ c ≠ nl
  fieldLoop clean clean.length 0

def tabLoop (text : Text) : Nat → Nat → Text → Text
  | 0, start, out => out ++ text.drop start
  | turns + 1, start, out =>
      match find kTmuxFieldSep (text.drop start) with
      | none => out ++ text.drop start
      | some p => tabLoop text turns (start + p + kTmuxFieldSep.length) (out ++ (text.drop start).take p ++ [9])

def tabsForSeparators (text : Text) : Text := tabLoop text text.length 0 []

/-- pane_info from what tmux printed. -/
def paneInfo (stdoutText : Text) : Except Text PaneInfo :=
  match splitTmuxFields stdoutText with
  | paneId :: sessionName :: windowIndex :: paneIndex :: currentCommand :: title :: active :: dead :: currentPath ::
      more =>
      if paneId = [] then .error (lit "tmux returned malformed pane info")
      else .ok { paneId, sessionName, windowIndex, paneIndex, currentCommand, title, active, dead, currentPath
                 panePid := more.headD [] }
  | _ => .error (lit "tmux returned malformed pane info")

/-- The fields of the format that pane_info asks for. -/
def paneFields (info : PaneInfo) : List Text :=
  [info.paneId, info.sessionName, info.windowIndex, info.paneIndex, info.currentCommand, info.title, info.active,
    info.dead, info.currentPath, info.panePid]

/-- The separator opens with a symbol that it does not hold again. -/
theorem kTmuxFieldSep_unbordered : Unbordered kTmuxFieldSep := by
  have h : (60 : UInt8) ∉ lit "jjmcp|sep>" := by decide
  exact unbordered_of_head h

theorem kTmuxFieldSep_ne_nil : kTmuxFieldSep ≠ [] := by simp [kTmuxFieldSep, lit]

theorem foldl_intercalate (fields : List Text) (field : Text) :
    fields.foldl (fun fmt field => fmt ++ kTmuxFieldSep ++ field) field = kTmuxFieldSep.intercalate (field :: fields) := by
  induction fields generalizing field with
  | nil => exact List.intercalate_singleton.symm
  | cons f fs ih =>
      rw [List.foldl_cons, ih, List.intercalate_cons_cons]
      cases fs with
      | nil => simp [List.intercalate_singleton]
      | cons g gs => simp [List.intercalate_cons_cons]

theorem joinFormat_eq (fields : List Text) : joinFormat fields = kTmuxFieldSep.intercalate fields := by
  cases fields with
  | nil => rfl
  | cons field fields => exact foldl_intercalate fields field

theorem fieldLoop_eq (clean : Text) (turns start : Nat) :
    fieldLoop clean turns start = split kTmuxFieldSep turns (clean.drop start) := by
  induction turns generalizing start with
  | zero => rfl
  | succ turns ih =>
      rw [fieldLoop, split]
      cases find kTmuxFieldSep (clean.drop start) with
      | none => rfl
      | some p => simp only [ih, List.drop_drop, Nat.add_assoc]

theorem tabLoop_eq (text : Text) (turns start : Nat) (out : Text) :
    tabLoop text turns start out = out ++ [9].intercalate (split kTmuxFieldSep turns (text.drop start)) := by
  induction turns generalizing start out with
  | zero => rw [tabLoop, split, List.intercalate_singleton]
  | succ turns ih =>
      rw [tabLoop, split]
      cases find kTmuxFieldSep (text.drop start) with
      | none => simp only [List.intercalate_singleton]
      | some p =>
          have hne := split_ne_nil kTmuxFieldSep turns (text.drop (start + p + kTmuxFieldSep.length))
          simp only [ih, List.drop_drop, ← Nat.add_assoc, List.intercalate_cons_of_ne_nil hne, List.append_assoc]

theorem tabsForSeparators_eq (text : Text) :
    tabsForSeparators text = [9].intercalate (split kTmuxFieldSep text.length text) :=
  tabLoop_eq text text.length 0 []

/-- For every line the fields hold no separator and are the line, its ends dropped. -/
theorem splitTmuxFields_spec (line : Text) :
    kTmuxFieldSep.intercalate (splitTmuxFields line) = line.filter (fun c => c ≠ cr ∧ c ≠ nl) ∧
      ∀ f ∈ splitTmuxFields line, ¬ kTmuxFieldSep <:+: f := by
  rw [splitTmuxFields, fieldLoop_eq]
  exact ⟨intercalate_split, split_free kTmuxFieldSep_ne_nil (Nat.le_refl _)⟩

theorem length_le_intercalate (vs : List Text) : vs.length ≤ (kTmuxFieldSep.intercalate vs).length + 1 := by
  induction vs with
  | nil => simp
  | cons v vs ih =>
      cases vs with
      | nil => simp
      | cons w ws =>
          have hpos : 0 < kTmuxFieldSep.length := List.length_pos_iff.mpr kTmuxFieldSep_ne_nil
          rw [List.intercalate_cons_cons]
          simp only [List.length_append, List.length_cons] at ih ⊢
          omega

theorem mem_intercalate_end {vs : List Text} (hv : ∀ v ∈ vs, cr ∉ v ∧ nl ∉ v) :
    ∀ c ∈ kTmuxFieldSep.intercalate vs, c ≠ cr ∧ c ≠ nl := by
  induction vs with
  | nil => simp
  | cons v vs ih =>
      have hfirst : ∀ c ∈ v, c ≠ cr ∧ c ≠ nl := by
        intro c hc
        obtain ⟨hcr, hnl⟩ := hv v (by simp)
        exact ⟨fun he => hcr (he ▸ hc), fun he => hnl (he ▸ hc)⟩
      cases vs with
      | nil => rwa [List.intercalate_singleton]
      | cons w ws =>
          have hsep : ∀ c ∈ kTmuxFieldSep, c ≠ cr ∧ c ≠ nl := by decide +kernel
          have hrest := ih fun x hx => hv x (by simp [hx])
          rw [List.intercalate_cons_cons]
          simp only [List.mem_append]
          rintro c ((hc | hc) | hc)
          · exact hfirst c hc
          · exact hsep c hc
          · exact hrest c hc

theorem splitTmuxFields_join {vs : List Text} (hne : vs ≠ []) (hsep : ∀ v ∈ vs, ¬ kTmuxFieldSep <:+: v)
    (hend : ∀ v ∈ vs, cr ∉ v ∧ nl ∉ v) {lineEnd : Text} (he : ∀ c ∈ lineEnd, c = cr ∨ c = nl) :
    splitTmuxFields (kTmuxFieldSep.intercalate vs ++ lineEnd) = vs := by
  have hclean : (kTmuxFieldSep.intercalate vs ++ lineEnd).filter (fun c => c ≠ cr ∧ c ≠ nl) =
      kTmuxFieldSep.intercalate vs := by
    have hkeep := mem_intercalate_end hend
    have hdrop : lineEnd.filter (fun c => c ≠ cr ∧ c ≠ nl) = [] := by
      rw [List.filter_eq_nil_iff]
      intro c hc
      rcases he c hc with rfl | rfl <;> simp
    rw [List.filter_append, hdrop, List.append_nil, List.filter_eq_self]
    simpa using hkeep
  rw [splitTmuxFields, hclean, fieldLoop_eq, List.drop_zero]
  exact split_intercalate kTmuxFieldSep_unbordered hne hsep (length_le_intercalate vs)

/-- Values that hold no separator and no line end are given back by the split of
their line, and shown with tabs between them. -/
theorem tmux_fields_round_trip {vs : List Text} (hne : vs ≠ []) (hsep : ∀ v ∈ vs, ¬ kTmuxFieldSep <:+: v)
    (hend : ∀ v ∈ vs, cr ∉ v ∧ nl ∉ v) {lineEnd : Text} (he : ∀ c ∈ lineEnd, c = cr ∨ c = nl) :
    splitTmuxFields (joinFormat vs ++ lineEnd) = vs ∧ tabsForSeparators (joinFormat vs) = [9].intercalate vs := by
  rw [joinFormat_eq]
  refine ⟨splitTmuxFields_join hne hsep hend he, ?_⟩
  rw [tabsForSeparators_eq, split_intercalate kTmuxFieldSep_unbordered hne hsep (length_le_intercalate vs)]

/-- The fields open and close with parts of the separator. -/
theorem tmux_fields_round_trip_fragments :
    splitTmuxFields (joinFormat [lit "<jjmcp|sep", [], lit "sep>", lit "<"] ++ lit "\r\n") =
        [lit "<jjmcp|sep", [], lit "sep>", lit "<"] ∧
      tabsForSeparators (joinFormat [lit "<jjmcp|sep", [], lit "sep>", lit "<"]) =
        [9].intercalate [lit "<jjmcp|sep", [], lit "sep>", lit "<"] :=
  tmux_fields_round_trip (by decide) (by decide) (by decide) (by decide +kernel)

/-- What tmux prints for a pane is read back field by field. -/
theorem paneInfo_join {info : PaneInfo} {lineEnd : Text} (hid : info.paneId ≠ [])
    (hsep : ∀ v ∈ paneFields info, ¬ kTmuxFieldSep <:+: v) (hend : ∀ v ∈ paneFields info, cr ∉ v ∧ nl ∉ v)
    (he : ∀ c ∈ lineEnd, c = cr ∨ c = nl) : paneInfo (joinFormat (paneFields info) ++ lineEnd) = .ok info := by
  have hne : paneFields info ≠ [] := List.cons_ne_nil _ _
  rw [paneInfo, joinFormat_eq, splitTmuxFields_join hne hsep hend he]
  simp [paneFields, hid]

end JJMCP.TmuxFields
