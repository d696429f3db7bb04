import JJMCP.Tools
import JJMCP.Lib.Overwrite
import JJMCP.Lib.Runs
import Mathlib.Data.Fintype.Basic

namespace JJMCP

/-- The JSON library on a stream: >> takes the first value and leaves what comes
after it, and dump(2) prints in several lines. -/
structure ConfigJson where
  read : Text → Except Text Json
  dump : Json → Text

/-- What save_config of a server has still to do. -/
inductive SavePhase
  | idle
  | pending
  | writing (offset : Nat) (rest : Text)
  deriving DecidableEq

def SavePhase.isWriting : SavePhase → Bool
  | .writing _ _ => true
  | _ => false

def SavePhase.unwritten : SavePhase → Text
  | .writing _ rest => rest
  | _ => []

structure ConfigServer where
  cwd : Path
  state : ServerState
  save : SavePhase := .idle

/-- The config files and the servers of one machine. The binds made so far and the
saves that came to their end are recorded with the file they go to. -/
structure ConfigStore (I F : Type) where
  files : F → Option Text
  server : I → Option ConfigServer := fun _ => none
  made : List (F × Binding) := []
  saved : List (F × Binding) := []

inductive ConfigAction (I : Type)
  | start (i : I) (cwd : Path) (readable : Bool) (panes : Text → Except Text PaneInfo)
  | stop (i : I)
  | bind (i : I) (target projectRoot boundAt : Text) (info : PaneInfo)
  | openFile (i : I) (opened : Bool)
  | write (i : I) (n : Nat)

end JJMCP

namespace JJMCP.ConfigStore

open Text Config EvalCode Lib.Overwrite Lib.Runs

def document (b : Binding) : Json :=
  .obj [(lit "binding", .obj [(lit "bound_at", .str b.boundAt), (lit "pane_id", .str b.paneId),
    (lit "project_root", .str b.projectRoot), (lit "target", .str b.target)])]

def configText (lib : ConfigJson) (b : Binding) : Text := lib.dump (document b) ++ [nl]

def bindingOf (b : Json) : Except Text Binding := do
  let target ← b.value Json.readString (lit "target") []
  let paneId ← b.value Json.readString (lit "pane_id") []
  let projectRoot ← b.value Json.readString (lit "project_root") []
  let boundAt ← b.value Json.readString (lit "bound_at") []
  return { target, paneId, projectRoot, boundAt }

/-- The binding of a config file that could be opened. -/
def readBinding (lib : ConfigJson) (content : Text) : Except Text (Option Binding) :=
  let parsed : Except Text (Option Binding) := do
    let doc ← lib.read content
    match doc.get? (lit "binding") with
    | some (.obj fields) => return some (← bindingOf (.obj fields))
    | _ => return none
  parsed.mapError (lit "could not parse config file: " ++ ·)

def loadConfigFile (lib : ConfigJson) (s : ServerState) (content : Option Text) (readable : Bool) :
    ServerState × Except Text Unit :=
  match content with
  | none => (s, .ok ())
  | some content =>
      if readable then
        match readBinding lib content with
        | .error e => (s, .error e)
        | .ok stored => (loadConfig s stored, .ok ())
      else (s, .error (lit "could not open config file: " ++ Tools.pathString s.configPath))

def clearStale (panes : Text → Except Text PaneInfo) (s : ServerState) : ServerState :=
  match s.binding with
  | none => s
  | some b =>
      match panes (boundTarget b) with
      | .ok info => if PaneInfo.alive info then s else { s with binding := none }
      | .error _ => { s with binding := none }

/-- serve before its loop: what the config file of the working directory holds,
unless its pane is gone. -/
def serveStart (lib : ConfigJson) (cwd : Path) (content : Option Text) (readable : Bool)
    (panes : Text → Except Text PaneInfo) : ServerState :=
  clearStale panes (loadConfigFile lib { configPath := defaultConfigPath cwd } content readable).1

def bound (target projectRoot boundAt : Text) (info : PaneInfo) : Binding :=
  { target, paneId := info.paneId, projectRoot, boundAt }

variable {I F : Type} [DecidableEq I] [DecidableEq F] (lib : ConfigJson) (file : Path → F)

def setServer (s : ConfigStore I F) (i : I) (sv : Option ConfigServer) : ConfigStore I F :=
  { s with server := Function.update s.server i sv }

def setFile (s : ConfigStore I F) (f : F) (content : Text) : ConfigStore I F :=
  { s with files := Function.update s.files f (some content) }

/-- save_config follows set_binding in the same call, so the next bind finds it
done; opening the file empties it, and its text gets there in one write or more. A
write that fails (a full disk) is not one of the steps. -/
def step (s : ConfigStore I F) : ConfigAction I → Option (ConfigStore I F)
  | .start i cwd readable panes =>
      match s.server i with
      | none => some (setServer s i (some
          { cwd, state := serveStart lib cwd (s.files (file (defaultConfigPath cwd))) readable panes }))
      | some _ => none
  | .stop i => some (setServer s i none)
  | .bind i target projectRoot boundAt info =>
      match s.server i with
      | some sv =>
          if sv.save = .idle ∧ PaneInfo.alive info then
            let b := bound target projectRoot boundAt info
            let state := setBinding sv.state b (configBaseFromProject sv.cwd projectRoot)
            some { setServer s i (some { sv with state, save := .pending }) with
              made := s.made ++ [(file state.configPath, b)] }
          else none
      | none => none
  | .openFile i opened =>
      match s.server i with
      | some sv =>
          match sv.save, sv.state.binding with
          | .pending, some b =>
              if opened then
                some (setFile (setServer s i (some { sv with save := .writing 0 (configText lib b) }))
                  (file sv.state.configPath) [])
              else some (setServer s i (some { sv with save := .idle }))
          | _, _ => none
      | none => none
  | .write i n =>
      match s.server i with
      | some sv =>
          match sv.save, sv.state.binding with
          | .writing offset rest, some b =>
              let f := file sv.state.configPath
              let t := setFile s f (overwrite 0 ((s.files f).getD []) offset (rest.take n))
              if rest.length ≤ n then
                some { setServer t i (some { sv with save := .idle }) with saved := s.saved ++ [(f, b)] }
              else some (setServer t i (some { sv with save := .writing (offset + n) (rest.drop n) }))
          | _, _ => none
      | none => none

def init (files : F → Option Text) : ConfigStore I F := { files }

/-- The document of every save fits into the buffer of its stream, so one write takes it. -/
def WritesWhole (s : ConfigStore I F) : ConfigAction I → Prop
  | .write i n => ∀ sv, s.server i = some sv → sv.save.unwritten.length ≤ n
  | _ => True

instance (s : ConfigStore I F) : (a : ConfigAction I) → Decidable (WritesWhole s a)
  | .write i n => decidable_of_iff ((s.server i).all (fun sv => sv.save.unwritten.length ≤ n) = true) (by
      simp only [Option.all_eq_true, decide_eq_true_eq, WritesWhole])
  | .start _ _ _ _ | .stop _ | .bind _ _ _ _ _ | .openFile _ _ => isTrue trivial

/-- The server is in the middle of writing this file. -/
def Writing (s : ConfigStore I F) (i : I) (f : F) : Prop :=
  ∃ sv, s.server i = some sv ∧ sv.save.isWriting = true ∧ file sv.state.configPath = f

instance (s : ConfigStore I F) (i : I) (f : F) : Decidable (Writing file s i f) :=
  decidable_of_iff ((s.server i).any (fun sv => sv.save.isWriting = true ∧ file sv.state.configPath = f) = true) (by
    simp only [Option.any_eq_true, decide_eq_true_eq, Writing])

/-- No server opens a file that another one writes, and none stops while it writes. -/
def TakesTurns (s : ConfigStore I F) : ConfigAction I → Prop
  | .openFile i _ => ∀ sv, s.server i = some sv → ∀ j, ¬ Writing file s j (file sv.state.configPath)
  | .stop i => ∀ sv, s.server i = some sv → sv.save.isWriting = false
  | _ => True

instance [Fintype I] (s : ConfigStore I F) : (a : ConfigAction I) → Decidable (TakesTurns file s a)
  | .openFile i _ =>
      decidable_of_iff ((s.server i).all (fun sv => ∀ j, ¬ Writing file s j (file sv.state.configPath)) = true) (by
        simp only [Option.all_eq_true, decide_eq_true_eq, TakesTurns])
  | .stop i => decidable_of_iff ((s.server i).all (fun sv => sv.save.isWriting = false) = true) (by
      simp only [Option.all_eq_true, decide_eq_true_eq, TakesTurns])
  | .start _ _ _ _ | .bind _ _ _ _ _ | .write _ _ => isTrue trivial

theorem bind_server {cwd : Path} {a : CallAnswers} {args : Json} {d : Dispatcher} {target : Text} {info : PaneInfo}
    (htarget : args.requireString "target" = .ok target) (hinfo : a.paneInfo = .ok info)
    (halive : PaneInfo.alive info = true) :
    (Tools.bind cwd a args d).1.session.server =
      setBinding d.session.server (bound target (args.optionalString "project_root" []) a.timestamp info)
        (configBaseFromProject cwd (args.optionalString "project_root" [])) := by
  simp only [Tools.bind, htarget, hinfo, halive, if_true]
  rfl

section Documents

theorem bindingOf_document (b : Binding) : bindingOf (.obj [(lit "bound_at", .str b.boundAt),
    (lit "pane_id", .str b.paneId), (lit "project_root", .str b.projectRoot), (lit "target", .str b.target)]) = .ok b :=
  rfl

theorem readBinding_document {lib : ConfigJson} {content : Text} {b : Binding}
    (h : lib.read content = .ok (document b)) : readBinding lib content = .ok (some b) := by
  have hget : (document b).get? (lit "binding") = some (.obj [(lit "bound_at", .str b.boundAt),
      (lit "pane_id", .str b.paneId), (lit "project_root", .str b.projectRoot), (lit "target", .str b.target)]) := rfl
  simp only [readBinding, h, bind, Except.bind, hget, bindingOf_document, pure, Except.pure, Except.mapError]

theorem readBinding_error {lib : ConfigJson} {content e : Text} (h : lib.read content = .error e) (b : Binding) :
    readBinding lib content ≠ .ok (some b) := by
  simp [readBinding, h, bind, Except.bind, Except.mapError]

def reportedAlive (panes : Text → Except Text PaneInfo) (b : Binding) : Bool :=
  match panes (boundTarget b) with
  | .ok info => PaneInfo.alive info
  | .error _ => false

theorem clearStale_binding (panes : Text → Except Text PaneInfo) (s : ServerState) :
    (clearStale panes s).binding = s.binding.filter (reportedAlive panes) := by
  rcases hs : s.binding with _ | b
  · simp [clearStale, hs]
  · rw [Option.filter_some, reportedAlive]
    rcases hp : panes (boundTarget b) with e | info
    · simp [clearStale, hs, hp]
    · cases ha : PaneInfo.alive info
      · simp [clearStale, hs, hp, ha]
      · simp [clearStale, hs, hp, ha]

theorem clearStale_path (panes : Text → Except Text PaneInfo) (s : ServerState) :
    (clearStale panes s).configPath = s.configPath := by
  unfold clearStale
  split
  · rfl
  · split
    · split <;> rfl
    · rfl

theorem loadConfig_path (s : ServerState) (stored : Option Binding) : (loadConfig s stored).configPath = s.configPath := by
  unfold loadConfig
  split
  · split <;> rfl
  · rfl

variable {lib} {s : ServerState} {content : Option Text} {readable : Bool}

theorem loadConfigFile_path : (loadConfigFile lib s content readable).1.configPath = s.configPath := by
  unfold loadConfigFile
  split
  · rfl
  · split
    · split
      · rfl
      · exact loadConfig_path _ _
    · rfl

theorem loadConfigFile_binding {b : Binding} (h : (loadConfigFile lib s content readable).1.binding = some b) :
    s.binding = some b ∨ ∃ c, content = some c ∧ readBinding lib c = .ok (some b) := by
  unfold loadConfigFile at h
  split at h
  · exact .inl h
  next c =>
    split at h
    · split at h
      · exact .inl h
      next stored hread =>
        rcases stored with _ | b'
        · exact .inl h
        · rw [loadConfig] at h
          split at h
          · exact .inl h
          · exact .inr ⟨c, rfl, hread.trans (congrArg Except.ok h)⟩
    · exact .inl h

theorem serveStart_path (cwd : Path) (panes : Text → Except Text PaneInfo) :
    (serveStart lib cwd content readable panes).configPath = defaultConfigPath cwd :=
  (clearStale_path _ _).trans loadConfigFile_path

/-- A server starts with a binding only where its file holds it. -/
theorem serveStart_binding {cwd : Path} {panes : Text → Except Text PaneInfo} {b : Binding}
    (h : (serveStart lib cwd content readable panes).binding = some b) :
    ∃ c, content = some c ∧ readBinding lib c = .ok (some b) := by
  rw [serveStart, clearStale_binding] at h
  exact (loadConfigFile_binding (Option.eq_some_of_filter_eq_some h)).resolve_left (by simp)

theorem serveStart_document {cwd : Path} {panes : Text → Except Text PaneInfo} {c : Text} {b : Binding}
    (hread : lib.read c = .ok (document b)) (hpane : b.paneId ≠ []) :
    (serveStart lib cwd (some c) true panes).binding = if reportedAlive panes b then some b else none := by
  rw [serveStart, clearStale_binding]
  simp only [loadConfigFile, if_true, readBinding_document hread, loadConfig, if_neg hpane, Option.filter_some]

end Documents

section Steps

variable {lib file} {s t : ConfigStore I F} {i : I}

theorem step_start {cwd : Path} {readable : Bool} {panes : Text → Except Text PaneInfo}
    (h : step lib file s (.start i cwd readable panes) = some t) :
    s.server i = none ∧ t = setServer s i (some
      { cwd, state := serveStart lib cwd (s.files (file (defaultConfigPath cwd))) readable panes }) := by
  simp only [step] at h
  split at h
  next hi => exact ⟨hi, (Option.some.inj h).symm⟩
  · cases h

theorem step_bind {target projectRoot boundAt : Text} {info : PaneInfo}
    (h : step lib file s (.bind i target projectRoot boundAt info) = some t) :
    ∃ sv, s.server i = some sv ∧ sv.save = .idle ∧ PaneInfo.alive info = true ∧
      ∃ b state, b = bound target projectRoot boundAt info ∧ state.binding = some b ∧
        t = { setServer s i (some { sv with state, save := .pending }) with
          made := s.made ++ [(file state.configPath, b)] } := by
  simp only [step] at h
  split at h
  next sv hi =>
    split at h
    next hc => exact ⟨sv, hi, hc.1, hc.2, _, _, rfl, rfl, (Option.some.inj h).symm⟩
    · cases h
  · cases h

theorem step_openFile {opened : Bool} (h : step lib file s (.openFile i opened) = some t) :
    ∃ sv b, s.server i = some sv ∧ sv.save = .pending ∧ sv.state.binding = some b ∧
      ((opened = true ∧ t = setFile (setServer s i (some { sv with save := .writing 0 (configText lib b) }))
          (file sv.state.configPath) []) ∨
        (opened = false ∧ t = setServer s i (some { sv with save := .idle }))) := by
  simp only [step] at h
  split at h
  next sv hi =>
    split at h
    next b hsave hb =>
      refine ⟨sv, b, hi, hsave, hb, ?_⟩
      cases opened with
      | true => exact .inl ⟨rfl, (Option.some.inj h).symm⟩
      | false => exact .inr ⟨rfl, (Option.some.inj h).symm⟩
    · cases h
  · cases h

theorem step_write {n : Nat} (h : step lib file s (.write i n) = some t) :
    ∃ sv b offset rest, s.server i = some sv ∧ sv.save = .writing offset rest ∧ sv.state.binding = some b ∧
      ∃ u, u = setFile s (file sv.state.configPath)
          (overwrite 0 ((s.files (file sv.state.configPath)).getD []) offset (rest.take n)) ∧
        ((rest.length ≤ n ∧ t = { setServer u i (some { sv with save := .idle }) with
            saved := s.saved ++ [(file sv.state.configPath, b)] }) ∨
          (n < rest.length ∧ t = setServer u i (some { sv with save := .writing (offset + n) (rest.drop n) }))) := by
  simp only [step] at h
  split at h
  next sv hi =>
    split at h
    next offset rest b hsave hb =>
      refine ⟨sv, b, offset, rest, hi, hsave, hb, _, rfl, ?_⟩
      split at h
      next hn => exact .inl ⟨hn, (Option.some.inj h).symm⟩
      next hn => exact .inr ⟨not_le.mp hn, (Option.some.inj h).symm⟩
    · cases h
  · cases h

omit [DecidableEq F] in
theorem setServer_server {sv : Option ConfigServer} {P : I → ConfigServer → Prop}
    (hs : ∀ j u, s.server j = some u → P j u) (hi : ∀ u, sv = some u → P i u) :
    ∀ j u, (setServer s i sv).server j = some u → P j u := by
  intro j u hj
  simp only [setServer, Function.update_apply] at hj
  split at hj
  next hji => exact hji ▸ hi u hj
  · exact hs j u hj

end Steps

section Whole

/-- What a config file can hold: what it held at first, nothing, or the whole
document of a bind that goes to it and the end of a longer one. -/
def Source (first : F → Option Text) (made : List (F × Binding)) (f : F) (c : Text) : Prop :=
  first f = some c ∨ c = [] ∨ ∃ b rest, (f, b) ∈ made ∧ c = configText lib b ++ rest

structure Sound (first : F → Option Text) (made : List (F × Binding)) (sv : ConfigServer) : Prop where
  binding : ∀ b, sv.state.binding = some b → (file sv.state.configPath, b) ∈ made ∨
    ∃ c, Source lib first made (file sv.state.configPath) c ∧ readBinding lib c = .ok (some b)
  saving : sv.save ≠ .idle → ∀ b, sv.state.binding = some b → (file sv.state.configPath, b) ∈ made
  unwritten : ∀ offset rest, sv.save = .writing offset rest →
    offset = 0 ∧ ∀ b, sv.state.binding = some b → rest = configText lib b

structure Kept (first : F → Option Text) (s : ConfigStore I F) : Prop where
  files : ∀ f c, s.files f = some c → Source lib first s.made f c
  servers : ∀ i sv, s.server i = some sv → Sound lib file first s.made sv

variable {lib file} {first : F → Option Text} {made : List (F × Binding)} {s t : ConfigStore I F} {i : I}

omit [DecidableEq I] [DecidableEq F] in
theorem Source.mono {f : F} {c : Text} (h : Source lib first made f c) (x : F × Binding) :
    Source lib first (made ++ [x]) f c := by
  rcases h with h | h | ⟨b, rest, hb, hc⟩
  · exact .inl h
  · exact .inr (.inl h)
  · exact .inr (.inr ⟨b, rest, List.mem_append_left _ hb, hc⟩)

omit [DecidableEq I] [DecidableEq F] in
theorem Sound.mono {sv : ConfigServer} (h : Sound lib file first made sv) (x : F × Binding) :
    Sound lib file first (made ++ [x]) sv where
  binding b hb := (h.binding b hb).imp (List.mem_append_left _) fun ⟨c, hc, hread⟩ => ⟨c, hc.mono x, hread⟩
  saving hsave b hb := List.mem_append_left _ (h.saving hsave b hb)
  unwritten := h.unwritten

omit [DecidableEq F] in
theorem Kept.setServer (h : Kept lib file first s) {sv : Option ConfigServer}
    (hsv : ∀ u, sv = some u → Sound lib file first s.made u) : Kept lib file first (setServer s i sv) :=
  ⟨h.files, setServer_server h.servers hsv⟩

omit [DecidableEq I] in
theorem Kept.setFile (h : Kept lib file first s) {f : F} {c : Text} (hc : Source lib first s.made f c) :
    Kept lib file first (setFile s f c) := by
  refine ⟨fun g d hg => ?_, h.servers⟩
  simp only [ConfigStore.setFile, Function.update_apply] at hg
  split at hg
  next hgf =>
    subst hgf
    obtain rfl := Option.some.inj hg
    exact hc
  · exact h.files g d hg

omit [DecidableEq I] [DecidableEq F] in
theorem kept_init : Kept lib file first (init first : ConfigStore I F) :=
  ⟨fun _ _ h => .inl h, fun _ _ h => by simp [init] at h⟩

theorem step_kept {a : ConfigAction I} (h : Kept lib file first s) (hwhole : WritesWhole s a)
    (hstep : step lib file s a = some t) : Kept lib file first t := by
  cases a with
  | start i cwd readable panes =>
      obtain ⟨-, rfl⟩ := step_start hstep
      refine h.setServer fun u hu => ?_
      obtain rfl := Option.some.inj hu
      refine ⟨fun b hb => .inr ?_, fun hsave => absurd rfl hsave, fun _ _ hsave => by cases hsave⟩
      obtain ⟨c, hc, hread⟩ := serveStart_binding hb
      exact ⟨c, by rw [serveStart_path]; exact h.files _ _ hc, hread⟩
  | stop i =>
      obtain rfl := Option.some.inj hstep
      exact h.setServer fun u hu => by cases hu
  | bind i target projectRoot boundAt info =>
      obtain ⟨sv, hi, -, -, b, state, -, hb, rfl⟩ := step_bind hstep
      refine ⟨fun f c hc => (h.files f c hc).mono _, setServer_server (fun j u hj => (h.servers j u hj).mono _) ?_⟩
      intro u hu
      obtain rfl := Option.some.inj hu
      have hmade : ∀ b', state.binding = some b' → (file state.configPath, b') ∈ s.made ++ [(file state.configPath, b)] := by
        intro b' hb'
        obtain rfl := Option.some.inj (hb.symm.trans hb')
        simp
      exact ⟨fun b' hb' => .inl (hmade b' hb'), fun _ => hmade, fun _ _ hsave => by cases hsave⟩
  | openFile i opened =>
      obtain ⟨sv, b, hi, hsave, hb, hcase⟩ := step_openFile hstep
      have hsv := h.servers i sv hi
      have hpending : ∀ b', sv.state.binding = some b' → (file sv.state.configPath, b') ∈ s.made :=
        hsv.saving (by simp [hsave])
      rcases hcase with ⟨-, rfl⟩ | ⟨-, rfl⟩
      · refine (h.setServer fun u hu => ?_).setFile (.inr (.inl rfl))
        obtain rfl := Option.some.inj hu
        refine ⟨hsv.binding, fun _ => hpending, fun offset rest hwriting => ?_⟩
        obtain ⟨rfl, rfl⟩ := SavePhase.writing.inj hwriting
        exact ⟨rfl, fun b' hb' => by rw [Option.some.inj (hb.symm.trans hb')]⟩
      · refine h.setServer fun u hu => ?_
        obtain rfl := Option.some.inj hu
        exact ⟨hsv.binding, fun hidle => absurd rfl hidle, fun _ _ hwriting => by cases hwriting⟩
  | write i n =>
      obtain ⟨sv, b, offset, rest, hi, hsave, hb, u, rfl, hcase⟩ := step_write hstep
      have hn : rest.length ≤ n := by simpa only [hsave, SavePhase.unwritten] using hwhole sv hi
      have hsv := h.servers i sv hi
      obtain ⟨rfl, hrest⟩ := hsv.unwritten offset rest hsave
      rcases hcase with ⟨-, rfl⟩ | ⟨hlt, -⟩
      · have hfile : Source lib first s.made (file sv.state.configPath)
            (overwrite 0 ((s.files (file sv.state.configPath)).getD []) 0 (rest.take n)) := by
          rw [List.take_of_length_le hn, overwrite_start, hrest b hb]
          exact .inr (.inr ⟨b, _, hsv.saving (by simp [hsave]) b hb, rfl⟩)
        have hdone : Sound lib file first s.made { sv with save := .idle } :=
          ⟨hsv.binding, fun hidle => absurd rfl hidle, fun _ _ hwriting => by cases hwriting⟩
        obtain ⟨hfiles, hservers⟩ := (h.setFile hfile).setServer (i := i) fun u hu => Option.some.inj hu ▸ hdone
        exact ⟨hfiles, hservers⟩
      · exact absurd hn (not_le.mpr hlt)

/-- Saves of whole documents never mix, whatever the servers do at one time and
wherever they are stopped. -/
theorem binding_was_made {as : List (ConfigAction I)} (hrun : run (step lib file) (init first) as = some s)
    (hwhole : Meets (step lib file) WritesWhole (init first) as)
    (hread : ∀ fb ∈ s.made, ∀ rest, lib.read (configText lib fb.2 ++ rest) = .ok (document fb.2))
    (hempty : ∃ e, lib.read [] = .error e) {sv : ConfigServer} {b : Binding} (hi : s.server i = some sv)
    (hb : sv.state.binding = some b) :
    (file sv.state.configPath, b) ∈ s.made ∨
      ∃ c, first (file sv.state.configPath) = some c ∧ readBinding lib c = .ok (some b) := by
  have hkept : Kept lib file first s := run_invariant (fun _ _ _ => step_kept) kept_init hwhole hrun
  rcases (hkept.servers i sv hi).binding b hb with hmade | ⟨c, hsource, hc⟩
  · exact .inl hmade
  rcases hsource with hfirst | rfl | ⟨b', rest, hmade, rfl⟩
  · exact .inr ⟨c, hfirst, hc⟩
  · obtain ⟨e, he⟩ := hempty
    exact absurd hc (readBinding_error he b)
  · have hdoc := readBinding_document (hread _ hmade rest)
    obtain rfl : b' = b := by simpa using hdoc.symm.trans hc
    exact .inl hmade

def pane (id : String) : PaneInfo := { paneId := lit id }

def longBinding : Binding := bound (lit "work:editor.2") [] (lit "2026-01-05T10:00:00+0000") (pane "%2")

def shortBinding : Binding := bound (lit "1") [] (lit "2026-01-05T10:00:00+0000") (pane "%1")

def printed (b : Binding) : Text :=
  lit "\x7b\n  \"binding\": \x7b\n    \"bound_at\": \"" ++ b.boundAt ++ lit "\",\n    \"pane_id\": \"" ++ b.paneId ++
    lit "\",\n    \"project_root\": \"" ++ b.projectRoot ++ lit "\",\n    \"target\": \"" ++ b.target ++
    lit "\"\n  \x7d\n\x7d"

def sampleJson : ConfigJson where
  read t :=
    if (printed longBinding).isPrefixOf t then .ok (document longBinding)
    else if (printed shortBinding).isPrefixOf t then .ok (document shortBinding)
    else .error (lit "parse error")
  dump
    | .obj [(_, .obj [(_, .str boundAt), (_, .str paneId), (_, .str projectRoot), (_, .str target)])] =>
        printed { target, paneId, projectRoot, boundAt }
    | _ => []

def workPath : Path := ⟨true, [lit "work"]⟩

/-- Both servers empty the file before the first of them writes, and a third one
starts while the end of the longer document is still there. -/
def overlapping : List (ConfigAction (Fin 3)) :=
  let none : Text → Except Text PaneInfo := fun _ => .error []
  [.start 0 workPath true none, .start 1 workPath true none,
    .bind 0 (lit "work:editor.2") [] (lit "2026-01-05T10:00:00+0000") (pane "%2"),
    .bind 1 (lit "1") [] (lit "2026-01-05T10:00:00+0000") (pane "%1"),
    .openFile 0 true, .openFile 1 true, .write 0 400, .write 1 400, .stop 0,
    .start 2 workPath true fun _ => .ok (pane "%1")]

def overlapped : ConfigStore (Fin 3) Path :=
  (run (step sampleJson id) (init fun _ => none) overlapping).get (by decide +kernel)

theorem sampleJson_read {b : Binding} (hb : b = longBinding ∨ b = shortBinding) (rest : Text) :
    sampleJson.read (configText sampleJson b ++ rest) = .ok (document b) := by
  rcases hb with rfl | rfl
  · rfl
  · rfl

theorem binding_was_made_overlapped : (id (defaultConfigPath workPath), shortBinding) ∈ overlapped.made ∨
    ∃ c, (fun _ => none : Path → Option Text) (defaultConfigPath workPath) = some c ∧
      readBinding sampleJson c = .ok (some shortBinding) := by
  have hrun : run (step sampleJson id) (init fun _ => none) overlapping = some overlapped := (Option.some_get _).symm
  have hmade : ∀ fb ∈ overlapped.made, fb.2 = longBinding ∨ fb.2 = shortBinding := by decide +kernel
  have hi : ∃ sv, overlapped.server 2 = some sv ∧ sv.state.binding = some shortBinding ∧
      sv.state.configPath = defaultConfigPath workPath := by
    refine ⟨(overlapped.server 2).get (by decide +kernel), (Option.some_get _).symm, ?_⟩
    decide +kernel
  obtain ⟨sv, hi, hb, hpath⟩ := hi
  rw [← hpath]
  exact binding_was_made hrun (by decide +kernel) (fun fb hfb rest => sampleJson_read (hmade fb hfb) rest) ⟨_, rfl⟩ hi hb

end Whole

section Turns

def lastSaved (saved : List (F × Binding)) (f : F) : Option Binding :=
  saved.foldl (fun last x => if x.1 = f then some x.2 else last) none

/-- A file that no server writes holds the document saved to it last. -/
structure Settled (first : F → Option Text) (s : ConfigStore I F) : Prop where
  quiet : ∀ f, (∀ i, ¬ Writing file s i f) →
    s.files f = (lastSaved s.saved f).elim (first f) fun b => some (configText lib b)
  writing : ∀ i sv, s.server i = some sv → ∀ offset rest, sv.save = .writing offset rest →
    ∃ b, sv.state.binding = some b ∧ rest = (configText lib b).drop offset ∧ offset < (configText lib b).length ∧
      s.files (file sv.state.configPath) = some ((configText lib b).take offset)
  single : ∀ i j f, Writing file s i f → Writing file s j f → i = j
  panes : ∀ x ∈ s.saved, x.2.paneId ≠ []
  bound : ∀ i sv, s.server i = some sv → sv.save ≠ .idle → ∀ b, sv.state.binding = some b → b.paneId ≠ []

variable {lib file} {first : F → Option Text} {s t : ConfigStore I F} {i : I}

theorem lastSaved_concat (saved : List (F × Binding)) (x : F × Binding) (f : F) :
    lastSaved (saved ++ [x]) f = if x.1 = f then some x.2 else lastSaved saved f := by
  simp [lastSaved]

theorem lastSaved_mem {saved : List (F × Binding)} {f : F} {b : Binding} (h : lastSaved saved f = some b) :
    (f, b) ∈ saved := by
  induction saved using List.reverseRecOn with
  | nil => cases h
  | append_singleton saved x ih =>
      rw [lastSaved_concat] at h
      split at h
      next hx =>
        subst hx
        obtain rfl := Option.some.inj h
        simp
      · exact List.mem_append_left _ (ih h)

theorem configText_pos (b : Binding) : 0 < (configText lib b).length := by simp [configText]

omit [DecidableEq F] in
theorem writing_setServer {sv : Option ConfigServer} {j : I} {f : F} :
    Writing file (setServer s i sv) j f ↔
      if j = i then ∃ u, sv = some u ∧ u.save.isWriting = true ∧ file u.state.configPath = f
      else Writing file s j f := by
  simp only [Writing, setServer, Function.update_apply]
  split <;> rfl

omit [DecidableEq F] in
theorem not_writing_idle {sv : Option ConfigServer} (hsv : ∀ u, sv = some u → u.save.isWriting = false) {j : I} {f : F} :
    Writing file (setServer s i sv) j f ↔ j ≠ i ∧ Writing file s j f := by
  rw [writing_setServer]
  split
  next hji =>
    refine ⟨fun ⟨u, hu, hsave, _⟩ => ?_, fun h => absurd hji h.1⟩
    simp [hsv u hu] at hsave
  next hji => exact ⟨fun h => ⟨hji, h⟩, fun h => h.2⟩

/-- A server that writes nothing changes state, and writes nothing after it. -/
theorem Settled.setServer (h : Settled lib file first s) (hold : ∀ f, ¬ Writing file s i f) {sv : Option ConfigServer}
    (hsv : ∀ u, sv = some u → u.save.isWriting = false)
    (hpanes : ∀ u, sv = some u → u.save ≠ .idle → ∀ b, u.state.binding = some b → b.paneId ≠ []) :
    Settled lib file first (setServer s i sv) := by
  have hsame : ∀ j f, Writing file (ConfigStore.setServer s i sv) j f ↔ Writing file s j f := fun j f => by
    rw [not_writing_idle hsv]
    refine ⟨fun hw => hw.2, fun hw => ⟨?_, hw⟩⟩
    rintro rfl
    exact hold f hw
  refine ⟨fun f hf => h.quiet f fun j hw => hf j ((hsame j f).mpr hw), setServer_server h.writing ?_, ?_, h.panes,
    setServer_server h.bound hpanes⟩
  · intro u hu offset rest hsave
    have hidle := hsv u hu
    rw [hsave] at hidle
    cases hidle
  · exact fun j k f hj hk => h.single j k f ((hsame j f).mp hj) ((hsame k f).mp hk)

omit [DecidableEq I] [DecidableEq F] in
theorem idle_not_writing {sv : ConfigServer} (hi : s.server i = some sv)
    (hsave : sv.save.isWriting = false) (f : F) : ¬ Writing file s i f := by
  rintro ⟨u, hu, hwriting, -⟩
  obtain rfl := Option.some.inj (hi.symm.trans hu)
  simp [hsave] at hwriting

omit [DecidableEq I] in
theorem settled_init : Settled lib file first (init first : ConfigStore I F) := by
  have hnone : ∀ i sv, (init first : ConfigStore I F).server i = some sv → False := fun _ _ h => by simp [init] at h
  refine ⟨fun f _ => rfl, fun i sv h => (hnone i sv h).elim, ?_, by simp [init], fun i sv h => (hnone i sv h).elim⟩
  rintro i j f ⟨sv, hi, _⟩
  exact (hnone i sv hi).elim

theorem writing_setBoth {u : ConfigServer} {f : F} (hfile : file u.state.configPath = f) {c : Text}
    {saved : List (F × Binding)} (j : I) (g : F) :
    Writing file { ConfigStore.setServer (setFile s f c) i (some u) with saved } j g ↔
      if j = i then u.save.isWriting = true ∧ g = f else Writing file s j g := by
  change Writing file (ConfigStore.setServer s i (some u)) j g ↔ _
  rw [writing_setServer]
  split
  · constructor
    · rintro ⟨v, hv, hsave, hg⟩
      obtain rfl := Option.some.inj hv
      exact ⟨hsave, hg.symm.trans hfile⟩
    · rintro ⟨hsave, rfl⟩
      exact ⟨u, rfl, hsave, hfile⟩
  · rfl

/-- The one server that writes a file, or opens it, puts another content there. -/
theorem Settled.setBoth (h : Settled lib file first s) {u : ConfigServer} {f : F} (hfile : file u.state.configPath = f)
    (hothers : ∀ j, j ≠ i → ¬ Writing file s j f) (hown : ∀ g, Writing file s i g → g = f) {c : Text}
    {saved : List (F × Binding)} (hsaved : ∀ g, g ≠ f → lastSaved saved g = lastSaved s.saved g)
    (hdone : u.save.isWriting = false →
      some c = (lastSaved saved f).elim (first f) fun b => some (configText lib b))
    (hmid : ∀ offset rest, u.save = .writing offset rest → ∃ b, u.state.binding = some b ∧
      rest = (configText lib b).drop offset ∧ offset < (configText lib b).length ∧ c = (configText lib b).take offset)
    (hpanes : ∀ x ∈ saved, x.2.paneId ≠ [])
    (hbound : u.save ≠ .idle → ∀ b, u.state.binding = some b → b.paneId ≠ []) :
    Settled lib file first { ConfigStore.setServer (setFile s f c) i (some u) with saved } := by
  have hwriting (j : I) (g : F) : Writing file { ConfigStore.setServer (setFile s f c) i (some u) with saved } j g ↔
      if j = i then u.save.isWriting = true ∧ g = f else Writing file s j g := writing_setBoth hfile j g
  have hfiles : ∀ g, (setFile s f c).files g = if g = f then some c else s.files g := fun g => Function.update_apply ..
  refine ⟨fun g hg => ?_, ?_, fun j k g hj hk => ?_, hpanes, setServer_server h.bound ?_⟩
  · change (setFile s f c).files g = _
    rw [hfiles]
    split
    next hgf =>
      subst hgf
      refine hdone (Bool.eq_false_iff.mpr fun hsave => hg i ((hwriting i g).mpr ?_))
      rw [if_pos rfl]
      exact ⟨hsave, rfl⟩
    next hgf =>
      rw [hsaved g hgf]
      refine h.quiet g fun j hj => ?_
      by_cases hji : j = i
      · subst hji
        exact hgf (hown g hj)
      · refine hg j ((hwriting j g).mpr ?_)
        rwa [if_neg hji]
  · intro j v hv
    change (Function.update s.server i (some u)) j = some v at hv
    rw [Function.update_apply] at hv
    split at hv
    next hji =>
      obtain rfl := Option.some.inj hv
      intro offset rest hsave
      obtain ⟨b, hb, hrest, hlt, hc⟩ := hmid offset rest hsave
      refine ⟨b, hb, hrest, hlt, ?_⟩
      change (setFile s f c).files _ = _
      rw [hfiles, if_pos hfile, hc]
    next hji =>
      intro offset rest hsave
      obtain ⟨b, hb, hrest, hlt, hc⟩ := h.writing j v hv offset rest hsave
      refine ⟨b, hb, hrest, hlt, ?_⟩
      change (setFile s f c).files _ = _
      rw [hfiles, if_neg, hc]
      exact fun hf => hothers j hji ⟨v, hv, by rw [hsave]; rfl, hf⟩
  · rw [hwriting] at hj hk
    split at hj
    next hji =>
      split at hk
      next hki => exact hji.trans hki.symm
      next hki =>
        obtain ⟨-, rfl⟩ := hj
        exact absurd hk (hothers k hki)
    next hji =>
      split at hk
      next hki =>
        obtain ⟨-, rfl⟩ := hk
        exact absurd hj (hothers j hji)
      next hki => exact h.single j k g hj hk
  · exact fun v hv => Option.some.inj hv ▸ hbound

theorem openFile_settled {opened : Bool} (h : Settled lib file first s)
    (hturn : ∀ sv, s.server i = some sv → ∀ j, ¬ Writing file s j (file sv.state.configPath))
    (hstep : step lib file s (.openFile i opened) = some t) : Settled lib file first t := by
  obtain ⟨sv, b, hi, hsave, hb, hcase⟩ := step_openFile hstep
  have hold : ∀ f, ¬ Writing file s i f := idle_not_writing hi (by rw [hsave]; rfl)
  have hpane : ∀ b', sv.state.binding = some b' → b'.paneId ≠ [] := h.bound i sv hi (by simp [hsave])
  rcases hcase with ⟨-, rfl⟩ | ⟨-, rfl⟩
  · refine h.setBoth (u := { sv with save := .writing 0 (configText lib b) }) rfl (fun j _ => hturn sv hi j)
      (fun g hg => absurd hg (hold g)) (fun _ _ => rfl) (fun hw => by cases hw) ?_ h.panes fun _ => hpane
    intro offset rest hw
    obtain ⟨rfl, rfl⟩ := SavePhase.writing.inj hw
    exact ⟨b, hb, rfl, configText_pos b, rfl⟩
  · refine h.setServer hold ?_ ?_
    · rintro u hu
      obtain rfl := Option.some.inj hu
      rfl
    · rintro u hu hw
      obtain rfl := Option.some.inj hu
      exact absurd rfl hw

theorem write_settled {n : Nat} (h : Settled lib file first s) (hstep : step lib file s (.write i n) = some t) :
    Settled lib file first t := by
  obtain ⟨sv, b, offset, rest, hi, hsave, hb, u, rfl, hcase⟩ := step_write hstep
  have hself : Writing file s i (file sv.state.configPath) := ⟨sv, hi, by rw [hsave]; rfl, rfl⟩
  have hothers : ∀ j, j ≠ i → ¬ Writing file s j (file sv.state.configPath) :=
    fun j hj hw => hj (h.single j i _ hw hself)
  have hown : ∀ g, Writing file s i g → g = file sv.state.configPath := by
    rintro g ⟨v, hv, -, rfl⟩
    rw [Option.some.inj (hi.symm.trans hv)]
  have hpane : ∀ b', sv.state.binding = some b' → b'.paneId ≠ [] := h.bound i sv hi (by simp [hsave])
  obtain ⟨b', hb', rfl, hlt, hcontent⟩ := h.writing i sv hi offset rest hsave
  obtain rfl := Option.some.inj (hb.symm.trans hb')
  have hwritten : overwrite 0 ((s.files (file sv.state.configPath)).getD []) offset (((configText lib b).drop offset).take n) =
      (configText lib b).take (offset + n) := by
    have hlen : ((configText lib b).take offset).length = offset := List.length_take_of_le hlt.le
    rw [hcontent, Option.getD_some]
    rw [overwrite_end hlen.symm, List.take_add]
  rw [hwritten] at hcase
  rcases hcase with ⟨hn, rfl⟩ | ⟨hn, rfl⟩
  · have hall : (configText lib b).take (offset + n) = configText lib b := by
      rw [List.length_drop] at hn
      exact List.take_of_length_le (by omega)
    rw [hall]
    refine h.setBoth (u := { sv with save := .idle }) rfl hothers hown (fun g hg => ?_) (fun _ => ?_)
      (fun _ _ hw => by cases hw) ?_ fun hw => absurd rfl hw
    · rw [lastSaved_concat, if_neg (Ne.symm hg)]
    · rw [lastSaved_concat, if_pos rfl, Option.elim_some]
    · intro x hx
      rcases List.mem_append.mp hx with hx | hx
      · exact h.panes x hx
      · rw [List.mem_singleton.mp hx]
        exact hpane b hb
  · refine h.setBoth (u := { sv with save := .writing (offset + n) (((configText lib b).drop offset).drop n) }) rfl hothers
      hown (fun _ _ => rfl) (fun hw => by cases hw) ?_ h.panes fun _ => hpane
    intro offset' rest' hw
    obtain ⟨rfl, rfl⟩ := SavePhase.writing.inj hw
    rw [List.length_drop] at hn
    exact ⟨b, hb, List.drop_drop, by omega, rfl⟩

theorem step_settled {a : ConfigAction I} (h : Settled lib file first s) (hturn : TakesTurns file s a)
    (hstep : step lib file s a = some t) : Settled lib file first t := by
  cases a with
  | start i cwd readable panes =>
      obtain ⟨hi, rfl⟩ := step_start hstep
      refine h.setServer ?_ ?_ ?_
      · rintro f ⟨u, hu, -⟩
        cases hi.symm.trans hu
      · rintro u hu
        obtain rfl := Option.some.inj hu
        rfl
      · rintro u hu hsave
        obtain rfl := Option.some.inj hu
        exact absurd rfl hsave
  | stop i =>
      obtain rfl := Option.some.inj hstep
      refine h.setServer ?_ (fun u hu => by cases hu) (fun u hu => by cases hu)
      rintro f ⟨u, hu, hwriting, -⟩
      simp [hturn u hu] at hwriting
  | bind i target projectRoot boundAt info =>
      obtain ⟨sv, hi, hidle, halive, b, state, hb, hstate, rfl⟩ := step_bind hstep
      have hpane : b.paneId ≠ [] := by
        simp only [PaneInfo.alive, Bool.and_eq_true, decide_eq_true_eq] at halive
        exact hb ▸ halive.2
      have hset : Settled lib file first (ConfigStore.setServer s i (some { sv with state, save := .pending })) := by
        refine h.setServer (idle_not_writing hi (by rw [hidle]; rfl)) ?_ ?_
        · rintro u hu
          obtain rfl := Option.some.inj hu
          rfl
        · rintro u hu - b' hb'
          obtain rfl := Option.some.inj hu
          exact Option.some.inj (hstate.symm.trans hb') ▸ hpane
      obtain ⟨hquiet, hwriting, hsingle, hpanes, hbound⟩ := hset
      exact ⟨hquiet, hwriting, hsingle, hpanes, hbound⟩
  | openFile i opened => exact openFile_settled h hturn hstep
  | write i n => exact write_settled h hstep

/-- However its text gets there, and through any number of servers one after another:
a server starts with the binding that was saved last for its directory, if its
pane is still there. -/
theorem restart_restores {as : List (ConfigAction I)} (hrun : run (step lib file) (init first) as = some s)
    (hturns : Meets (step lib file) (TakesTurns file) (init first) as) {cwd : Path} {panes : Text → Except Text PaneInfo}
    (hquiet : ∀ j, ¬ Writing file s j (file (defaultConfigPath cwd)))
    (hstart : step lib file s (.start i cwd true panes) = some t) {b : Binding}
    (hlast : lastSaved s.saved (file (defaultConfigPath cwd)) = some b)
    (hread : lib.read (configText lib b) = .ok (document b)) :
    ∃ sv, t.server i = some sv ∧ sv.state.configPath = defaultConfigPath cwd ∧
      sv.state.binding = if reportedAlive panes b then some b else none := by
  have hsettled : Settled lib file first s := run_invariant (fun _ _ _ => step_settled) settled_init hturns hrun
  obtain ⟨-, rfl⟩ := step_start hstart
  refine ⟨_, Function.update_self .., serveStart_path .., ?_⟩
  have hfile := hsettled.quiet _ hquiet
  rw [hlast, Option.elim_some] at hfile
  rw [hfile]
  exact serveStart_document hread (hsettled.panes _ (lastSaved_mem hlast))

/-- The document gets there in two writes. -/
def oneAfterAnother : List (ConfigAction (Fin 2)) :=
  let none : Text → Except Text PaneInfo := fun _ => .error []
  [.start 0 workPath true none, .bind 0 (lit "work:editor.2") [] (lit "2026-01-05T10:00:00+0000") (pane "%2"),
    .openFile 0 true, .write 0 100, .write 0 400, .stop 0, .start 1 workPath true none,
    .bind 1 (lit "1") [] (lit "2026-01-05T10:00:00+0000") (pane "%1"), .openFile 1 true, .write 1 3, .write 1 400, .stop 1]

def turnsTaken : ConfigStore (Fin 2) Path :=
  (run (step sampleJson id) (init fun _ => none) oneAfterAnother).get (by decide +kernel)

def restarted : ConfigStore (Fin 2) Path :=
  (step sampleJson id turnsTaken (.start 0 workPath true fun _ => .ok (pane "%1"))).get (by decide +kernel)

theorem restart_restores_short : ∃ sv, restarted.server 0 = some sv ∧
    sv.state.configPath = defaultConfigPath workPath ∧
    sv.state.binding = if reportedAlive (fun _ => .ok (pane "%1")) shortBinding then some shortBinding else none := by
  have hrun : run (step sampleJson id) (init fun _ => none) oneAfterAnother = some turnsTaken := (Option.some_get _).symm
  have hturns : Meets (step sampleJson id) (TakesTurns id) (init fun _ => none) oneAfterAnother := by decide +kernel
  have hstart : step sampleJson id turnsTaken (.start 0 workPath true fun _ => .ok (pane "%1")) = some restarted :=
    (Option.some_get _).symm
  have hlast : lastSaved turnsTaken.saved (defaultConfigPath workPath) = some shortBinding := by decide +kernel
  have hread : sampleJson.read (configText sampleJson shortBinding) = .ok (document shortBinding) := by
    simpa using sampleJson_read (.inr rfl) []
  exact restart_restores hrun hturns (by decide +kernel) hstart hlast hread

end Turns

end JJMCP.ConfigStore
