import JJMCP.EvalCode

namespace JJMCP.EvalCode

open Lib.Occurrence Text Config

def prompts : List Text := [lit "pkg>", lit "help?>", lit "shell>"]

/-- The last line that is not blank, without its trailing blanks. -/
def lastShownLine (text : Text) : Text := (text.rdropWhile isBlank).rtakeWhile (· ≠ nl)

def IdlePrompt (text : Text) : Prop := ∃ p ∈ prompts, p <:+ lastShownLine text

/-- No prompt at the end, and none with a space after it before the last solid
character. -/
def NoPrompt (text : Text) : Prop := ¬ IdlePrompt text ∧ ∀ p ∈ prompts, ¬ p ++ lit " " <:+: trimAscii text

/-- A prompt with a space after it somewhere before the last solid character. -/
def ShowsPrompt (text : Text) : Prop := ∃ p ∈ prompts, p ++ lit " " <:+: trimAscii text

/-- A prompt at the end, and one with a space after it above. -/
def PromptTwice (text : Text) : Prop := IdlePrompt text ∧ ShowsPrompt text

instance (text : Text) : Decidable (IdlePrompt text) :=
  inferInstanceAs (Decidable (∃ p ∈ prompts, p <:+ lastShownLine text))

/-- The guard says so exactly when the pane is at such a prompt. -/
def GuardRight (text : Text) : Prop := isKnownNonJuliaPrompt text = true ↔ IdlePrompt text

theorem isKnownNonJuliaPrompt_iff (text : Text) : isKnownNonJuliaPrompt text = true ↔ ShowsPrompt text := by
  simp only [ShowsPrompt, isKnownNonJuliaPrompt, Bool.or_eq_true, find_isSome, prompts, List.mem_cons,
    List.not_mem_nil, or_false, exists_eq_or_imp, exists_eq_left, or_assoc]
  rfl

/-- The trailing blanks are cut off before the search for a prompt and a space. -/
theorem guardRight_iff (text : Text) : GuardRight text ↔ NoPrompt text ∨ PromptTwice text := by
  rw [GuardRight, isKnownNonJuliaPrompt_iff]
  constructor
  · intro h
    by_cases hidle : IdlePrompt text
    · exact .inr ⟨hidle, h.mpr hidle⟩
    · exact .inl ⟨hidle, fun p hp hin => hidle (h.mp ⟨p, hp, hin⟩)⟩
  · rintro (⟨hidle, hno⟩ | ⟨hidle, hab⟩)
    · exact iff_of_false (fun ⟨p, hp, hin⟩ => hno p hp hin) hidle
    · exact iff_of_true hab hidle

def isPaste : Event → Bool
  | .paste _ _ _ => true
  | _ => false

def isKey : Event → Bool
  | .key _ _ => true
  | _ => false

def newEvents (json : JsonLib) (a : EvalAnswers) (c : EvalCall) (s : Session) : List Event :=
  (evalCode json a c s).1.events.drop s.events.length

/-- The last capture of the pane before anything is pasted. -/
def lastLook (a : EvalAnswers) (events : List Event) : Except Text Text :=
  if events.any isKey then a.recheck else a.lastLine

/-- Something is pasted only after a look at the pane that showed no idle prompt, and only
an idle prompt is refused. -/
structure GuardsPane (json : JsonLib) (a : EvalAnswers) (c : EvalCall) (s : Session) : Prop where
  paste : (newEvents json a c s).any isPaste = true →
    ∃ text, lastLook a (newEvents json a c s) = .ok text ∧ ¬ IdlePrompt text
  refuse : ∀ b s', (checkPaneMode a b c.force s').2 ≠ .next →
    ∃ text, a.lastLine = .ok text ∧ IdlePrompt text ∧ ∀ text', a.recheck = .ok text' → IdlePrompt text'

/-- The marker path adds pastes and nothing else. -/
def Pastes (s s' : Session) : Prop := ∃ new, s'.events = s.events ++ new ∧ ∀ e ∈ new, isKey e = false

theorem Pastes.same {s s' : Session} (h : s'.events = s.events) : Pastes s s' := ⟨[], by simp [h], by simp⟩

theorem Pastes.trans {s s' s'' : Session} (h : Pastes s s') (h' : Pastes s' s'') : Pastes s s'' := by
  obtain ⟨new, he, hn⟩ := h
  obtain ⟨new', he', hn'⟩ := h'
  refine ⟨new ++ new', by rw [he', he, List.append_assoc], fun e h => ?_⟩
  rcases List.mem_append.mp h with h | h
  · exact hn e h
  · exact hn' e h

theorem sendText_pastes {a : SendTextAnswers} {target : Text} {pasted : Pasted} {buffer : Text} {s s' : Session}
    {r : Except Text Unit} (h : sendText a target pasted buffer s = (s', r)) : Pastes s s' := by
  rcases sendText_session h with rfl | rfl
  · exact .same rfl
  · exact ⟨[.paste target pasted buffer], rfl, by simp [isKey]⟩

theorem ensureJjmcpRuntime_pastes (pid : Nat) (a : InstallAnswers) (b : Binding) (s : Session) :
    Pastes s (ensureJjmcpRuntime pid a b s).1 := by
  rcases ensureJjmcpRuntime_session pid a b s with ⟨_, h⟩ | ⟨_, s', r, hsend, h⟩
  · rw [h]
    exact .same rfl
  · have hpaste := sendText_pastes hsend
    rcases h with h | h
    · rw [h]
      exact hpaste
    · rw [h]
      exact hpaste

theorem runMarkerEval_pastes (pid : Nat) (a : PassAnswers) (b : Binding) (c : EvalCall) (detect : Bool) (s : Session) :
    Pastes s (runMarkerEval pid a b c detect s).1 := by
  obtain ⟨r, hsend⟩ := runMarkerEval_session pid a b c detect s
  have hpaste := sendText_pastes hsend
  exact hpaste

theorem pastes_framed (pid : Nat) : Framed pid Pastes where
  same _ hev := .same hev
  trans := .trans
  bootstrap := ensureJjmcpRuntime_pastes pid
  pass := runMarkerEval_pastes pid

theorem routeSocket_events (json : JsonLib) (a : EvalAnswers) (b : Binding) (c : EvalCall) (s : Session) :
    ∃ new, (routeSocket json a b c s).1.events = s.events ++ new ∧
      ∀ e ∈ new, isPaste e = false ∧ isKey e = false := by
  rw [routeSocket]
  split
  · exact ⟨[], by simp, by simp⟩
  · split
    · rw [recordRequest]
      dsimp only
      split
      · exact ⟨[], by simp, by simp⟩
      · exact ⟨[_], rfl, by simp [isPaste, isKey]⟩
    · split
      · exact ⟨[], by simp, by simp⟩
      · exact ⟨[], by simp, by simp⟩

/-- How the pane-mode check ends, from what the captures show. -/
inductive Checked (a : EvalAnswers) (b : Binding) (s : Session) : Session × Flow → Prop
  | unseen {e} (h : a.lastLine = .error e) : Checked a b s (s, .next)
  | clear {last} (h : a.lastLine = .ok last) (hk : isKnownNonJuliaPrompt last = false) : Checked a b s (s, .next)
  | blind {last e r} (h : a.lastLine = .ok last) (hk : isKnownNonJuliaPrompt last = true)
      (hr : a.recheck = .error e) : Checked a b s (record s (.key (boundTarget b) (lit "BSpace")), .stop r)
  | stuck {last line r} (h : a.lastLine = .ok last) (hk : isKnownNonJuliaPrompt last = true)
      (hr : a.recheck = .ok line) (hk' : isKnownNonJuliaPrompt line = true) :
      Checked a b s (record s (.key (boundTarget b) (lit "BSpace")), .stop r)
  | cleared {last line} (h : a.lastLine = .ok last) (hk : isKnownNonJuliaPrompt last = true)
      (hr : a.recheck = .ok line) (hk' : isKnownNonJuliaPrompt line = false) :
      Checked a b s (record s (.key (boundTarget b) (lit "BSpace")), .next)

theorem checkPaneMode_checked (a : EvalAnswers) (b : Binding) (s : Session) :
    Checked a b s (checkPaneMode a b false s) := by
  cases hlast : a.lastLine with
  | error e => simpa only [checkPaneMode, hlast, Bool.false_eq_true, if_false] using Checked.unseen hlast
  | ok last =>
      cases hk : isKnownNonJuliaPrompt last with
      | false => simpa only [checkPaneMode, hlast, hk, Bool.false_eq_true, if_false] using Checked.clear hlast hk
      | true =>
          cases hr : a.recheck with
          | error e =>
              simpa only [checkPaneMode, hlast, hk, hr, Bool.false_eq_true, if_false, if_true] using
                Checked.blind hlast hk hr
          | ok line =>
              cases hk' : isKnownNonJuliaPrompt line with
              | false =>
                  simpa only [checkPaneMode, hlast, hk, hr, hk', Bool.false_eq_true, if_false, if_true] using
                    Checked.cleared hlast hk hr hk'
              | true =>
                  simpa only [checkPaneMode, hlast, hk, hr, hk', Bool.false_eq_true, if_false, if_true] using
                    Checked.stuck hlast hk hr hk'

/-- The looks at the pane before a paste, with the guard's answers. -/
inductive LookedAt (a : EvalAnswers) (new : List Event) : Prop
  | clear {first : Text} (h : a.lastLine = .ok first) (hk : isKnownNonJuliaPrompt first = false)
      (hlook : lastLook a new = .ok first)
  | cleared {first second : Text} (h : a.lastLine = .ok first) (hk : isKnownNonJuliaPrompt first = true)
      (hr : a.recheck = .ok second) (hk' : isKnownNonJuliaPrompt second = false) (hlook : lastLook a new = .ok second)

/-- A call whose first capture succeeds pastes only after its last look at the pane, where
the guard answered no. -/
theorem evalInPane_events (json : JsonLib) {a : EvalAnswers} {seen : Text} (hseen : a.lastLine = .ok seen) (b : Binding)
    (c : EvalCall) (hforce : c.force = false) (s : Session) :
    ∃ new, (evalInPane json a b c s).1.events = s.events ++ new ∧ (new.any isPaste = true → LookedAt a new) := by
  obtain ⟨sock, hsock, hneither⟩ := routeSocket_events json a b c s
  have hnopaste : sock.any isPaste = false := by simpa using fun e he => (hneither e he).1
  have hnokey : sock.any isKey = false := by simpa using fun e he => (hneither e he).2
  rw [evalInPane]
  rcases hroute : routeSocket json a b c s with ⟨s1, _ | r⟩
  · have hs1 : s1.events = s.events ++ sock := by rw [← hsock, hroute]
    have hcheck := checkPaneMode_checked a b s1
    rw [andThen, hforce]
    obtain ⟨rest, hrest, hkeys⟩ := @Framed.markerPath _ json a (pastes_framed a.pid) b c (checkPaneMode a b false s1).1
    have hrestkey : rest.any isKey = false := by simpa using hkeys
    generalize checkPaneMode a b false s1 = p at hcheck hrest
    have hstop {e : Event} (he : isPaste e = false) : (sock ++ [e]).any isPaste = false := by
      rw [List.any_append, hnopaste, List.any_cons, he, List.any_nil]
      rfl
    cases hcheck with
    | unseen h => exact absurd (hseen.symm.trans h) (by simp)
    | @clear last h hk =>
        refine ⟨sock ++ rest, by rw [← List.append_assoc, ← hs1]; exact hrest, fun _ => .clear h hk ?_⟩
        rw [lastLook, List.any_append, hnokey, hrestkey, Bool.or_self, if_neg (by simp), h]
    | blind => exact ⟨sock ++ [_], by rw [← List.append_assoc, ← hs1]; rfl,
        fun h => absurd h (by rw [hstop rfl]; simp)⟩
    | stuck => exact ⟨sock ++ [_], by rw [← List.append_assoc, ← hs1]; rfl,
        fun h => absurd h (by rw [hstop rfl]; simp)⟩
    | @cleared _ line h hk hr hk' =>
        refine ⟨sock ++ ([.key (boundTarget b) (lit "BSpace")] ++ rest), ?_, fun _ => .cleared h hk hr hk' ?_⟩
        · rw [← List.append_assoc, ← hs1, ← List.append_assoc]
          exact hrest
        · rw [lastLook, List.any_append, List.any_append, List.any_cons, isKey, Bool.true_or, Bool.true_or,
            Bool.or_true, if_pos rfl, hr]
  · have hs1 : s1.events = s.events ++ sock := by rw [← hsock, hroute]
    exact ⟨sock, hs1, fun h => absurd h (by simp [hnopaste])⟩

theorem evalCode_events (json : JsonLib) {a : EvalAnswers} {seen : Text} (hseen : a.lastLine = .ok seen) (c : EvalCall)
    (hforce : c.force = false) (s : Session) (hpaste : (newEvents json a c s).any isPaste = true) :
    LookedAt a (newEvents json a c s) := by
  have hnone {r : Session × Reply} (h : r.1.events = s.events) :
      (r.1.events.drop s.events.length).any isPaste = true → False := by
    rw [h, List.drop_length]
    simp
  revert hpaste
  rw [newEvents, evalCode]
  dsimp only
  split
  · exact fun h => (hnone rfl h).elim
  · split
    · exact fun h => (hnone rfl h).elim
    · split
      next b _ _ _ _ _ =>
        obtain ⟨new, hnew, hpaste⟩ := evalInPane_events json hseen b c hforce { s with lastCode := c.code }
        rw [hnew, List.drop_left]
        exact hpaste
      · exact fun h => (hnone rfl h).elim

/-- What the looks of the check may show, the first and the one after the backspace:
no prompt at first; or one that is gone with the backspace; or an idle one that shows
another above, and again after the backspace if that look succeeds. -/
inductive LooksRight : Except Text Text → Except Text Text → Prop
  | clear {first : Text} {second : Except Text Text} (h : NoPrompt first) : LooksRight (.ok first) second
  | cleared {first second : Text} (h : ShowsPrompt first) (h' : NoPrompt second) :
      LooksRight (.ok first) (.ok second)
  | blind {first e : Text} (h : PromptTwice first) : LooksRight (.ok first) (.error e)
  | stuck {first second : Text} (h : PromptTwice first) (h' : PromptTwice second) :
      LooksRight (.ok first) (.ok second)

theorem noPrompt_iff (text : Text) : NoPrompt text ↔ ¬ IdlePrompt text ∧ isKnownNonJuliaPrompt text = false := by
  rw [← Bool.not_eq_true, isKnownNonJuliaPrompt_iff, NoPrompt, ShowsPrompt]
  simp only [not_exists, not_and]

theorem promptTwice_iff (text : Text) : PromptTwice text ↔ IdlePrompt text ∧ isKnownNonJuliaPrompt text = true := by
  rw [PromptTwice, isKnownNonJuliaPrompt_iff]

/-- Where the looks are right, the call pastes only where it saw no idle prompt, and
refuses nothing else. -/
theorem guardsPane_of_looks (json : JsonLib) {a : EvalAnswers} {c : EvalCall} (hforce : c.force = false) (s : Session)
    (h : LooksRight a.lastLine a.recheck) : GuardsPane json a c s := by
  constructor
  · intro hpaste
    have hfirst : ∃ first, a.lastLine = .ok first := by
      cases hl : a.lastLine with
      | error e => cases hl ▸ h
      | ok first => exact ⟨first, rfl⟩
    obtain ⟨first, hfirst⟩ := hfirst
    cases evalCode_events json hfirst c hforce s hpaste with
    | @clear first hl hk hlook =>
        refine ⟨first, hlook, fun hidle => ?_⟩
        have hright : NoPrompt first ∨ ShowsPrompt first := by
          rw [hl] at h
          generalize a.recheck = second at h
          cases h with
          | clear h => exact .inl h
          | cleared h => exact .inr h
          | blind h => exact .inr h.2
          | stuck h => exact .inr h.2
        rcases hright with hno | hshows
        · exact hno.1 hidle
        · simp [(isKnownNonJuliaPrompt_iff first).mpr hshows] at hk
    | @cleared first second hl hk hr hk' hlook =>
        refine ⟨second, hlook, fun hidle => ?_⟩
        rw [hl, hr] at h
        cases h with
        | clear h => simp [((noPrompt_iff first).mp h).2] at hk
        | cleared _ h => exact h.1 hidle
        | stuck _ h => simp [((promptTwice_iff second).mp h).2] at hk'
  · intro b s' hstop
    rw [hforce] at hstop
    have hcheck := checkPaneMode_checked a b s'
    generalize checkPaneMode a b false s' = p at hcheck hstop
    cases hcheck with
    | unseen => exact absurd rfl hstop
    | clear => exact absurd rfl hstop
    | cleared => exact absurd rfl hstop
    | @blind first e _ hl hk hr =>
        rw [hl, hr] at h
        cases h with
        | clear h => simp [((noPrompt_iff first).mp h).2] at hk
        | blind h => exact ⟨first, hl, h.1, fun _ h' => by simp [hr] at h'⟩
    | @stuck first second _ hl hk hr hk' =>
        rw [hl, hr] at h
        cases h with
        | clear h => simp [((noPrompt_iff first).mp h).2] at hk
        | cleared _ h => simp [((noPrompt_iff second).mp h).2] at hk'
        | stuck h h' => exact ⟨first, hl, h.1, fun text ht => Except.ok.inj (hr.symm.trans ht) ▸ h'.1⟩

def paneSession : Session where
  server := { binding := some { target := lit "%5", paneId := lit "%5", projectRoot := [] },
              configPath := ⟨true, []⟩ }
  cache := fun _ => some (lit "100:200")

def paneAnswers (lastLine : Text) : EvalAnswers where
  paneInfo := .ok { paneId := lit "%5", panePid := lit "100" }
  lastLine := .ok lastLine
  install := { generation := lit "100:200" }

def noJson : JsonLib := { parse := fun _ => .error [], dump := fun _ => [] }

/-- A pane whose looks come out so, and nothing else in the way of a paste. -/
def reacting (first second : Except Text Text) : EvalAnswers :=
  { paneAnswers [] with lastLine := first, recheck := second }

def paneBinding : Binding := { target := lit "%5", paneId := lit "%5", projectRoot := [] }

def openCall : EvalCall := { code := lit "x + 1" }

def openPaste : Event :=
  .paste (lit "%5") (.wrapper (wrapJuliaCode openCall.code (Marker.makeMarker (lit "0_1_1")) openCall.timeoutMs))
    (lit "jjmcp_0_1_1")

def openSession : Session := { paneSession with lastCode := openCall.code }

def backspaced : Session := record openSession (.key (boundTarget paneBinding) (lit "BSpace"))

/-- Past the check, there is a paste and no further key. -/
theorem openCall_pastes : ∀ s ∈ [openSession, backspaced],
    (andThen (acquireLock (paneAnswers []) s) (markerPath noJson (paneAnswers []) paneBinding openCall)).1.events =
      s.events ++ [openPaste] := by
  decide +kernel

theorem reacting_pastes {first second : Except Text Text} {s : Session} (hs : s ∈ [openSession, backspaced])
    (h : checkPaneMode (reacting first second) paneBinding false openSession = (s, .next)) :
    newEvents noJson (reacting first second) openCall paneSession = s.events ++ [openPaste] := by
  have hin : evalCode noJson (reacting first second) openCall paneSession =
      andThen (checkPaneMode (reacting first second) paneBinding false openSession) fun s =>
        andThen (acquireLock (paneAnswers []) s) (markerPath noJson (paneAnswers []) paneBinding openCall) := rfl
  rw [h] at hin
  rw [newEvents, hin, andThen, openCall_pastes s hs]
  rfl

/-- The looks of a call that keeps what it has to in any circumstances are right. -/
theorem looks_of_guardsPane {first second : Except Text Text}
    (h : GuardsPane noJson (reacting first second) openCall paneSession) : LooksRight first second := by
  have hpaste {s : Session} (hs : s ∈ [openSession, backspaced])
      (hgo : checkPaneMode (reacting first second) paneBinding false openSession = (s, .next)) :
      ∃ text, lastLook (reacting first second) (s.events ++ [openPaste]) = .ok text ∧ ¬ IdlePrompt text := by
    have hnew := reacting_pastes hs hgo
    rw [← hnew]
    refine h.paste ?_
    rw [hnew, List.any_append]
    exact Bool.or_true _
  have hrefuse := h.refuse paneBinding openSession
  have hcheck := checkPaneMode_checked (reacting first second) paneBinding openSession
  generalize hp : checkPaneMode (reacting first second) paneBinding false openSession = p at hcheck
  cases hcheck with
  | unseen hl =>
      obtain ⟨text, hlook, -⟩ := hpaste List.mem_cons_self hp
      cases hl.symm.trans hlook
  | @clear last hl hk =>
      obtain ⟨text, hlook, hidle⟩ := hpaste List.mem_cons_self hp
      obtain rfl := Except.ok.inj (hl.symm.trans hlook)
      obtain rfl : first = .ok last := hl
      exact .clear ((noPrompt_iff last).mpr ⟨hidle, hk⟩)
  | @cleared last line hl hk hr hk' =>
      obtain ⟨text, hlook, hidle⟩ := hpaste (List.mem_cons_of_mem _ List.mem_cons_self) hp
      obtain rfl := Except.ok.inj (hr.symm.trans hlook)
      obtain rfl : first = .ok last := hl
      obtain rfl : second = .ok line := hr
      exact .cleared ((isKnownNonJuliaPrompt_iff last).mp hk) ((noPrompt_iff line).mpr ⟨hidle, hk'⟩)
  | @blind last e r hl hk hr =>
      obtain ⟨text, ht, hidle, -⟩ := hrefuse (by simp [show openCall.force = false from rfl, hp])
      obtain rfl := Except.ok.inj (hl.symm.trans ht)
      obtain rfl : first = .ok last := hl
      obtain rfl : second = .error e := hr
      exact .blind ((promptTwice_iff last).mpr ⟨hidle, hk⟩)
  | @stuck last line r hl hk hr hk' =>
      obtain ⟨text, ht, hidle, hagain⟩ := hrefuse (by simp [show openCall.force = false from rfl, hp])
      obtain rfl := Except.ok.inj (hl.symm.trans ht)
      obtain rfl : first = .ok last := hl
      obtain rfl : second = .ok line := hr
      exact .stuck ((promptTwice_iff last).mpr ⟨hidle, hk⟩) ((promptTwice_iff line).mpr ⟨hagain line rfl, hk'⟩)

/-- The guard is right about a text exactly when it shows no prompt, or ends in one
and shows an older one too. The calls that see a pane so paste only where it showed no
idle prompt, and refuse nothing else, exactly when its looks come out right. -/
theorem paneMode_guarded (first second : Except Text Text) :
    (∀ text, GuardRight text ↔ NoPrompt text ∨ PromptTwice text) ∧
      ((∀ json a c s, c.force = false → a.lastLine = first → a.recheck = second → GuardsPane json a c s) ↔
        LooksRight first second) := by
  refine ⟨guardRight_iff, fun h => ?_, fun h json a c s hforce hl hr => ?_⟩
  · exact looks_of_guardsPane (h noJson (reacting first second) openCall paneSession rfl rfl rfl)
  · exact guardsPane_of_looks json hforce s (by rw [hl, hr]; exact h)

theorem paneMode_guarded_julia :
    GuardsPane noJson { paneAnswers (lit "julia> 1
1

julia> ") with recheck := .error [] }
      { code := lit "x + 1" } paneSession := by
  have hlooks : LooksRight (.ok (lit "julia> 1
1

julia> ")) (.error []) := .clear ⟨by decide, by decide⟩
  exact (paneMode_guarded _ _).2.mpr hlooks noJson _ _ _ rfl rfl rfl

/-- An idle pkg prompt is not seen, and the wrapper goes there; where the first capture
fails it goes there unseen. -/
theorem not_paneMode_guarded :
    ¬ (∀ text, GuardRight text) ∧ (¬ ∀ json a c s, c.force = false → GuardsPane json a c s) ∧
      ¬ GuardsPane noJson { paneAnswers [] with lastLine := .error (lit "no server") } { code := lit "x + 1" }
        paneSession := by
  refine ⟨?_, ?_, ?_⟩
  · intro hright
    have hidle := (hright (lit "julia> 1\n1\n\n(@v1.11) pkg> ")).mpr (by decide)
    exact absurd hidle (by decide)
  · intro hguards
    have h := hguards noJson (paneAnswers (lit "(@v1.11) pkg> ")) { code := lit "x + 1" } paneSession rfl
    obtain ⟨text, hlook, hidle⟩ := h.paste (by decide +kernel)
    have hlast : lastLook (paneAnswers (lit "(@v1.11) pkg> "))
        (newEvents noJson (paneAnswers (lit "(@v1.11) pkg> ")) { code := lit "x + 1" } paneSession) =
        .ok (lit "(@v1.11) pkg> ") := by decide +kernel
    obtain rfl := Except.ok.inj (hlast.symm.trans hlook)
    exact hidle (by decide)
  · intro h
    obtain ⟨text, hlook, -⟩ := h.paste (by decide +kernel)
    have hlast : lastLook { paneAnswers [] with lastLine := .error (lit "no server") }
        (newEvents noJson { paneAnswers [] with lastLine := .error (lit "no server") } { code := lit "x + 1" }
          paneSession) = .error (lit "no server") := by decide +kernel
    cases hlast.symm.trans hlook

example : ¬ GuardRight (lit "(@v1.11) pkg> st\n  Status `Project.toml`\n\njulia> ") :=
  fun h => absurd (h.mp (by decide)) (by decide)

end JJMCP.EvalCode
