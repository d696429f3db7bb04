import JJMCP.BootstrapCode
import JJMCP.CallScope

namespace JJMCP

/-- One send_text: the pane, what is for it, and the name of its paste buffer. -/
structure SendText where
  target : Text
  pasted : Pasted
  buffer : Text
  deriving DecidableEq, Repr

/-- What tmux put into a pane on behalf of a server. -/
structure Delivery (I : Type) where
  sender : I
  send : SendText
  text : Text
  deriving DecidableEq

/-- The paste buffers that all clients of one tmux server share, and what each
jjmcp server has loaded and not pasted yet. -/
structure TmuxState (I : Type) where
  buffers : Text → Option Text
  sending : I → Option SendText := fun _ => none
  delivered : List (Delivery I) := []

inductive TmuxAction (I : Type)
  | load (i : I) (send : SendText)
  | loadFails (i : I) (send : SendText) (stored : Bool)
  | paste (i : I)
  | giveUp (i : I)
  | other (name : Text) (content : Option Text)

end JJMCP

namespace JJMCP.TmuxBuffers

open Text Marker Config EvalCode BootstrapCode Tools CallScope Lib.Runs

variable {I : Type} [DecidableEq I]

def pastedText : Pasted → Text
  | .bootstrap m => makeJjmcpRuntimeBootstrapCode m
  | .wrapper text => text

/-- send_text ends the text with a line feed. -/
def payload (text : Text) : Text := if text.getLast? = some nl then text else text ++ [nl]

def store (s : TmuxState I) (name : Text) (content : Option Text) : TmuxState I :=
  { s with buffers := Function.update s.buffers name content }

/-- load-buffer -b, then paste-buffer -p -d -b, which deletes the buffer; each of
them may fail, and between them anything may happen. -/
def step (s : TmuxState I) : TmuxAction I → Option (TmuxState I)
  | .load i send =>
      match s.sending i with
      | some _ => none
      | none =>
          some { store s send.buffer (some (payload (pastedText send.pasted))) with
            sending := Function.update s.sending i (some send) }
  | .loadFails i send stored =>
      match s.sending i with
      | some _ => none
      | none =>
          some (if stored then store s send.buffer (some (payload (pastedText send.pasted))) else s)
  | .paste i =>
      match s.sending i with
      | none => none
      | some send =>
          let done := { s with sending := Function.update s.sending i none }
          match s.buffers send.buffer with
          | none => some done
          | some text =>
              some { store done send.buffer none with delivered := s.delivered ++ [{ sender := i, send, text }] }
  | .giveUp i => some { s with sending := Function.update s.sending i none }
  | .other name content => some (store s name content)

def init (buffers : Text → Option Text) : TmuxState I := { buffers }

/-- The buffer names of the process with this id. -/
def Owned (pid : Nat) (name : Text) : Prop :=
  ∃ micros sequence, name = lit "jjmcp_" ++ makeMarkerId micros pid sequence ∨
    name = lit "jjmcp_bootstrap_" ++ makeMarkerId micros pid sequence

/-- The jjmcp servers of one machine. -/
structure Machine (I : Type) where
  json : JsonLib
  cwd : I → Path
  dispatcher : I → Dispatcher
  calls : I → List ToolCall
  pid : I → Nat

structure Machine.Fits (w : Machine I) : Prop where
  fresh : ∀ i, (w.dispatcher i).session.events = []
  pid : ∀ i, ∀ c ∈ w.calls i, c.answers.eval.pid = w.pid i
  distinct : Function.Injective w.pid

def Machine.events (w : Machine I) (i : I) : List Event :=
  (after w.json (w.cwd i) (w.dispatcher i) (w.calls i)).session.events

/-- What a server loads is an event of its session; another program leaves the
buffers alone whose names begin as those of jjmcp do. -/
def Performs (w : Machine I) (_ : TmuxState I) : TmuxAction I → Prop
  | .load i send => .paste send.target send.pasted send.buffer ∈ w.events i
  | .loadFails i send _ => Owned (w.pid i) send.buffer
  | .other name _ => ¬ lit "jjmcp_" <+: name
  | _ => True

def isPaste : TmuxAction I → Bool
  | .paste _ => true
  | _ => false

theorem makeMarkerId_plain (micros pid sequence : Nat) : (98 : UInt8) ∉ makeMarkerId micros pid sequence := by
  have hn (n : Nat) : (98 : UInt8) ∉ decimal n := Emission.digits_notMem (Emission.digits_decimal n) (by decide)
  have hu : (98 : UInt8) ∉ lit "_" := by decide
  simp only [makeMarkerId, List.mem_append, hn, hu, or_false, not_false_eq_true]

theorem owned_inj {pid pid' : Nat} {name : Text} (h : Owned pid name) (h' : Owned pid' name) : pid = pid' := by
  have hcut (id : Text) : lit "jjmcp_bootstrap_" ++ id = lit "jjmcp_" ++ (lit "bootstrap_" ++ id) := rfl
  have hmem (id : Text) : (98 : UInt8) ∈ lit "bootstrap_" ++ id := List.mem_append_left _ (by decide)
  obtain ⟨micros, sequence, rfl | rfl⟩ := h
  · obtain ⟨micros', sequence', heq | heq⟩ := h'
    · exact (MarkerIds.makeMarkerId_inj (List.append_cancel_left heq)).2.1
    · rw [hcut] at heq
      exact absurd (List.append_cancel_left heq ▸ hmem _) (makeMarkerId_plain _ _ _)
  · obtain ⟨micros', sequence', heq | heq⟩ := h'
    · rw [hcut] at heq
      exact absurd (List.append_cancel_left heq ▸ hmem _) (makeMarkerId_plain _ _ _)
    · exact (MarkerIds.makeMarkerId_inj (List.append_cancel_left heq)).2.1

theorem owned_jjmcp {pid : Nat} {name : Text} (h : Owned pid name) : lit "jjmcp_" <+: name := by
  obtain ⟨micros, sequence, rfl | rfl⟩ := h
  · exact List.prefix_append _ _
  · exact ⟨lit "bootstrap_" ++ makeMarkerId micros pid sequence, rfl⟩

section Sessions

variable {w : Machine I} {i : I}

/-- The text that a call of the server asks to be pasted, and the pane it is for. -/
def AskedFor (w : Machine I) (i : I) (target : Text) (pasted : Pasted) : Prop :=
  ∃ pre c post b code, w.calls i = pre ++ c :: post ∧
    (after w.json (w.cwd i) (w.dispatcher i) pre).session.server.binding = some b ∧ givenCode c = some code ∧
    target = boundTarget b ∧ ∃ m, pasted = .bootstrap m ∨ ∃ timeoutMs, pasted = .wrapper (wrapJuliaCode code m timeoutMs)

omit [DecidableEq I] in
theorem paste_scope (hw : w.Fits) {target buffer : Text} {pasted : Pasted}
    (he : .paste target pasted buffer ∈ w.events i) : AskedFor w i target pasted ∧ Owned (w.pid i) buffer := by
  obtain ⟨ids, hids⟩ := MarkerIds.calls_run w.json (w.cwd i) (hw.pid i) (w.dispatcher i)
  have hgenerated : ∀ id, MarkerIds.pastedId (.paste target pasted buffer) = some id →
      ∃ micros sequence, id = makeMarkerId micros (w.pid i) sequence := by
    intro id hid
    obtain ⟨-, new, hnew, hsub⟩ := hids.issues
    rw [hw.fresh, List.nil_append] at hnew
    refine hids.generator id (hsub.subset (List.mem_filterMap.mpr ⟨_, ?_, hid⟩))
    rw [← hnew]
    exact he
  rcases event_from he with hold | ⟨pre, c, post, hcalls, b, hb, ⟨code, hcode, hpane⟩ | ⟨-, hkey⟩⟩
  · rw [hw.fresh] at hold
    cases hold
  · cases pasted with
    | bootstrap m =>
        obtain ⟨htarget, hbuffer⟩ := hpane
        obtain ⟨micros, sequence, hid⟩ := hgenerated m.id rfl
        exact ⟨⟨pre, c, post, b, code, hcalls, hb, hcode, htarget, m, .inl rfl⟩,
          ⟨micros, sequence, .inr (hbuffer.trans (by rw [hid]))⟩⟩
    | wrapper text =>
        obtain ⟨htarget, m, timeoutMs, rfl, hbuffer⟩ := hpane
        obtain ⟨micros, sequence, hid⟩ := hgenerated m.id (MarkerIds.pastedId_wrapper ..)
        exact ⟨⟨pre, c, post, b, code, hcalls, hb, hcode, htarget, m, .inr ⟨timeoutMs, rfl⟩⟩,
          ⟨micros, sequence, .inl (hbuffer.trans (by rw [hid]))⟩⟩
  · cases hkey

end Sessions

section Run

variable {w : Machine I} {s t : TmuxState I}

/-- What this server means to put into the pane is what its buffer must hold. -/
def Genuine (w : Machine I) (i : I) (send : SendText) (text : Text) : Prop :=
  .paste send.target send.pasted send.buffer ∈ w.events i ∧ text = payload (pastedText send.pasted)

structure Intact (w : Machine I) (s : TmuxState I) : Prop where
  loaded : ∀ i send, s.sending i = some send → Owned (w.pid i) send.buffer ∧
    ∃ text, s.buffers send.buffer = some text ∧ Genuine w i send text
  delivered : ∀ x ∈ s.delivered, Genuine w x.sender x.send x.text

omit [DecidableEq I] in
theorem intact_init (buffers : Text → Option Text) : Intact w (init buffers) :=
  ⟨fun i send h => by simp [init] at h, fun x hx => by simp [init] at hx⟩

omit [DecidableEq I] in
/-- No other server has loaded a buffer with a name that this one owns. -/
theorem Intact.others (hw : w.Fits) (h : Intact w s) {i j : I} {name : Text} (hname : Owned (w.pid i) name)
    {send : SendText} (hj : s.sending j = some send) (hne : j ≠ i) (content : Option Text) :
    Function.update s.buffers name content send.buffer = s.buffers send.buffer := by
  refine Function.update_of_ne ?_ _ _
  rintro rfl
  exact hne (hw.distinct (owned_inj (h.loaded j send hj).1 hname))

omit [DecidableEq I] in
theorem Intact.after (h : Intact w s)
    (hloaded : ∀ i send, t.sending i = some send →
      (s.sending i = some send ∧ t.buffers send.buffer = s.buffers send.buffer) ∨
        (Owned (w.pid i) send.buffer ∧ ∃ text, t.buffers send.buffer = some text ∧ Genuine w i send text))
    (hdelivered : ∀ x ∈ t.delivered, x ∈ s.delivered ∨ Genuine w x.sender x.send x.text) :
    Intact w t := by
  refine ⟨fun i send hi => ?_, fun x hx => (hdelivered x hx).elim (h.delivered x) id⟩
  rcases hloaded i send hi with ⟨hold, hsame⟩ | hnew
  · rw [hsame]
    exact h.loaded i send hold
  · exact hnew

/-- A paste finds its own buffer, and only a paste puts anything into a pane. -/
theorem step_intact (hw : w.Fits) (h : Intact w s) {a : TmuxAction I} (hperforms : Performs w s a)
    (hstep : step s a = some t) :
    Intact w t ∧ t.delivered.length = s.delivered.length + (isPaste a).toNat := by
  cases a with
  | load i send =>
      simp only [step] at hstep
      split at hstep
      · cases hstep
      next hi =>
        obtain rfl := Option.some.inj hstep
        have howned := (paste_scope hw hperforms).2
        refine ⟨h.after (fun j send' hj => ?_) fun x hx => .inl hx, rfl⟩
        simp only [Function.update_apply] at hj
        split at hj
        next hji =>
          subst hji
          obtain rfl := Option.some.inj hj
          exact .inr ⟨howned, _, Function.update_self .., hperforms, rfl⟩
        next hji => exact .inl ⟨hj, h.others hw howned hj hji _⟩
  | loadFails i send stored =>
      simp only [step] at hstep
      split at hstep
      · cases hstep
      next hi =>
        obtain rfl := Option.some.inj hstep
        cases stored with
        | false => exact ⟨h, rfl⟩
        | true =>
            refine ⟨h.after (fun j send' hj => .inl ⟨hj, h.others hw hperforms hj ?_ _⟩) fun x hx => .inl hx, rfl⟩
            rintro rfl
            cases hi.symm.trans hj
  | paste i =>
      simp only [step] at hstep
      split at hstep
      · cases hstep
      next send hi =>
        obtain ⟨howned, text, htext, hgenuine⟩ := h.loaded i send hi
        rw [htext] at hstep
        obtain rfl := Option.some.inj hstep
        refine ⟨h.after (fun j send' hj => ?_) fun x hx => ?_, by simp [isPaste]⟩
        · simp only [store, Function.update_apply] at hj
          split at hj
          · cases hj
          next hji => exact .inl ⟨hj, h.others hw howned hj hji _⟩
        · rcases List.mem_append.mp hx with hx | hx
          · exact .inl hx
          · obtain rfl := List.mem_singleton.mp hx
            exact .inr hgenuine
  | giveUp i =>
      obtain rfl := Option.some.inj hstep
      refine ⟨h.after (fun j send' hj => ?_) fun x hx => .inl hx, rfl⟩
      simp only [Function.update_apply] at hj
      split at hj
      · cases hj
      · exact .inl ⟨hj, rfl⟩
  | other name content =>
      obtain rfl := Option.some.inj hstep
      refine ⟨h.after (fun j send' hj => .inl ⟨hj, Function.update_of_ne ?_ _ _⟩) fun x hx => .inl hx, rfl⟩
      rintro rfl
      exact hperforms (owned_jjmcp (h.loaded j send' hj).1)

theorem run_intact (hw : w.Fits) {as : List (TmuxAction I)} (h : Intact w s)
    (hmeets : Meets step (Performs w) s as) (hrun : run step s as = some t) :
    Intact w t ∧ t.delivered.length = s.delivered.length + as.countP isPaste := by
  induction as generalizing s with
  | nil =>
      obtain rfl := Option.some.inj hrun
      exact ⟨h, rfl⟩
  | cons a as ih =>
      obtain ⟨s', ha, hrest⟩ := run_cons_some hrun
      obtain ⟨hintact, hlen⟩ := step_intact hw h hmeets.1 ha
      have hmeets' := hmeets.2
      rw [ha] at hmeets'
      obtain ⟨hdone, hlen'⟩ := ih hintact hmeets' hrest
      refine ⟨hdone, ?_⟩
      rw [hlen', hlen, List.countP_cons, Nat.add_assoc, Nat.add_comm (isPaste a).toNat]
      cases isPaste a <;> rfl

omit [DecidableEq I] in
/-- Both texts end with a line feed, so that nothing is added to them. -/
theorem payload_asked {i : I} {target : Text} {pasted : Pasted} (h : AskedFor w i target pasted) :
    payload (pastedText pasted) = pastedText pasted := by
  obtain ⟨-, -, -, -, code, -, -, -, -, m, rfl | ⟨timeoutMs, rfl⟩⟩ := h
  · exact if_pos (makeJjmcpRuntimeBootstrapCode_end m)
  · exact if_pos (wrapJuliaCode_end code m timeoutMs)

/-- However the servers of a machine take turns at its tmux, with whatever loads and
pastes that fail, every paste puts one text into a pane, and that is what a call of
the very server that pastes asked for, whole, in the pane which that server is bound to. -/
theorem pastes_own_text (hw : w.Fits) {buffers : Text → Option Text} {as : List (TmuxAction I)}
    (hmeets : Meets step (Performs w) (init buffers) as) (hrun : run step (init buffers) as = some s) :
    s.delivered.length = as.countP isPaste ∧ ∀ x ∈ s.delivered,
      AskedFor w x.sender x.send.target x.send.pasted ∧ x.text = pastedText x.send.pasted := by
  obtain ⟨hintact, hlen⟩ := run_intact hw (intact_init buffers) hmeets hrun
  refine ⟨by simpa [init] using hlen, fun x hx => ?_⟩
  obtain ⟨hevent, htext⟩ := hintact.delivered x hx
  have hasked := (paste_scope hw hevent).1
  exact ⟨hasked, htext.trans (payload_asked hasked)⟩

def twoServers : Machine Bool where
  json := idleJson
  cwd := fun _ => ⟨true, []⟩
  dispatcher := fun _ => unboundServer
  calls := fun i => asking.map fun c =>
    { c with answers := { c.answers with eval := { c.answers.eval with pid := if i then 41 else 42 } } }
  pid := fun i => if i then 41 else 42

def bootstrapSend (pid : String) : SendText where
  target := lit "%3"
  pasted := .bootstrap ⟨lit "0_" ++ lit pid ++ lit "_1"⟩
  buffer := lit "jjmcp_bootstrap_0_" ++ lit pid ++ lit "_1"

/-- Both load before the first of them pastes. -/
def crossing : List (TmuxAction Bool) :=
  [.load true (bootstrapSend "41"), .load false (bootstrapSend "42"), .other (lit "buffer0") none, .paste true, .paste false]

def crossed : TmuxState Bool := (run step (init fun _ => none) crossing).get rfl

theorem pastes_own_text_crossed : crossed.delivered.length = crossing.countP isPaste ∧ ∀ x ∈ crossed.delivered,
    AskedFor twoServers x.sender x.send.target x.send.pasted ∧ x.text = pastedText x.send.pasted := by
  have hw : twoServers.Fits := by
    refine ⟨fun _ => rfl, ?_, ?_⟩
    · decide +kernel
    · unfold Function.Injective
      decide +kernel
  have hmeets : Meets step (Performs twoServers) (init fun _ => none) crossing := by
    have hload : ∀ i, .paste (lit "%3") (bootstrapSend (if i then "41" else "42")).pasted
        (bootstrapSend (if i then "41" else "42")).buffer ∈ twoServers.events i := by decide +kernel
    have hbuffer : ¬ lit "jjmcp_" <+: lit "buffer0" := by decide
    exact ⟨hload true, hload false, hbuffer, trivial, trivial, trivial⟩
  exact pastes_own_text hw hmeets (Option.some_get _).symm

end Run

end JJMCP.TmuxBuffers
