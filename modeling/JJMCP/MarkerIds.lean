import JJMCP.JuliaLiteral
import JJMCP.Emission
import Mathlib.Data.List.Nodup

namespace JJMCP.MarkerIds

open Lib.Occurrence Text Marker Emission Config EvalCode Tools JuliaLiteral

/-- The strings of a marker: BEGIN, and the five that close something. -/
def markerText (m : Marker) : Option Kind → Text
  | none => m.beginMark
  | some k => m.mark k

def opening : Option Kind → Text
  | none => lit "__JJMCP_BEGIN_"
  | some k => stem k

theorem markerText_eq (m : Marker) (k : Option Kind) : markerText m k = opening k ++ (m.id ++ lit "__") := by
  cases k <;> simp only [markerText, opening, beginMark, mark, List.append_assoc]

theorem markerText_getElem?_J {m : Marker} (hJ : 74 ∉ m.id) {k : Option Kind} {i : Nat}
    (h : (markerText m k)[i]? = some 74) : i = 2 ∨ i = 3 := by
  cases k with
  | none => exact beginMark_getElem?_J hJ h
  | some k => exact mark_getElem?_J hJ h

theorem markerText_JJ (m : Marker) (k : Option Kind) :
    (markerText m k)[2]? = some 74 ∧ (markerText m k)[3]? = some 74 := by
  rcases k with _ | k
  · exact ⟨rfl, rfl⟩
  · cases k <;> exact ⟨rfl, rfl⟩

/-- The two letters after the opening underscores fix where a marker string can
stand inside another one. -/
theorem markerText_at {i j : Marker} (hJ : 74 ∉ j.id) {k l : Option Kind} {p : Nat}
    (h : At (markerText i k) (markerText j l) p) : p = 0 := by
  obtain ⟨h2, h3⟩ := markerText_JJ i k
  obtain ⟨hl2, -⟩ := List.getElem?_eq_some_iff.mp h2
  obtain ⟨hl3, -⟩ := List.getElem?_eq_some_iff.mp h3
  have hp2 := markerText_getElem?_J hJ ((h.getElem? hl2).trans h2)
  have hp3 := markerText_getElem?_J hJ ((h.getElem? hl3).trans h3)
  omega

theorem opening_take (m : Marker) (k : Option Kind) : (markerText m k).take 10 = (opening k).take 10 := by
  have hlen : 10 ≤ (opening k).length := by
    rcases k with _ | k
    · decide
    · cases k <;> decide
  rw [markerText_eq, List.take_append_of_le_length hlen]

theorem opening_inj {k l : Option Kind} (h : (opening k).take 10 = (opening l).take 10) : k = l := by
  revert h
  rcases k with _ | k <;> rcases l with _ | l
  · exact fun _ => rfl
  · cases l <;> decide
  · cases k <;> decide
  · cases k <;> cases l <;> decide

/-- A marker string inside another one is that string. -/
theorem markerText_inside {i j : Marker} (hi : GeneratorForm i.id) (hj : GeneratorForm j.id) {k l : Option Kind}
    (h : markerText i k <:+: markerText j l) : i = j ∧ k = l := by
  obtain ⟨p, hp⟩ := infix_iff_at.mp h
  have hprefix : markerText i k <+: markerText j l := by
    rw [markerText_at (generatorForm_noJ hj) hp] at hp
    simpa [At] using hp
  have hkind : k = l := by
    apply opening_inj
    obtain ⟨r, hr⟩ := hprefix
    have hlen : 10 ≤ (markerText i k).length := by
      rw [markerText_eq, List.length_append]
      rcases k with _ | k
      · exact Nat.le_trans (by decide) (Nat.le_add_right _ _)
      · exact Nat.le_trans (by cases k <;> decide) (Nat.le_add_right _ _)
    rw [← opening_take i k, ← opening_take j l, ← hr, List.take_append_of_le_length hlen]
  subst hkind
  rw [markerText_eq, markerText_eq, List.prefix_append_right_inj] at hprefix
  have hid := generatorForm_isPrefix hi hj hprefix
  cases i
  cases j
  exact ⟨congrArg Marker.mk hid, rfl⟩

theorem append_sep_inj {sep : UInt8} {a b r s : Text} (ha : sep ∉ a) (hb : sep ∉ b)
    (h : a ++ sep :: r = b ++ sep :: s) : a = b ∧ r = s := by
  obtain ⟨rfl, -⟩ := prefix_sep ha hb (by rw [h])
  exact ⟨rfl, (List.cons.inj (List.append_cancel_left h)).2⟩

theorem makeMarkerId_inj {micros micros' pid pid' sequence sequence' : Nat}
    (h : makeMarkerId micros pid sequence = makeMarkerId micros' pid' sequence') :
    micros = micros' ∧ pid = pid' ∧ sequence = sequence' := by
  have hu : lit "_" = [95] := by decide
  have hn (n : Nat) : (95 : UInt8) ∉ decimal n := digits_notMem (digits_decimal n) (by decide)
  have hinj {n n' : Nat} (he : decimal n = decimal n') : n = n' := by
    rw [← digitsValue_decimal n, he, digitsValue_decimal]
  simp only [makeMarkerId, hu, List.append_assoc, List.cons_append, List.nil_append] at h
  obtain ⟨hmicros, hrest⟩ := append_sep_inj (hn micros) (hn micros') h
  obtain ⟨hpid, hsequence⟩ := append_sep_inj (hn pid) (hn pid') hrest
  exact ⟨hinj hmicros, hinj hpid, hinj hsequence⟩

/-- The ids that come of clock readings: each one takes the next number of a
counter of 64 bits. -/
def issued (pid : Nat) : UInt64 → List Nat → List Text
  | _, [] => []
  | counter, micros :: readings => makeMarkerId micros pid (counter + 1).toNat :: issued pid (counter + 1) readings

theorem counter_next (counter : UInt64) (n : Nat) :
    counter + 1 + UInt64.ofNat n = counter + UInt64.ofNat (n + 1) := by
  have hone : UInt64.ofNat 1 = 1 := rfl
  rw [UInt64.ofNat_add, hone, UInt64.add_comm (UInt64.ofNat n), UInt64.add_assoc]

theorem mem_issued {pid : Nat} {counter : UInt64} {readings : List Nat} {id : Text}
    (h : id ∈ issued pid counter readings) :
    ∃ micros, ∃ n < readings.length, id = makeMarkerId micros pid (counter + UInt64.ofNat n + 1).toNat := by
  induction readings generalizing counter with
  | nil => exact absurd h List.not_mem_nil
  | cons micros readings ih =>
      rcases List.mem_cons.mp h with rfl | h
      · exact ⟨micros, 0, by simp, by simp⟩
      · obtain ⟨micros', n, hn, he⟩ := ih h
        refine ⟨micros', n + 1, by simpa using hn, ?_⟩
        rw [he, counter_next]

theorem ofNat_ne_zero {n : Nat} (h0 : 0 < n) (h : n < 2 ^ 64) : UInt64.ofNat n ≠ 0 := by
  intro he
  have hn := congrArg UInt64.toNat he
  rw [UInt64.toNat_ofNat_of_lt' h, UInt64.toNat_zero] at hn
  omega

theorem issued_nodup (pid : Nat) (counter : UInt64) {readings : List Nat} (h : readings.length ≤ 2 ^ 64) :
    (issued pid counter readings).Nodup := by
  induction readings generalizing counter with
  | nil => exact List.nodup_nil
  | cons micros readings ih =>
      rw [List.length_cons] at h
      refine List.nodup_cons.mpr ⟨?_, ih (counter + 1) (by omega)⟩
      intro hm
      obtain ⟨micros', n, hn, he⟩ := mem_issued hm
      have hcounter := UInt64.toNat_inj.mp (makeMarkerId_inj he).2.2
      have hzero : UInt64.ofNat (n + 1) = 0 := by
        rw [UInt64.ofNat_add]
        have hsum : counter + 1 + (UInt64.ofNat n + UInt64.ofNat 1) = counter + 1 := by
          rw [← UInt64.add_assoc]
          exact hcounter.symm
        exact UInt64.add_eq_left.mp hsum
      exact ofNat_ne_zero (by omega) (by omega) hzero

theorem issued_concat (pid : Nat) (counter : UInt64) (readings : List Nat) (micros : Nat) :
    issued pid counter (readings ++ [micros]) =
      issued pid counter readings ++ [makeMarkerId micros pid (counter + UInt64.ofNat readings.length + 1).toNat] := by
  induction readings generalizing counter with
  | nil => simp [issued]
  | cons first readings ih =>
      rw [List.cons_append, issued, ih, issued, List.cons_append, List.length_cons, counter_next]

/-- The id that the pane gets with a paste. -/
def pastedId : Event → Option Text
  | .paste _ (.bootstrap m) _ => some m.id
  | .paste _ (.wrapper text) _ =>
      match literalAfter (lit "@JJMCP_COMMAND ") text with
      | .string bytes _ => some bytes
      | _ => none
  | .socket _ _ _ => none
  | .key _ _ => none

/-- The counter has moved by the given number of ids, and the new pastes are of
these ids, each at most once. -/
def Issues (s s' : Session) (ids : List Text) : Prop :=
  s'.server.markerSequence = s.server.markerSequence + ids.length ∧
    ∃ new, s'.events = s.events ++ new ∧ (new.filterMap pastedId).Sublist ids

/-- What one server issues in a run of bootstraps and passes; a retry is a pass.
In between it may do anything that neither moves the counter nor pastes. -/
inductive Run (pid : Nat) (s : Session) : List Text → Session → Prop
  | start : Run pid s [] s
  | bootstrap {ids : List Text} {s' : Session} (a : InstallAnswers) (b : Binding) (h : Run pid s ids s')
      (hc : RuntimeCache.isCurrent s'.cache (boundTarget b) a.generation = false) :
      Run pid s (ids ++ [makeMarkerId a.micros pid (s'.server.markerSequence + 1)]) (ensureJjmcpRuntime pid a b s').1
  | pass {ids : List Text} {s' : Session} (a : PassAnswers) (b : Binding) (c : EvalCall) (detect : Bool)
      (h : Run pid s ids s') :
      Run pid s (ids ++ [(nextMarkerId pid a s').2]) (runMarkerEval pid a b c detect s').1
  | other {ids : List Text} {s' t : Session} (h : Run pid s ids s') (hq : Issues s' t []) : Run pid s ids t

theorem Issues.same {s s' : Session} (hseq : s'.server.markerSequence = s.server.markerSequence)
    (hev : s'.events = s.events) : Issues s s' [] :=
  ⟨hseq, [], by rw [hev, List.append_nil], List.Sublist.refl _⟩

theorem Issues.trans {s s' s'' : Session} {ids ids' : List Text} (h : Issues s s' ids) (h' : Issues s' s'' ids') :
    Issues s s'' (ids ++ ids') := by
  obtain ⟨hseq, new, hev, hsub⟩ := h
  obtain ⟨hseq', new', hev', hsub'⟩ := h'
  refine ⟨?_, new ++ new', ?_, ?_⟩
  · rw [hseq', hseq, List.length_append, Nat.add_assoc]
  · rw [hev', hev, List.append_assoc]
  · rw [List.filterMap_append]
    exact hsub.append hsub'

/-- The counter moves before the paste of its id, which is sent or not. -/
theorem sendText_issues {a : SendTextAnswers} {target : Text} {pasted : Pasted} {buffer id : Text} {s t s' : Session}
    {r : Except Text Unit} (h : sendText a target pasted buffer t = (s', r))
    (hid : pastedId (.paste target pasted buffer) = some id)
    (hseq : t.server.markerSequence = s.server.markerSequence + 1) (hev : t.events = s.events) :
    Issues s s' [id] := by
  rcases sendText_session h with rfl | rfl
  · exact ⟨hseq, [], by rw [hev, List.append_nil], List.nil_sublist _⟩
  · refine ⟨hseq, [.paste target pasted buffer], by rw [← hev]; rfl, ?_⟩
    rw [List.filterMap_cons_some hid]
    exact List.Sublist.refl _

theorem ensureJjmcpRuntime_issues (pid : Nat) (a : InstallAnswers) (b : Binding) {s : Session}
    (hc : RuntimeCache.isCurrent s.cache (boundTarget b) a.generation = false) :
    Issues s (ensureJjmcpRuntime pid a b s).1 [makeMarkerId a.micros pid (s.server.markerSequence + 1)] := by
  rcases ensureJjmcpRuntime_session pid a b s with ⟨hcurrent, _⟩ | ⟨_, s', r, hsend, h⟩
  · cases hc.symm.trans hcurrent
  · have hissues := sendText_issues (s := s) hsend rfl rfl rfl
    rcases h with h | h
    · rw [h]
      exact hissues
    · rw [h]
      exact hissues

theorem pastedId_wrapper (target code : Text) (m : Marker) (timeoutMs : Nat) (buffer : Text) :
    pastedId (.paste target (.wrapper (wrapJuliaCode code m timeoutMs)) buffer) = some m.id := by
  rw [pastedId, literalAfter_wrapJuliaCode]

theorem runMarkerEval_issues (pid : Nat) (a : PassAnswers) (b : Binding) (c : EvalCall) (detect : Bool) (s : Session) :
    Issues s (runMarkerEval pid a b c detect s).1 [(nextMarkerId pid a s).2] := by
  obtain ⟨r, hsend⟩ := runMarkerEval_session pid a b c detect s
  exact sendText_issues hsend (pastedId_wrapper _ _ _ _ _) rfl rfl

theorem Run.issues {pid : Nat} {s s' : Session} {ids : List Text} (h : Run pid s ids s') : Issues s s' ids := by
  induction h with
  | start => exact Issues.same rfl rfl
  | bootstrap a b _ hc ih => exact ih.trans (ensureJjmcpRuntime_issues pid a b hc)
  | pass a b c detect _ ih => exact ih.trans (runMarkerEval_issues pid a b c detect _)
  | other _ hq ih =>
      have hall := ih.trans hq
      rwa [List.append_nil] at hall

/-- The ids are what some clock readings give from the counter on. -/
def Clocked (pid : Nat) (s : Session) (ids : List Text) : Prop :=
  ∃ readings, readings.length = ids.length ∧ ids = issued pid (UInt64.ofNat s.server.markerSequence) readings

/-- The next number of the server is the next one of the counter of 64 bits. -/
theorem Clocked.concat {pid : Nat} {s s' : Session} {ids : List Text} (hids : Clocked pid s ids)
    (h : Issues s s' ids) (hlen : s.server.markerSequence + ids.length + 1 < 2 ^ 64) (micros : Nat) :
    Clocked pid s (ids ++ [makeMarkerId micros pid (s'.server.markerSequence + 1)]) := by
  obtain ⟨readings, hreadings, hids⟩ := hids
  have hone : (1 : UInt64) = UInt64.ofNat 1 := rfl
  have hnext :
      (UInt64.ofNat s.server.markerSequence + UInt64.ofNat ids.length + 1).toNat = s'.server.markerSequence + 1 := by
    rw [hone, ← UInt64.ofNat_add, ← UInt64.ofNat_add, UInt64.toNat_ofNat_of_lt' hlen, h.1]
  refine ⟨readings ++ [micros], by simp [hreadings], ?_⟩
  rw [issued_concat, hreadings, hnext, ← hids]

/-- While the counter does not overflow, a run issues what its clock readings give. -/
theorem Run.issued {pid : Nat} {s s' : Session} {ids : List Text} (h : Run pid s ids s')
    (hlen : s.server.markerSequence + ids.length < 2 ^ 64) : Clocked pid s ids := by
  induction h with
  | start => exact ⟨[], rfl, rfl⟩
  | bootstrap a b h hc ih =>
      rw [List.length_append, List.length_singleton] at hlen
      exact (ih (by omega)).concat h.issues hlen a.micros
  | pass a b c detect h ih =>
      rw [List.length_append, List.length_singleton] at hlen
      exact (ih (by omega)).concat h.issues hlen a.micros
  | other _ _ ih => exact ih hlen

theorem Run.generator {pid : Nat} {s s' : Session} {ids : List Text} (h : Run pid s ids s') :
    ∀ id ∈ ids, ∃ micros sequence, id = makeMarkerId micros pid sequence := by
  induction h with
  | start => simp
  | bootstrap a b _ _ ih =>
      intro id hid
      rcases List.mem_append.mp hid with hid | hid
      · exact ih id hid
      · exact ⟨_, _, List.mem_singleton.mp hid⟩
  | pass a b c detect _ ih =>
      intro id hid
      rcases List.mem_append.mp hid with hid | hid
      · exact ih id hid
      · exact ⟨_, _, List.mem_singleton.mp hid⟩
  | other _ _ ih => exact ih

theorem Run.trans {pid : Nat} {s s' t : Session} {ids ids' : List Text} (h : Run pid s ids s') (h' : Run pid s' ids' t) :
    Run pid s (ids ++ ids') t := by
  induction h' with
  | start => rwa [List.append_nil]
  | bootstrap a b _ hc ih =>
      rw [← List.append_assoc]
      exact ih.bootstrap a b hc
  | pass a b c detect _ ih =>
      rw [← List.append_assoc]
      exact ih.pass a b c detect
  | other _ hq ih => exact ih.other hq

/-- The session moves on by a run of the server. -/
def Moves (pid : Nat) (s s' : Session) : Prop := ∃ ids, Run pid s ids s'

theorem Moves.trans {pid : Nat} {s s' t : Session} (h : Moves pid s s') (h' : Moves pid s' t) : Moves pid s t := by
  obtain ⟨ids, hrun⟩ := h
  obtain ⟨ids', hrun'⟩ := h'
  exact ⟨ids ++ ids', hrun.trans hrun'⟩

theorem Moves.quiet {pid : Nat} {s s' : Session} (h : Issues s s' []) : Moves pid s s' := ⟨[], Run.start.other h⟩

theorem Moves.same {pid : Nat} {s s' : Session} (hseq : s'.server.markerSequence = s.server.markerSequence)
    (hev : s'.events = s.events) : Moves pid s s' := .quiet (.same hseq hev)

theorem Moves.record {pid : Nat} {s : Session} {e : Event} (he : pastedId e = none) : Moves pid s (record s e) := by
  refine .quiet ⟨rfl, [e], rfl, ?_⟩
  rw [List.filterMap_cons_none he]
  exact List.Sublist.refl _

theorem ensureJjmcpRuntime_moves (pid : Nat) (a : InstallAnswers) (b : Binding) (s : Session) :
    Moves pid s (ensureJjmcpRuntime pid a b s).1 := by
  cases hc : RuntimeCache.isCurrent s.cache (boundTarget b) a.generation with
  | false => exact ⟨_, Run.start.bootstrap a b hc⟩
  | true =>
      rw [ensureJjmcpRuntime, if_pos hc]
      exact .same rfl rfl

theorem runMarkerEval_moves (pid : Nat) (a : PassAnswers) (b : Binding) (c : EvalCall) (detect : Bool) (s : Session) :
    Moves pid s (runMarkerEval pid a b c detect s).1 := ⟨_, Run.start.pass a b c detect⟩

theorem moves_framed (pid : Nat) : Framed pid (Moves pid) where
  same := .same
  trans := .trans
  bootstrap := ensureJjmcpRuntime_moves pid
  pass := runMarkerEval_moves pid

theorem routeSocket_moves (json : JsonLib) (a : EvalAnswers) (b : Binding) (c : EvalCall) (s : Session) :
    Moves a.pid s (routeSocket json a b c s).1 := by
  rw [routeSocket]
  split
  · exact .same rfl rfl
  · split
    · rw [recordRequest]
      dsimp only
      split
      · exact .same rfl rfl
      · exact .record rfl
    · split
      · exact .same rfl rfl
      · exact .same rfl rfl

theorem checkPaneMode_moves (a : EvalAnswers) (b : Binding) (force : Bool) (s : Session) :
    Moves a.pid s (checkPaneMode a b force s).1 := by
  unfold checkPaneMode
  split
  · exact .same rfl rfl
  · split
    · exact .same rfl rfl
    · split
      · have hkey : Moves a.pid s (record s (.key (boundTarget b) (lit "BSpace"))) := .record rfl
        dsimp only
        split
        · exact hkey
        · split
          · exact hkey
          · exact hkey
      · exact .same rfl rfl

theorem evalCode_moves (json : JsonLib) (a : EvalAnswers) (c : EvalCall) (s : Session) :
    Moves a.pid s (evalCode json a c s).1 := by
  have hcode : Moves a.pid s { s with lastCode := c.code } := .same rfl rfl
  rw [evalCode]
  dsimp only
  split
  · exact hcode
  next b _ =>
    split
    · exact hcode
    · split
      · have hframed := moves_framed a.pid
        apply hcode.trans
        apply hframed.andThen (routeSocket_moves json a b c _)
        apply hframed.andThen (checkPaneMode_moves a b c.force _)
        exact hframed.markerPath b c _
      · exact hcode

theorem evalIn_moves (json : JsonLib) (a : CallAnswers) (c : EvalCall) (d : Dispatcher) :
    Moves a.eval.pid d.session (evalIn json a c d).1.session := evalCode_moves json a.eval c d.session

theorem eval_moves (json : JsonLib) (a : CallAnswers) (args : Json) (progressActive : Bool) (d : Dispatcher) :
    Moves a.eval.pid d.session (eval json a args progressActive d).1.session := by
  unfold eval
  split
  · exact .same rfl rfl
  · split
    · exact .same rfl rfl
    · split
      · exact .same rfl rfl
      · unfold evalWith
        dsimp only
        split
        · exact .same rfl rfl
        · split
          · exact .same rfl rfl
          · exact .same rfl rfl
          · exact evalIn_moves json a _ d

theorem bind_moves (cwd : Path) (a : CallAnswers) (args : Json) (d : Dispatcher) :
    Moves a.eval.pid d.session (Tools.bind cwd a args d).1.session := by
  unfold Tools.bind
  split
  · exact .same rfl rfl
  · dsimp only
    split
    · exact .same rfl rfl
    · split
      · exact .same rfl rfl
      · exact .same rfl rfl

theorem activate_moves (json : JsonLib) (a : CallAnswers) (args : Json) (progressActive : Bool) (d : Dispatcher) :
    Moves a.eval.pid d.session (activate json a args progressActive d).1.session := by
  unfold activate
  split
  · exact .same rfl rfl
  · exact evalIn_moves json a _ d

theorem transcriptTool_session (json : JsonLib) (cwd : Path) (args : Json) (d : Dispatcher) :
    (transcriptTool json cwd args d).1.session = d.session := by
  unfold transcriptTool
  dsimp only
  split_ifs <;> simp

theorem interrupt_moves (a : CallAnswers) (d : Dispatcher) : Moves a.eval.pid d.session (interrupt a d).1.session := by
  unfold interrupt
  split
  · exact .same rfl rfl
  next b _ =>
    have hkey : Moves a.eval.pid d.session (record d.session (.key (boundTarget b) (lit "C-c"))) := .record rfl
    dsimp only
    split
    · exact hkey
    · exact hkey

theorem ite_moves {pid : Nat} {s : Session} {c : Prop} [Decidable c] {p q : Dispatcher × Reply}
    (hp : Moves pid s p.1.session) (hq : Moves pid s q.1.session) : Moves pid s (if c then p else q).1.session := by
  split
  · exact hp
  · exact hq

theorem dispatch_moves (json : JsonLib) (cwd : Path) (c : ToolCall) (d : Dispatcher) :
    Moves c.answers.eval.pid d.session (dispatch json cwd c d).1.session := by
  have hsame : Moves c.answers.eval.pid d.session d.session := .same rfl rfl
  refine ite_moves hsame ?_
  refine ite_moves (bind_moves cwd c.answers _ d) ?_
  refine ite_moves hsame ?_
  refine ite_moves (eval_moves json c.answers _ _ d) ?_
  refine ite_moves hsame ?_
  refine ite_moves hsame ?_
  refine ite_moves (interrupt_moves c.answers d) ?_
  refine ite_moves (evalIn_moves json c.answers _ d) ?_
  refine ite_moves (activate_moves json c.answers _ _ d) ?_
  refine ite_moves (evalIn_moves json c.answers _ d) ?_
  refine ite_moves (evalIn_moves json c.answers _ d) ?_
  refine ite_moves ?_ hsame
  rw [transcriptTool_session]
  exact hsame

theorem recordTranscript_session (c : ToolCall) (r : ToolResult) (d : Dispatcher) :
    (recordTranscript c r d).session = d.session := by
  unfold recordTranscript append
  split_ifs <;> rfl

theorem call_moves (json : JsonLib) (cwd : Path) (c : ToolCall) (d : Dispatcher) :
    Moves c.answers.eval.pid d.session (call json cwd c d).1.session := by
  have hclear : Moves c.answers.eval.pid d.session { d.session with lastCode := [] } := .same rfl rfl
  have h := hclear.trans (dispatch_moves json cwd c { d with session := { d.session with lastCode := [] } })
  unfold call
  split
  next he =>
    rw [he] at h
    rw [afterLog_fst, recordTranscript_session]
    exact h
  next he => rwa [he] at h

/-- Whatever tools are called, in whatever order, the server's session is one of its runs. -/
theorem calls_run (json : JsonLib) (cwd : Path) {pid : Nat} {cs : List ToolCall}
    (hpid : ∀ c ∈ cs, c.answers.eval.pid = pid) (d : Dispatcher) :
    ∃ ids, Run pid d.session ids (cs.foldl (fun d c => (call json cwd c d).1) d).session := by
  induction cs generalizing d with
  | nil => exact ⟨[], .start⟩
  | cons c cs ih =>
      have hfirst : Moves pid d.session (call json cwd c d).1.session := hpid c (by simp) ▸ call_moves json cwd c d
      exact hfirst.trans (ih (fun x hx => hpid x (by simp [hx])) _)

/-- In a run with fewer ids than the counter has values no id comes twice, nor
does one come from a server with another pid, whatever the clocks show; and no
string of a marker stands in another string of it or in one of another marker. -/
theorem marker_ids_never_collide :
    (∀ (pid : Nat) (s s' : Session) (ids : List Text), Run pid s ids s' → s.server.markerSequence = 0 →
      ids.length < 2 ^ 64 →
      (∃ readings, ids = issued pid 0 readings) ∧ ids.Nodup ∧ ∀ id ∈ ids, GeneratorForm id) ∧
    (∀ (pid pid' : Nat) (s s' t t' : Session) (ids ids' : List Text), Run pid s ids s' → Run pid' t ids' t' →
      pid ≠ pid' → ∀ id ∈ ids, id ∉ ids') ∧
    (∀ i j : Marker, GeneratorForm i.id → GeneratorForm j.id → i ≠ j → ∀ k l, ¬ markerText i k <:+: markerText j l) ∧
    (∀ i : Marker, GeneratorForm i.id → ∀ k l, k ≠ l → ¬ markerText i k <:+: markerText i l) := by
  refine ⟨?_, ?_, ?_, ?_⟩
  · intro pid s s' ids h hzero hlen
    obtain ⟨readings, hreadings, hids⟩ := h.issued (by rw [hzero]; omega)
    rw [hzero] at hids
    refine ⟨⟨readings, hids⟩, hids ▸ issued_nodup pid _ (by omega), ?_⟩
    intro id hid
    obtain ⟨micros, sequence, rfl⟩ := h.generator id hid
    exact generatorForm_makeMarkerId micros pid sequence
  · intro pid pid' s s' t t' ids ids' h h' hne id hid hid'
    obtain ⟨_, _, he⟩ := h.generator id hid
    obtain ⟨_, _, he'⟩ := h'.generator id hid'
    exact hne (makeMarkerId_inj (he.symm.trans he')).2.1
  · intro i j hi hj hne k l h
    exact hne (markerText_inside hi hj h).1
  · intro i hi k l hne h
    exact hne (markerText_inside hi hi h).2

def freshSession : Session := { server := { configPath := ⟨true, []⟩ } }

def paneBinding : Binding := ⟨lit "%3", lit "%3", [], []⟩

/-- A bootstrap and two passes at one and the same reading of the clock. -/
theorem marker_ids_never_collide_clock :
    [makeMarkerId 7 41 1, makeMarkerId 7 41 2, makeMarkerId 7 41 3].Nodup := by
  have hstart : Run 41 freshSession [] freshSession := .start
  have hbootstrap := hstart.bootstrap { generation := [], micros := 7 } paneBinding rfl
  have hpasses := (hbootstrap.pass { micros := 7 } paneBinding { code := [] } true).pass { micros := 7 } paneBinding
    { code := [] } false
  exact (marker_ids_never_collide.1 41 freshSession _ _ hpasses rfl (by simp)).2.1

end JJMCP.MarkerIds
