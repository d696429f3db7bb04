import JJMCP.HelperOutput
import JJMCP.Lib.Interleave

namespace JJMCP

/-- What one evaluation printed, as it left the two pipes, what it ended in and
how long it took. -/
structure Evaluated where
  stdoutChunks : List Text
  stderrChunks : List Text
  ending : Ending
  elapsedMs : Nat
  elapsed_lt : elapsedMs < 9223372036854775808 := by decide

/-- What Julia does for one request: the evaluation, whose value may fail to be shown in
either form, or what Pkg prints or fails with. -/
structure Work where
  evaluated : Evaluated
  showError : Option Text := none
  pkgStatus : Except (Text × Text) Text := .ok []

/-- The JSON package of the helper, and the text of the exception that a call of
a method ends in for an argument it does not take. -/
structure HelperEnv where
  json3 : JsonLib
  showerror : Text → Json → Text

inductive HelperOp
  | eval (code : Text) (maxOutputBytes : Int)
  | ping
  | pkgStatus
  | unknown (op : Text)
  deriving DecidableEq, Repr

inductive HandlerPhase
  | reading
  | handling (line : Text)
  | writing (rest : Text)
  | closed
  deriving DecidableEq, Repr

/-- A connection from both ends: what the client has sent, what of it the handler
has not read, the lines the handler took and those it answered, and what is on
its way to the client or has arrived there. -/
structure Connection where
  sent : Text := []
  inbound : Text := []
  hungUp : Bool := false
  phase : HandlerPhase := .reading
  requests : List Text := []
  answers : List (Text × Work) := []
  outbound : Text := []
  received : Text := []

inductive ConnectionAction
  | send (bytes : Text)
  | hangUp
  | readLine
  | respond (work : Work)
  | write (n : Nat)
  | receive (n : Nat)
  | fail

end JJMCP

namespace JJMCP.HelperServer

open Lib.Occurrence Lib.Lines Lib.Runs Lib.Interleave Text HelperOutput

/-- get of a JSON object; other values have no such method. -/
def requestGet (env : HelperEnv) (request : Json) (key : Text) (default : Json) : Except Text Json :=
  match request with
  | .obj fields => .ok ((fields.lookup key).getD default)
  | j => .error (env.showerror (lit "get") j)

def asString (env : HelperEnv) : Json → Except Text Text
  | .str t => .ok t
  | j => .error (env.showerror (lit "String") j)

def InInt64 (n : Int) : Prop := -9223372036854775808 ≤ n ∧ n < 9223372036854775808

instance (n : Int) : Decidable (InInt64 n) := inferInstanceAs (Decidable (_ ∧ _))

def asInt (env : HelperEnv) : Json → Except Text Int
  | .int n => if InInt64 n then .ok n else .error (env.showerror (lit "Int64") (.int n))
  | .float q => if q.den = 1 ∧ InInt64 q.num then .ok q.num else .error (env.showerror (lit "Int64") (.float q))
  | .bool b => .ok (if b then 1 else 0)
  | j => .error (env.showerror (lit "Int64") j)

def defaultMaxOutputBytes : Int := 262144

/-- The arguments of op eval, in the order in which they are read. -/
def evalOp (env : HelperEnv) (request : Json) : Except Text HelperOp := do
  let maxOutputBytes ← (requestGet env request (lit "max_output_bytes") (.int defaultMaxOutputBytes)).bind (asInt env)
  let code ← (requestGet env request (lit "code") (.str [])).bind (asString env)
  return .eval code maxOutputBytes

/-- The operation that _handle_request finds in a request, with its arguments. -/
def requestOp (env : HelperEnv) (request : Json) : Except Text HelperOp :=
  match (requestGet env request (lit "op") (.str [])).bind (asString env) with
  | .error e => .error e
  | .ok op =>
      if op = lit "eval" then evalOp env request
      else if op = lit "ping" then .ok .ping
      else if op = lit "pkg_status" then .ok .pkgStatus
      else .ok (.unknown op)

/-- The response of _run_eval. -/
def runEvalJson (ev : Evaluated) (maxOutputBytes : Int) : Json :=
  let bytes := maxOutputBytes.toNat
  let (ok, valueShow, errMsg, errBt) :=
    match ev.ending with
    | .returned shown => (true, shown.getD [], [], [])
    | .threw message backtrace => (false, [], message, backtrace)
  .obj
    [(lit "backtrace", .str (truncateTail errBt bytes)), (lit "elapsed_ms", .int ev.elapsedMs),
     (lit "error_message", .str (truncateTail errMsg bytes)), (lit "ok", .bool ok),
     (lit "stderr", .str (drainPipeTail ev.stderrChunks bytes)), (lit "stdout", .str (drainPipeTail ev.stdoutChunks bytes)),
     (lit "value_show", .str (truncateTail valueShow bytes))]

/-- _run_pkg_status -/
def pkgStatusJson : Except (Text × Text) Text → Json
  | .ok stdout => .obj [(lit "ok", .bool true), (lit "stdout", .str stdout)]
  | .error (message, backtrace) =>
      .obj [(lit "backtrace", .str backtrace), (lit "error_message", .str message), (lit "ok", .bool false)]

def failure (kind : String) (message : Text) : Json :=
  .obj [(lit "error_kind", .str (lit kind)), (lit "error_message", .str message), (lit "ok", .bool false)]

/-- _run_eval, which throws when the second show of the value does. -/
def runEval (work : Work) (maxOutputBytes : Int) : Except Text Json :=
  match work.showError with
  | some what => .error what
  | none => .ok (runEvalJson work.evaluated maxOutputBytes)

def perform (work : Work) : HelperOp → Except Text Json
  | .eval _ maxOutputBytes => runEval work maxOutputBytes
  | .ping => .ok (.obj [(lit "ok", .bool true), (lit "pong", .bool true)])
  | .pkgStatus => .ok (pkgStatusJson work.pkgStatus)
  | .unknown op => .ok (failure "unknown_op" (lit "unknown op: " ++ op))

/-- _handle_request: a line that is no JSON is answered, an exception is not. -/
def handleRequest (env : HelperEnv) (work : Work) (line : Text) : Except Text Json :=
  match env.json3.parse line with
  | .error e => .ok (failure "parse" e)
  | .ok request => (requestOp env request).bind (perform work)

/-- An exception becomes a response too. -/
def answered : Except Text Json → Json
  | .ok r => r
  | .error e => failure "internal" e

/-- What _handle_client answers to a line. -/
def response (env : HelperEnv) (work : Work) (line : Text) : Json := answered (handleRequest env work line)

def frame (env : HelperEnv) (answer : Text × Work) : Text :=
  env.json3.dump (response env answer.2 answer.1) ++ [nl]

/-- What the code of a line is evaluated with, if it asks for that. -/
def evaluates (env : HelperEnv) (line : Text) : Option (Text × Int) :=
  match (env.json3.parse line).bind (requestOp env) with
  | .ok (.eval code maxOutputBytes) => some (code, maxOutputBytes)
  | _ => none

/-- readline: the end of the line goes, with the carriage return before it. -/
def chomp (line : Text) : Text := if line.getLast? = some cr then line.dropLast else line

/-- A line that is not empty is handled. -/
def takeLine (c : Connection) (line inbound : Text) : Connection :=
  if line = [] then { c with inbound }
  else { c with inbound, phase := .handling line, requests := c.requests ++ [line] }

/-- The steps of a client and of _handle_client. The handler waits while there is
no whole line, and takes an unfinished one only from a client that hung up. -/
def step (env : HelperEnv) (c : Connection) : ConnectionAction → Option Connection
  | .send bytes => if c.hungUp then none else some { c with sent := c.sent ++ bytes, inbound := c.inbound ++ bytes }
  | .hangUp => some { c with hungUp := true }
  | .readLine =>
      if c.phase = .reading then
        match find [nl] c.inbound with
        | some p => some (takeLine c (chomp (c.inbound.take p)) (c.inbound.drop (p + 1)))
        | none =>
            if c.hungUp = false then none
            else if c.inbound = [] then some { c with phase := .closed }
            else some (takeLine c c.inbound [])
      else none
  | .respond work =>
      match c.phase with
      | .handling line =>
          some { c with phase := .writing (frame env (line, work)), answers := c.answers ++ [(line, work)] }
      | _ => none
  | .write n =>
      match c.phase with
      | .writing rest =>
          if 0 < n ∧ n ≤ rest.length then
            some { c with
              outbound := c.outbound ++ rest.take n
              phase := if rest.drop n = [] then .reading else .writing (rest.drop n) }
          else none
      | _ => none
  | .receive n =>
      if 0 < n ∧ n ≤ c.outbound.length then
        some { c with received := c.received ++ c.outbound.take n, outbound := c.outbound.drop n }
      else none
  | .fail => some { c with phase := .closed }

/-- The connections of a helper, by number, each in the state it starts in. -/
def start : Nat → Connection := fun _ => {}

/-- The lines of a text that ask for something; the last one may be unfinished. -/
def requestLines (t : Text) : List Text :=
  ((closedLines nl [] t).map chomp ++ [openLine nl [] t]).filter (· ≠ [])

/-- The handler waits for the rest of a line. -/
def Waits (c : Connection) : Prop := c.phase = .reading ∧ nl ∉ c.inbound

/-- What the handler has taken of the bytes that were sent. -/
structure Consumed (c : Connection) (taken : Text) : Prop where
  sent : c.sent = taken ++ c.inbound
  whole : Terminated nl taken ∨ (c.hungUp = true ∧ c.inbound = [])
  requests : c.requests = requestLines taken

/-- Which lines are answered, and what of the answers is still to be written. -/
def Answered (env : HelperEnv) (c : Connection) : Prop :=
  match c.phase with
  | .reading => c.requests = c.answers.map Prod.fst ∧ c.received ++ c.outbound = c.answers.flatMap (frame env)
  | .handling line =>
      c.requests = c.answers.map Prod.fst ++ [line] ∧ c.received ++ c.outbound = c.answers.flatMap (frame env)
  | .writing rest =>
      c.requests = c.answers.map Prod.fst ∧ c.received ++ c.outbound ++ rest = c.answers.flatMap (frame env)
  | .closed =>
      c.answers.map Prod.fst <+: c.requests ∧ c.received ++ c.outbound <+: c.answers.flatMap (frame env)

structure Inv (env : HelperEnv) (c : Connection) : Prop where
  consumed : ∃ taken, Consumed c taken
  answered : Answered env c

theorem requestLines_append {a : Text} (ha : Terminated nl a) (b : Text) :
    requestLines (a ++ b) = requestLines a ++ requestLines b := by
  obtain ⟨hclosed, hopen⟩ := @lines_append _ nl _ [] a b
  rw [openLine_terminated ha] at hclosed hopen
  simp only [requestLines, hclosed, hopen, openLine_terminated ha, List.map_append, List.filter_append]
  simp

theorem requestLines_line {l : Text} (hl : nl ∉ l) :
    requestLines (l ++ [nl]) = if chomp l = [] then [] else [chomp l] := by
  have hopen : openLine nl [] (l ++ [nl]) = [] := openLine_terminated (terminated_concat l)
  rw [requestLines, closedLines_line hl, hopen]
  by_cases h : chomp l = []
  · simp [h]
  · simp [h]

theorem openLine_plain {l : Text} (hl : nl ∉ l) (line : Text) :
    closedLines nl line l = [] ∧ openLine nl line l = line ++ l := by
  induction l generalizing line with
  | nil => simp [closedLines, openLine]
  | cons c cs ih =>
      obtain ⟨hc, hcs⟩ := not_or.mp (mt List.mem_cons.mpr hl)
      simp [closedLines, openLine, Ne.symm hc, ih hcs]

theorem requestLines_open {l : Text} (hl : nl ∉ l) (hne : l ≠ []) : requestLines l = [l] := by
  obtain ⟨hclosed, hopen⟩ := openLine_plain hl []
  simp [requestLines, hclosed, hopen, hne]

theorem find_nl {t : Text} {p : Nat} (h : find [nl] t = some p) :
    nl ∉ t.take p ∧ t = t.take p ++ [nl] ++ t.drop (p + 1) := by
  obtain ⟨hp, ⟨rest, hrest⟩, hfirst⟩ := find_eq_some.mp h
  constructor
  · intro hmem
    obtain ⟨q, hq, he⟩ := List.mem_take_iff_getElem.mp hmem
    refine hfirst q (by omega) ⟨t.drop (q + 1), ?_⟩
    rw [← he, List.singleton_append, List.getElem_cons_drop]
  · have htail : t.drop (p + 1) = rest := by
      rw [← List.drop_drop, ← hrest]
      rfl
    rw [htail, List.append_assoc, hrest, List.take_append_drop]

/-- A line taken from the front of what is to be read. -/
theorem Inv.takeLine {env : HelperEnv} {c : Connection} (h : Inv env c) (hphase : c.phase = .reading)
    {line inbound taken t : Text} (hcons : Consumed c taken) (hsent : c.sent = t ++ inbound)
    (hwhole : Terminated nl t ∨ (c.hungUp = true ∧ inbound = []))
    (hlines : requestLines t = requestLines taken ++ if line = [] then [] else [line]) :
    Inv env (takeLine c line inbound) := by
  obtain ⟨hrequests, hwritten⟩ : c.requests = c.answers.map Prod.fst ∧
      c.received ++ c.outbound = c.answers.flatMap (frame env) := by
    have := h.answered
    rwa [Answered, hphase] at this
  unfold HelperServer.takeLine
  split
  next hline =>
    rw [if_pos hline, List.append_nil] at hlines
    refine ⟨⟨t, hsent, hwhole, hcons.requests.trans hlines.symm⟩, ?_⟩
    simpa only [Answered, hphase] using ⟨hrequests, hwritten⟩
  next hline =>
    rw [if_neg hline] at hlines
    refine ⟨⟨t, hsent, hwhole, ?_⟩, ?_⟩
    · change c.requests ++ [line] = _
      rw [hlines, hcons.requests]
    · exact ⟨congrArg (· ++ [line]) hrequests, hwritten⟩

theorem Inv.readLine {env : HelperEnv} {c c' : Connection} (h : Inv env c) (hstep : step env c .readLine = some c') :
    Inv env c' := by
  obtain ⟨taken, hcons⟩ := h.consumed
  have hwhole : c.inbound ≠ [] → Terminated nl taken := fun hne =>
    hcons.whole.elim id fun hend => absurd hend.2 hne
  simp only [step] at hstep
  split at hstep
  next hphase =>
    split at hstep
    next p hp =>
      obtain ⟨hline, hcut⟩ := find_nl hp
      obtain rfl := Option.some.inj hstep
      have hterm := hwhole (by
        rintro he
        simp [he] at hcut)
      have hnl : Terminated nl (c.inbound.take p ++ [nl]) := terminated_concat _
      refine h.takeLine hphase (t := taken ++ (c.inbound.take p ++ [nl])) hcons ?_ (.inl (hterm.append hnl)) ?_
      · rw [hcons.sent]
        conv_lhs => rw [hcut]
        simp only [List.append_assoc]
      · rw [requestLines_append hterm, requestLines_line hline]
    next hp =>
      have hline : nl ∉ c.inbound := by
        intro hmem
        obtain ⟨a, b, hab⟩ := List.append_of_mem hmem
        exact find_eq_none.mp hp ⟨a, b, by simp [hab]⟩
      split at hstep
      · cases hstep
      next hhung =>
        split at hstep
        next hempty =>
          obtain rfl := Option.some.inj hstep
          obtain ⟨hrequests, hwritten⟩ : c.requests = c.answers.map Prod.fst ∧
              c.received ++ c.outbound = c.answers.flatMap (frame env) := by
            have := h.answered
            rwa [Answered, hphase] at this
          exact ⟨⟨taken, hcons.sent, hcons.whole, hcons.requests⟩, hrequests ▸ List.prefix_rfl,
            hwritten ▸ List.prefix_rfl⟩
        next hne =>
          obtain rfl := Option.some.inj hstep
          have hterm := hwhole hne
          refine h.takeLine hphase (t := taken ++ c.inbound) hcons (by simpa using hcons.sent)
            (.inr ⟨by simpa using hhung, rfl⟩) ?_
          rw [requestLines_append hterm, requestLines_open hline hne, if_neg hne]
  · cases hstep

theorem Inv.respond {env : HelperEnv} {c c' : Connection} (h : Inv env c) {work : Work}
    (hstep : step env c (.respond work) = some c') : Inv env c' := by
  obtain ⟨taken, hcons⟩ := h.consumed
  have hanswered := h.answered
  simp only [step] at hstep
  split at hstep
  next line hphase =>
    obtain rfl := Option.some.inj hstep
    rw [Answered, hphase] at hanswered
    refine ⟨⟨taken, hcons.sent, hcons.whole, hcons.requests⟩, ?_⟩
    simp only [Answered, List.map_append, List.flatMap_append, hanswered]
    simp
  · cases hstep

theorem Inv.write {env : HelperEnv} {c c' : Connection} (h : Inv env c) {n : Nat}
    (hstep : step env c (.write n) = some c') : Inv env c' := by
  obtain ⟨taken, hcons⟩ := h.consumed
  have hanswered := h.answered
  simp only [step] at hstep
  split at hstep
  next rest hphase =>
    split at hstep
    · obtain rfl := Option.some.inj hstep
      rw [Answered, hphase] at hanswered
      obtain ⟨hrequests, hwritten⟩ := hanswered
      rw [← List.take_append_drop n rest, ← List.append_assoc, List.append_assoc c.received] at hwritten
      refine ⟨⟨taken, hcons.sent, hcons.whole, hcons.requests⟩, ?_⟩
      by_cases hdone : rest.drop n = []
      · rw [hdone, List.append_nil] at hwritten
        simpa only [Answered, hdone, if_true] using ⟨hrequests, hwritten⟩
      · simpa only [Answered, hdone, if_false] using ⟨hrequests, hwritten⟩
    · cases hstep
  · cases hstep

/-- Bytes that the client takes were on their way to it. -/
theorem Answered.receive {env : HelperEnv} {c : Connection} (h : Answered env c) (n : Nat) :
    Answered env { c with received := c.received ++ c.outbound.take n, outbound := c.outbound.drop n } := by
  simpa only [Answered, List.append_assoc, List.take_append_drop] using h

theorem Answered.closed {env : HelperEnv} {c : Connection} (h : Answered env c) :
    Answered env { c with phase := .closed } := by
  simp only [Answered] at h ⊢
  split at h
  · exact ⟨h.1 ▸ List.prefix_rfl, h.2 ▸ List.prefix_rfl⟩
  · exact ⟨h.1 ▸ List.prefix_append _ _, h.2 ▸ List.prefix_rfl⟩
  · exact ⟨h.1 ▸ List.prefix_rfl, h.2 ▸ List.prefix_append _ _⟩
  · exact h

theorem step_inv {env : HelperEnv} (c : Connection) (a : ConnectionAction) (c' : Connection) (h : Inv env c)
    (hstep : step env c a = some c') : Inv env c' := by
  obtain ⟨taken, hcons⟩ := h.consumed
  cases a with
  | send bytes =>
      simp only [step] at hstep
      split at hstep
      · cases hstep
      next hopen =>
        obtain rfl := Option.some.inj hstep
        refine ⟨⟨taken, ?_, .inl (hcons.whole.elim id fun hend => absurd hend.1 hopen), hcons.requests⟩, h.answered⟩
        rw [hcons.sent, List.append_assoc]
  | hangUp =>
      obtain rfl := Option.some.inj hstep
      exact ⟨⟨taken, hcons.sent, hcons.whole.imp_right fun hend => ⟨rfl, hend.2⟩, hcons.requests⟩, h.answered⟩
  | readLine => exact h.readLine hstep
  | respond work => exact h.respond hstep
  | write n => exact h.write hstep
  | receive n =>
      simp only [step] at hstep
      split at hstep
      · obtain rfl := Option.some.inj hstep
        exact ⟨⟨taken, hcons.sent, hcons.whole, hcons.requests⟩, h.answered.receive n⟩
      · cases hstep
  | fail =>
      obtain rfl := Option.some.inj hstep
      exact ⟨⟨taken, hcons.sent, hcons.whole, hcons.requests⟩, h.answered.closed⟩

theorem run_inv {env : HelperEnv} {as : List (Nat × ConnectionAction)} {t : Nat → Connection}
    (hrun : run (interleave (step env)) start as = some t) (k : Nat) : Inv env (t k) := by
  have hinit : Inv env {} := ⟨⟨[], rfl, .inl terminated_nil, rfl⟩, rfl, rfl⟩
  exact run_preserves step_inv hinit (run_own hrun k)

theorem Inv.answers {env : HelperEnv} {c : Connection} (h : Inv env c) :
    c.answers.map Prod.fst <+: c.requests ∧ c.received <+: c.answers.flatMap (frame env) := by
  have hanswered := h.answered
  simp only [Answered] at hanswered
  split at hanswered
  · exact ⟨hanswered.1 ▸ List.prefix_rfl, hanswered.2 ▸ List.prefix_append _ _⟩
  · exact ⟨hanswered.1 ▸ List.prefix_append _ _, hanswered.2 ▸ List.prefix_append _ _⟩
  · refine ⟨hanswered.1 ▸ List.prefix_rfl, ?_⟩
    rw [← hanswered.2, List.append_assoc]
    exact List.prefix_append _ _
  · exact ⟨hanswered.1, (List.prefix_append _ _).trans hanswered.2⟩

theorem Inv.requests {env : HelperEnv} {c : Connection} (h : Inv env c) : c.requests <+: requestLines c.sent := by
  obtain ⟨taken, hsent, hwhole, hrequests⟩ := h.consumed
  rw [hrequests, hsent]
  rcases hwhole with hterm | ⟨-, hnil⟩
  · rw [requestLines_append hterm]
    exact List.prefix_append _ _
  · rw [hnil, List.append_nil]

/-- Whatever any number of clients send, in whatever pieces, and however the
handlers take turns: a handler takes the lines of its own client that are not
empty, in order, and the client gets one response for each of them, in order.
Where a handler waits, every whole line is answered. -/
theorem each_line_answered_in_order {env : HelperEnv} {as : List (Nat × ConnectionAction)} {t : Nat → Connection}
    (hrun : run (interleave (step env)) start as = some t) (k : Nat) :
    (t k).requests <+: requestLines (t k).sent ∧ (t k).answers.map Prod.fst <+: (t k).requests ∧
      (t k).received <+: (t k).answers.flatMap (frame env) ∧
      (Waits (t k) → (t k).hungUp = false →
        (t k).answers.map Prod.fst = ((closedLines nl [] (t k).sent).map chomp).filter (· ≠ []) ∧
          (t k).received ++ (t k).outbound = (t k).answers.flatMap (frame env)) := by
  have h := run_inv hrun k
  refine ⟨h.requests, h.answers.1, h.answers.2, fun hwaits hopen => ?_⟩
  obtain ⟨hphase, hinbound⟩ := hwaits
  obtain ⟨taken, hsent, hwhole, hrequests⟩ := h.consumed
  have hanswered := h.answered
  rw [Answered, hphase] at hanswered
  refine ⟨?_, hanswered.2⟩
  have hterm : Terminated nl taken := hwhole.elim id fun hend => by simp [hopen] at hend
  rw [← hanswered.1, hrequests, hsent, requestLines, openLine_terminated hterm, closedLines_append_terminated _ hterm,
    (openLine_plain hinbound []).1]
  simp

def pingLine : Text := lit "\x7b\"op\":\"ping\"\x7d"

def pingEnv : HelperEnv where
  json3 := { parse := fun _ => .ok (.obj [(lit "op", .str (lit "ping"))])
             dump := fun _ => lit "\x7b\"ok\":true,\"pong\":true\x7d" }
  showerror := fun _ _ => []

def noWork : Work := { evaluated := { stdoutChunks := [], stderrChunks := [], ending := .returned none, elapsedMs := 0 } }

/-- Two clients by turns: the first sends its line in two pieces, the second
sends an empty line before its own. -/
def pingActions : List (Nat × ConnectionAction) :=
  [(0, .send (pingLine.take 4)), (1, .send (nl :: pingLine ++ [nl])), (1, .readLine), (0, .send (pingLine.drop 4 ++ [nl])),
   (0, .readLine), (1, .readLine), (1, .respond noWork), (0, .respond noWork), (0, .write 9), (1, .write 24),
   (0, .receive 9), (1, .receive 24)]

def pingState : Nat → Connection := (run (interleave (step pingEnv)) start pingActions).get (by decide +kernel)

theorem each_line_answered_in_order_ping :
    (pingState 1).requests <+: requestLines (pingState 1).sent ∧
      (pingState 1).answers.map Prod.fst <+: (pingState 1).requests ∧
      (pingState 1).received <+: (pingState 1).answers.flatMap (frame pingEnv) ∧
      (pingState 1).answers.map Prod.fst = [pingLine] := by
  obtain ⟨hrequests, hanswers, hreceived, hwaits⟩ :=
    each_line_answered_in_order (Option.some_get (by decide +kernel)).symm 1 (t := pingState)
  refine ⟨hrequests, hanswers, hreceived, ?_⟩
  rw [(hwaits (by unfold Waits; decide +kernel) (by decide +kernel)).1]
  decide +kernel

end JJMCP.HelperServer
