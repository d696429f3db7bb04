import JJMCP.CallLogs

namespace JJMCP

structure Finished where
  before : Dispatcher
  call : ToolCall
  after : Dispatcher
  reply : Except Text ToolResult

end JJMCP

namespace JJMCP.Recording

open Text Config EvalCode Tools CallLogs

def FlagOk (c : ToolCall) (key : String) : Prop :=
  ∀ v, (Json.obj c.arguments).get? (lit key) = some v → v.isBoolean = true

/-- No flag that the tool reads has another type. -/
def TypedFlags (c : ToolCall) (d : Dispatcher) : Prop :=
  (c.name = lit "jjmcp_eval" → (∃ code, (Json.obj c.arguments).requireString "code" = .ok code) →
    FlagOk c "force" ∧ FlagOk c "validate_syntax") ∧
  (c.name = lit "jjmcp_capture_test_results" → d.session.server.binding ≠ none →
    FlagOk c "require_summary" ∧ FlagOk c "include_raw")

/-- No log line before the recording carries a text that the strict printer refuses. -/
def LogsTaken (json : JsonLib) (cwd : Path) (c : ToolCall) (d : Dispatcher) : Prop :=
  Loggable json (callLogs json cwd c d)

def Disables (c : ToolCall) : Prop :=
  c.name = lit "jjmcp_transcript" ∧ formatKnown ((Json.obj c.arguments).optionalString "format" []) = true ∧
    turnsOff (.obj c.arguments) = true

/-- Calls one after the other; the first that does not end holds the rest up. -/
def trace (json : JsonLib) (cwd : Path) (d : Dispatcher) : List ToolCall → List Finished
  | [] => []
  | c :: cs =>
      match call json cwd c d with
      | (_, none) => []
      | (d', some reply) => ⟨d, c, d', reply⟩ :: trace json cwd d' cs

def final (json : JsonLib) (cwd : Path) (d : Dispatcher) : List ToolCall → Dispatcher
  | [] => d
  | c :: cs =>
      match call json cwd c d with
      | (_, none) => d
      | (d', some _) => final json cwd d' cs

/-- A call that starts with the transcript on and leaves it on has exactly one entry. -/
def Recorded (f : Finished) : Prop :=
  Transcript.enabled f.before.transcript = true → ¬ Disables f.call →
    ∃ e, f.after.appended = f.before.appended ++ [e] ∧ e.tool = f.call.name

def Increasing (es : List TranscriptEntry) : Prop := (es.map TranscriptEntry.sequence).Pairwise (· < ·)

def Keeps (d d' : Dispatcher) : Prop := d'.transcript = d.transcript ∧ d'.appended = d.appended

def Throws (p : Dispatcher × Reply) : Prop := Thrown p.2

structure Plain (d : Dispatcher) (p : Dispatcher × Reply) : Prop where
  keeps : Keeps d p.1
  total : ¬ Throws p

theorem Keeps.refl (d : Dispatcher) : Keeps d d := ⟨rfl, rfl⟩

theorem Plain.ret (d : Dispatcher) (r : ToolResult) : Plain d (d, ret r) :=
  ⟨Keeps.refl d, fun ⟨_, h⟩ => by cases h⟩

theorem Plain.fail (d : Dispatcher) (text : Text) : Plain d (d, fail text) := Plain.ret d _

theorem Plain.ite {d : Dispatcher} {c : Prop} [Decidable c] {p q : Dispatcher × Reply} (hp : c → Plain d p)
    (hq : ¬ c → Plain d q) : Plain d (if c then p else q) := by
  split
  next h => exact hp h
  next h => exact hq h

theorem Plain.waits (d : Dispatcher) : Plain d (d, none) := ⟨Keeps.refl d, not_thrown_none⟩

theorem listTmux_plain (a : CallAnswers) (d : Dispatcher) : Plain d (d, listTmux a) := by
  unfold listTmux
  split
  · exact Plain.fail d _
  · exact Plain.ret d _

theorem bind_plain (cwd : Path) (a : CallAnswers) (args : Json) (d : Dispatcher) :
    Plain d (Tools.bind cwd a args d) := by
  unfold Tools.bind
  split
  · exact Plain.fail d _
  · dsimp only
    split
    · exact Plain.fail d _
    · refine Plain.ite (fun _ => ?_) fun _ => Plain.fail d _
      exact ⟨Keeps.refl d, fun ⟨_, h⟩ => by cases h⟩

theorem status_plain (a : CallAnswers) (d : Dispatcher) : Plain d (d, status a d) := by
  unfold status
  dsimp only
  split
  · exact Plain.ret d _
  · split
    · exact Plain.ret d _
    · exact Plain.ret d _

theorem capture_plain (a : CallAnswers) (args : Json) (d : Dispatcher) : Plain d (d, capture a args d) := by
  unfold capture
  split
  · exact Plain.fail d _
  · split
    · exact Plain.fail d _
    · exact Plain.ret d _

theorem interrupt_plain (a : CallAnswers) (d : Dispatcher) : Plain d (interrupt a d) := by
  unfold interrupt
  split
  · exact Plain.fail d _
  · dsimp only
    split
    · exact ⟨⟨rfl, rfl⟩, not_thrown_ok _⟩
    · exact ⟨⟨rfl, rfl⟩, not_thrown_ok _⟩

theorem activate_plain (json : JsonLib) {c : ToolCall} {d : Dispatcher} (hname : c.name = lit "jjmcp_activate")
    (hnone : evalCallOf c d = none) : Plain d (activate json c.answers (.obj c.arguments) c.progressActive d) := by
  unfold activate
  cases hpath : (Json.obj c.arguments).requireString "path" with
  | error e => exact Plain.fail d e
  | ok path =>
      rw [evalCallOf, hname, if_neg (by decide), if_neg (by decide), if_pos rfl, hpath] at hnone
      cases hnone

/-- A tool that neither evaluates nor reads flags. -/
theorem dispatch_plain (json : JsonLib) (cwd : Path) {c : ToolCall} (d : Dispatcher) (hnone : evalCallOf c d = none)
    (heval : c.name ≠ lit "jjmcp_eval") (hresults : c.name ≠ lit "jjmcp_capture_test_results")
    (htranscript : c.name ≠ lit "jjmcp_transcript") : Plain d (dispatch json cwd c d) := by
  have hother {name : Text} {p : Dispatcher × Reply} (h : c.name = name)
      (hsome : ∀ c : ToolCall, c.name = name → evalCallOf c d ≠ none) : Plain d p := absurd hnone (hsome c h)
  refine Plain.ite (fun _ => listTmux_plain _ d) fun _ => ?_
  refine Plain.ite (fun _ => bind_plain _ _ _ d) fun _ => ?_
  refine Plain.ite (fun _ => status_plain _ d) fun _ => ?_
  refine Plain.ite (fun h => absurd h heval) fun _ => ?_
  refine Plain.ite (fun _ => capture_plain _ _ d) fun _ => ?_
  refine Plain.ite (fun h => absurd h hresults) fun _ => ?_
  refine Plain.ite (fun _ => interrupt_plain _ d) fun _ => ?_
  refine Plain.ite (fun h => hother h fun c hc => by simp +decide [evalCallOf, hc]) fun _ => ?_
  refine Plain.ite (fun h => activate_plain json h hnone) fun _ => ?_
  refine Plain.ite (fun h => hother h fun c hc => by simp +decide [evalCallOf, hc]) fun _ => ?_
  refine Plain.ite (fun h => hother h fun c hc => by simp +decide [evalCallOf, hc]) fun _ => ?_
  exact Plain.ite (fun h => absurd h htranscript) fun _ => Plain.fail d _

theorem dispatch_eval (json : JsonLib) (cwd : Path) {c : ToolCall} (d : Dispatcher) (h : c.name = lit "jjmcp_eval") :
    dispatch json cwd c d = eval json c.answers (.obj c.arguments) c.progressActive d := by
  unfold dispatch
  rw [h, if_neg (by decide), if_neg (by decide), if_neg (by decide), if_pos rfl]

theorem dispatch_results (json : JsonLib) (cwd : Path) {c : ToolCall} (d : Dispatcher)
    (h : c.name = lit "jjmcp_capture_test_results") :
    dispatch json cwd c d = (d, captureTestResults c.answers (.obj c.arguments) d) := by
  unfold dispatch
  rw [h, if_neg (by decide), if_neg (by decide), if_neg (by decide), if_neg (by decide), if_neg (by decide), if_pos rfl]

theorem dispatch_transcript (json : JsonLib) (cwd : Path) {c : ToolCall} (d : Dispatcher)
    (h : c.name = lit "jjmcp_transcript") :
    dispatch json cwd c d = transcriptTool json cwd (.obj c.arguments) d := by
  unfold dispatch
  rw [h, if_neg (by decide), if_neg (by decide), if_neg (by decide), if_neg (by decide), if_neg (by decide),
    if_neg (by decide), if_neg (by decide), if_neg (by decide), if_neg (by decide), if_neg (by decide),
    if_neg (by decide), if_pos rfl]

theorem flag_isOk (c : ToolCall) (key : String) (default : Bool) :
    (Json.value Json.readBool (.obj c.arguments) (lit key) default).isOk = true ↔ FlagOk c key := by
  simp only [FlagOk, Json.value_isOk, Json.readBool_isOk]

/-- Without an evaluation nothing is left but the reading of the flags. -/
theorem eval_throws (json : JsonLib) {c : ToolCall} {d : Dispatcher} (hnone : evalArguments c d = none) :
    Keeps d (eval json c.answers (.obj c.arguments) c.progressActive d).1 ∧
      (Throws (eval json c.answers (.obj c.arguments) c.progressActive d) ↔
        (∃ code, (Json.obj c.arguments).requireString "code" = .ok code) ∧
          ¬ (FlagOk c "force" ∧ FlagOk c "validate_syntax")) := by
  unfold evalArguments at hnone
  unfold eval
  rw [← flag_isOk c "force" false, ← flag_isOk c "validate_syntax" true]
  cases hcode : (Json.obj c.arguments).requireString "code" with
  | error e => exact ⟨Keeps.refl d, by simpa using (Plain.fail d e).total⟩
  | ok code =>
      cases hforce : Json.value Json.readBool (.obj c.arguments) (lit "force") false with
      | error what => exact ⟨Keeps.refl d, by simp [Throws, thrown_some, Except.isOk, Except.toBool]⟩
      | ok force =>
          cases hvalidate : Json.value Json.readBool (.obj c.arguments) (lit "validate_syntax") true with
          | error what => exact ⟨Keeps.refl d, by simp [Throws, thrown_some, Except.isOk, Except.toBool]⟩
          | ok validateSyntax =>
              have hplain : Plain d
                  (evalWith json c.answers (.obj c.arguments) c.progressActive code force validateSyntax d) := by
                simp only [hcode, hforce, hvalidate] at hnone
                refine Plain.ite (fun _ => Plain.fail d _) fun htransport => ?_
                rw [if_neg htransport] at hnone
                generalize (if validateSyntax then c.answers.validated else some (.ok ())) = valid at hnone ⊢
                rcases valid with _ | (e | _)
                · exact Plain.waits d
                · exact Plain.fail d _
                · cases hnone
              exact ⟨hplain.keeps, iff_of_false hplain.total (by simp [Except.isOk, Except.toBool])⟩

theorem captureTestResults_throws (c : ToolCall) (d : Dispatcher) :
    Throws (d, captureTestResults c.answers (.obj c.arguments) d) ↔
      d.session.server.binding ≠ none ∧ ¬ (FlagOk c "require_summary" ∧ FlagOk c "include_raw") := by
  unfold captureTestResults
  rw [← flag_isOk c "require_summary" false, ← flag_isOk c "include_raw" true]
  by_cases hb : d.session.server.binding = none
  · simpa [hb] using (Plain.fail d notBound).total
  · rw [if_neg hb]
    cases hrequire : Json.value Json.readBool (.obj c.arguments) (lit "require_summary") false with
    | error what => simp [Throws, thrown_some, hb, Except.isOk, Except.toBool]
    | ok requireSummary =>
        cases hraw : Json.value Json.readBool (.obj c.arguments) (lit "include_raw") true with
        | error what => simp [Throws, thrown_some, hb, Except.isOk, Except.toBool]
        | ok includeRaw =>
            refine iff_of_false ?_ (by simp [Except.isOk, Except.toBool])
            cases c.answers.captured with
            | error e => exact (Plain.fail d e).total
            | ok text =>
                dsimp only
                split
                · exact (Plain.ret d _).total
                · exact (Plain.ret d _).total

theorem transcriptPath_ne_nil (cwd : Path) {path : Text} (h : path ≠ []) : transcriptPath cwd path ≠ [] := by
  unfold transcriptPath
  split
  · exact h
  · simp [h]

structure TranscriptEffect (json : JsonLib) (cwd : Path) (args : Json) (d : Dispatcher) (p : Dispatcher × Reply) :
    Prop where
  sequence : p.1.transcript.sequence = d.transcript.sequence
  appended : p.1.appended = d.appended
  throws : Throws p ↔ ¬Loggable json (transcriptLogs cwd args d)
  off : Transcript.enabled d.transcript = true →
    (Transcript.enabled p.1.transcript = false ↔
      formatKnown (args.optionalString "format" []) = true ∧ turnsOff args = true)

theorem afterLog_thrown {json : JsonLib} {texts : List Text} {p : Dispatcher × Reply} (hp : ¬Throws p) :
    Throws (afterLog json texts p) ↔ ¬Loggable json texts := by
  rw [← logThrow_eq_none, afterLog]
  cases logThrow json texts with
  | none => simpa using hp
  | some what => simp [Throws, thrown_some]

theorem transcriptTool_effect (json : JsonLib) (cwd : Path) (args : Json) (d : Dispatcher) :
    TranscriptEffect json cwd args d (transcriptTool json cwd args d) := by
  have hreport : ∀ d', ∀ t : Transcript, ¬Throws (d', transcriptReport t) := fun d' t => (Plain.ret d' _).total
  have hquiet {p : Dispatcher × Reply} (hp : ¬Throws p)
      (hlogs : formatKnown (args.optionalString "format" []) = false ∨ turnsOff args = true ∨
        args.optionalString "path" [] = []) : Throws p ↔ ¬Loggable json (transcriptLogs cwd args d) := by
    have hnil : transcriptLogs cwd args d = [] := if_pos hlogs
    exact iff_of_false hp (not_not.mpr (hnil ▸ loggable_nil))
  unfold transcriptTool
  dsimp only
  split
  next hformat => exact ⟨rfl, rfl, hquiet (Plain.fail d _).total (.inl hformat), fun hon => by simp [hon, hformat]⟩
  next hformat =>
    have hknown : formatKnown (args.optionalString "format" []) = true := by simpa using hformat
    split
    next hoff =>
      exact ⟨rfl, rfl, hquiet (hreport _ _) (.inr (.inl hoff)), fun _ => by simp [Transcript.enabled, hknown, hoff]⟩
    next hoff =>
      split
      next hpath =>
        have hlogs : transcriptLogs cwd args d = [_, _] := if_neg (by simp [hformat, hoff, hpath])
        refine ⟨by rw [afterLog_fst], by rw [afterLog_fst], ?_, fun _ => ?_⟩
        · rw [hlogs]
          exact afterLog_thrown (hreport _ _)
        · rw [afterLog_fst]
          simp [Transcript.enabled, hoff, transcriptPath_ne_nil cwd hpath]
      next hpath =>
        have hpath : args.optionalString "path" [] = [] := by simpa using hpath
        split
        · split
          next henabled =>
            have hset : d.transcript.path ≠ [] := by simpa [Transcript.enabled] using henabled
            exact ⟨rfl, rfl, hquiet (hreport _ _) (.inr (.inr hpath)), fun _ => by simp [Transcript.enabled, hoff, hset]⟩
          next =>
            exact ⟨rfl, rfl, hquiet (Plain.fail d _).total (.inr (.inr hpath)), fun h => by simp [hoff, h]⟩
        · exact ⟨rfl, rfl, hquiet (hreport _ _) (.inr (.inr hpath)), fun h => by simp [hoff, h]⟩

/-- What a dispatch can do to the transcript, and when it throws. -/
structure Dispatched (json : JsonLib) (cwd : Path) (c : ToolCall) (d : Dispatcher) (p : Dispatcher × Reply) : Prop where
  sequence : p.1.transcript.sequence = d.transcript.sequence
  appended : p.1.appended = d.appended
  off : Transcript.enabled d.transcript = true → (Transcript.enabled p.1.transcript = false ↔ Disables c)
  throws : Throws p ↔ ¬(TypedFlags c d ∧ LogsTaken json cwd c d)

theorem Dispatched.of_keeps {json : JsonLib} {cwd : Path} {c : ToolCall} {d : Dispatcher} {p : Dispatcher × Reply}
    (hp : Keeps d p.1) (hname : c.name ≠ lit "jjmcp_transcript")
    (hthrows : Throws p ↔ ¬(TypedFlags c d ∧ LogsTaken json cwd c d)) : Dispatched json cwd c d p := by
  refine ⟨by rw [hp.1], hp.2, fun hon => ?_, hthrows⟩
  rw [hp.1, hon]
  exact iff_of_false (by simp) fun h => hname h.1

theorem typedFlags_eval {c : ToolCall} (d : Dispatcher) (h : c.name = lit "jjmcp_eval") :
    TypedFlags c d ↔ ((∃ code, (Json.obj c.arguments).requireString "code" = .ok code) →
      FlagOk c "force" ∧ FlagOk c "validate_syntax") := by
  have hother : c.name ≠ lit "jjmcp_capture_test_results" := by rw [h]; decide
  exact ⟨fun ht => ht.1 h, fun ht => ⟨fun _ => ht, fun hc => absurd hc hother⟩⟩

theorem typedFlags_results {c : ToolCall} (d : Dispatcher) (h : c.name = lit "jjmcp_capture_test_results") :
    TypedFlags c d ↔ (d.session.server.binding ≠ none →
      FlagOk c "require_summary" ∧ FlagOk c "include_raw") := by
  have hother : c.name ≠ lit "jjmcp_eval" := by rw [h]; decide
  exact ⟨fun ht => ht.2 h, fun ht => ⟨fun hc => absurd hc hother, fun _ => ht⟩⟩

theorem typedFlags_other {c : ToolCall} (d : Dispatcher) (heval : c.name ≠ lit "jjmcp_eval")
    (hresults : c.name ≠ lit "jjmcp_capture_test_results") : TypedFlags c d :=
  ⟨fun h => absurd h heval, fun h => absurd h hresults⟩

/-- An evaluation is run only when the flags read. -/
theorem typedFlags_evalCall {c : ToolCall} {d : Dispatcher} {call : EvalCall} (h : evalCallOf c d = some call) :
    TypedFlags c d := by
  by_cases heval : c.name = lit "jjmcp_eval"
  · rw [typedFlags_eval d heval, ← flag_isOk c "force" false, ← flag_isOk c "validate_syntax" true]
    rintro ⟨code, hcode⟩
    rw [evalCallOf, if_pos heval, evalArguments] at h
    cases hforce : Json.value Json.readBool (.obj c.arguments) (lit "force") false with
    | error what => simp [hcode, hforce] at h
    | ok force =>
        cases hvalidate : Json.value Json.readBool (.obj c.arguments) (lit "validate_syntax") true with
        | error what => simp [hcode, hforce, hvalidate] at h
        | ok validateSyntax => exact ⟨rfl, rfl⟩
  · refine typedFlags_other d heval fun hresults => ?_
    rw [evalCallOf, hresults] at h
    simp +decide at h

theorem logsTaken_quiet (json : JsonLib) (cwd : Path) {c : ToolCall} {d : Dispatcher} (hnone : evalCallOf c d = none)
    (hname : c.name ≠ lit "jjmcp_transcript") : LogsTaken json cwd c d := by
  rw [LogsTaken, callLogs, hnone]
  dsimp only
  rw [if_neg hname]
  exact loggable_nil

theorem dispatch_dispatched (json : JsonLib) (cwd : Path) (c : ToolCall) (d : Dispatcher) :
    Dispatched json cwd c d (dispatch json cwd c d) := by
  cases hcall : evalCallOf c d with
  | some call =>
      have hname : c.name ≠ lit "jjmcp_transcript" := by
        intro h
        rw [evalCallOf, h] at hcall
        simp +decide at hcall
      rw [dispatch_evalCall json cwd hcall]
      refine Dispatched.of_keeps (Keeps.refl d) hname ?_
      rw [and_iff_right (typedFlags_evalCall hcall), LogsTaken, callLogs, hcall]
      exact evalCode_thrown d.session
  | none =>
      by_cases heval : c.name = lit "jjmcp_eval"
      · have hnone : evalArguments c d = none := by rwa [evalCallOf, if_pos heval] at hcall
        have hname : c.name ≠ lit "jjmcp_transcript" := by rw [heval]; decide
        obtain ⟨hkeep, hthrows⟩ := eval_throws json hnone
        rw [dispatch_eval json cwd d heval]
        refine Dispatched.of_keeps hkeep hname ?_
        rw [and_iff_left (logsTaken_quiet json cwd hcall hname), typedFlags_eval d heval, hthrows, Classical.not_imp]
      by_cases hresults : c.name = lit "jjmcp_capture_test_results"
      · have hname : c.name ≠ lit "jjmcp_transcript" := by rw [hresults]; decide
        rw [dispatch_results json cwd d hresults]
        refine Dispatched.of_keeps (Keeps.refl d) hname ?_
        rw [and_iff_left (logsTaken_quiet json cwd hcall hname), typedFlags_results d hresults,
          captureTestResults_throws, Classical.not_imp]
      have htyped := typedFlags_other d heval hresults
      by_cases htranscript : c.name = lit "jjmcp_transcript"
      · have heffect := transcriptTool_effect json cwd (.obj c.arguments) d
        rw [dispatch_transcript json cwd d htranscript]
        refine ⟨heffect.sequence, heffect.appended, fun hon => ?_, ?_⟩
        · rw [heffect.off hon, Disables, and_iff_right htranscript]
        · rw [and_iff_right htyped, LogsTaken, callLogs, hcall]
          dsimp only
          rw [if_pos htranscript]
          exact heffect.throws
      · have hplain := dispatch_plain json cwd d hcall heval hresults htranscript
        refine Dispatched.of_keeps hplain.keeps htranscript (iff_of_false hplain.total (not_not.mpr ⟨htyped, ?_⟩))
        exact logsTaken_quiet json cwd hcall htranscript

/-- The entries are numbered from one, in 64 bits. -/
structure Numbered (d : Dispatcher) : Prop where
  sequence : d.transcript.sequence = d.appended.length % 2 ^ 64
  entries : d.appended.map TranscriptEntry.sequence = (List.range d.appended.length).map fun i => (i + 1) % 2 ^ 64

theorem Numbered.append {d : Dispatcher} (h : Numbered d) (e : TranscriptEntry) : Numbered (append e d) := by
  unfold Tools.append
  split
  · exact h
  · have hnext : (d.transcript.sequence + 1) % 2 ^ 64 = (d.appended.length + 1) % 2 ^ 64 := by
      rw [h.sequence]
      omega
    refine ⟨by simpa using hnext, ?_⟩
    simp only [List.map_append, h.entries, List.length_append, List.length_singleton, List.range_succ, hnext,
      List.map_cons, List.map_nil]

theorem Numbered.increasing {d : Dispatcher} (h : Numbered d) :
    Increasing d.appended ↔ d.appended.length < 2 ^ 64 := by
  rw [Increasing, h.entries, List.pairwise_map]
  constructor
  · intro hp
    by_contra hlen
    -- the entry with the number 2 ^ 64 is numbered 0 again
    have hlast := List.pairwise_iff_getElem.mp hp 0 (2 ^ 64 - 1) (by rw [List.length_range]; omega)
      (by rw [List.length_range]; omega) (by decide)
    simp only [List.getElem_range] at hlast
    omega
  · intro hlen
    refine List.Pairwise.imp_of_mem ?_ List.pairwise_lt_range
    intro i j hi hj hij
    have hi := List.mem_range.mp hi
    have hj := List.mem_range.mp hj
    omega

theorem recordTranscript_numbered {d : Dispatcher} (h : Numbered d) (c : ToolCall) (r : ToolResult) :
    Numbered (recordTranscript c r d) := by
  unfold recordTranscript
  split
  · exact h.append _
  · exact h

theorem recordTranscript_appended {d : Dispatcher} (hon : Transcript.enabled d.transcript = true) (c : ToolCall)
    (r : ToolResult) : ∃ e, (recordTranscript c r d).appended = d.appended ++ [e] ∧ e.tool = c.name := by
  have hpath : d.transcript.path ≠ [] := by simpa [Transcript.enabled] using hon
  rw [recordTranscript, if_pos hon, append, if_neg hpath]
  exact ⟨_, rfl, rfl⟩

/-- A call that has ended keeps the numbering, and is recorded exactly when no
flag it reads has another type and no log line before the recording throws. -/
theorem call_recorded {json : JsonLib} {cwd : Path} {c : ToolCall} {d d' : Dispatcher} {r : Except Text ToolResult}
    (h : call json cwd c d = (d', some r)) :
    (Numbered d → Numbered d') ∧ (Transcript.enabled d.transcript = true → ¬ Disables c →
      ((∃ e, d'.appended = d.appended ++ [e] ∧ e.tool = c.name) ↔ TypedFlags c d ∧ LogsTaken json cwd c d)) := by
  have hd := dispatch_dispatched json cwd c { d with session := { d.session with lastCode := [] } }
  have hthrows : Throws (dispatch json cwd c { d with session := { d.session with lastCode := [] } }) ↔
      ¬(TypedFlags c d ∧ LogsTaken json cwd c d) := hd.throws
  unfold call at h
  generalize dispatch json cwd c { d with session := { d.session with lastCode := [] } } = p at h hd hthrows
  obtain ⟨d1, reply⟩ := p
  have happ : d1.appended = d.appended := hd.appended
  have hnumbered : Numbered d → Numbered d1 := by
    intro hn
    exact ⟨by rw [hd.sequence, happ]; exact hn.sequence, by rw [happ]; exact hn.entries⟩
  rcases reply with _ | (what | r1)
  · cases h
  · obtain ⟨rfl, -⟩ := Prod.mk.inj h
    refine ⟨hnumbered, fun _ _ => iff_of_false ?_ (hthrows.mp (thrown_some what))⟩
    rintro ⟨e, he, _⟩
    rw [happ] at he
    simpa using congrArg List.length he
  · have hfst : d' = recordTranscript c r1 d1 :=
      (congrArg Prod.fst h).symm.trans (afterLog_fst json (writeLog c d1) (recordTranscript c r1 d1, some (.ok r1)))
    have hgood : TypedFlags c d ∧ LogsTaken json cwd c d := by
      by_contra hn
      exact not_thrown_ok r1 (hthrows.mpr hn)
    subst hfst
    refine ⟨fun hn => recordTranscript_numbered (hnumbered hn) c r1, fun hon hdis => iff_of_true ?_ hgood⟩
    have hon1 : Transcript.enabled d1.transcript = true := by
      by_contra hoff
      exact hdis ((hd.off hon).mp (by simpa using hoff))
    rw [← happ]
    exact recordTranscript_appended hon1 c r1

theorem mem_trace {json : JsonLib} {cwd : Path} {d : Dispatcher} {cs : List ToolCall} {f : Finished}
    (h : f ∈ trace json cwd d cs) : call json cwd f.call f.before = (f.after, some f.reply) := by
  induction cs generalizing d with
  | nil => simp [trace] at h
  | cons c cs ih =>
      unfold trace at h
      split at h
      · simp at h
      next d' reply hc =>
        rcases List.mem_cons.mp h with rfl | h
        · exact hc
        · exact ih h

theorem final_numbered {json : JsonLib} {cwd : Path} {d : Dispatcher} (hd : Numbered d) (cs : List ToolCall) :
    Numbered (final json cwd d cs) := by
  induction cs generalizing d with
  | nil => exact hd
  | cons c cs ih =>
      unfold final
      split
      · exact hd
      next d' reply hc => exact ih ((call_recorded hc).1 hd)

def start (session : Session) (path : Text) (format : TranscriptFormat) : Dispatcher :=
  { session, transcript := { path, format } }

theorem start_numbered (session : Session) (path : Text) (format : TranscriptFormat) :
    Numbered (start session path format) :=
  ⟨rfl, rfl⟩

/-- Every call that starts with the transcript on and leaves it on is recorded
once, under increasing numbers, exactly when none of them reads a flag of another
type or has a log line that throws, and the numbers do not run out. -/
theorem recorded_iff (json : JsonLib) (cwd : Path) (session : Session) (path : Text) (format : TranscriptFormat)
    (cs : List ToolCall) :
    ((∀ f ∈ trace json cwd (start session path format) cs, Recorded f) ∧
      Increasing (final json cwd (start session path format) cs).appended) ↔
    ((∀ f ∈ trace json cwd (start session path format) cs,
        Transcript.enabled f.before.transcript = true → ¬ Disables f.call →
          TypedFlags f.call f.before ∧ LogsTaken json cwd f.call f.before) ∧
      (final json cwd (start session path format) cs).appended.length < 2 ^ 64) := by
  refine and_congr ?_ (final_numbered (start_numbered session path format) cs).increasing
  refine forall₂_congr fun f hf => ?_
  have hcall := (call_recorded (mem_trace hf)).2
  exact forall₂_congr fun hon hdis => hcall hon hdis

def forcedCall : ToolCall where
  name := lit "jjmcp_eval"
  arguments := [(lit "code", .str (lit "1 + 1")), (lit "force", .str (lit "yes"))]
  answers := { eval := { paneInfo := .error [] }, paneInfo := .error [] }

def loggedStart : Dispatcher := start { server := { configPath := ⟨true, []⟩ } } (lit "/tmp/log") .Text

/-- What the parser says of a helper's answer that is the byte 255. -/
def refusedByte : Text :=
  lit "[json.exception.parse_error.101] parse error at line 1, column 1: syntax error while parsing value - " ++
    (lit "invalid literal; last read: '" ++ 255 :: lit "'")

def loggingJson : JsonLib where
  parse _ := .error refusedByte
  dump _ := lit "\x7b\"code\":\"1\",\"max_output_bytes\":245760,\"op\":\"eval\"\x7d"
  strictError _ := lit "[json.exception.type_error.316] invalid UTF-8 byte at index 161: 0xFF"
  logJson := true

def garbledCall : ToolCall where
  name := lit "jjmcp_eval"
  arguments := [(lit "code", .str (lit "1"))]
  answers :=
    { eval :=
        { paneInfo := .ok { paneId := lit "%3" }
          socketExists := true
          socket := { sends := [{ bytes := 100 }], recvs := [.data [255, nl]] } }
      paneInfo := .error [] }

def boundSession : Session where
  server := { binding := some { target := lit "%3", paneId := lit "%3", projectRoot := [] }, configPath := ⟨true, []⟩ }

def garbledStart : Dispatcher := start boundSession (lit "/tmp/log") .Text

/-- A flag of another type leaves a call out; with typed flags, and JSON log lines, so
does the log line of a helper's answer that is not UTF-8. -/
theorem not_recorded :
    (¬ ∀ (json : JsonLib) cwd session path format cs,
      (∀ f ∈ trace json cwd (start session path format) cs, Recorded f) ∧
        Increasing (final json cwd (start session path format) cs).appended) ∧
    ¬ ∀ (json : JsonLib) cwd session path format cs,
      (∀ f ∈ trace json cwd (start session path format) cs, TypedFlags f.call f.before) →
        ∀ f ∈ trace json cwd (start session path format) cs, Recorded f := by
  constructor
  · intro h
    have hrecorded := (h { parse := fun _ => .error [], dump := fun _ => [] } ⟨true, []⟩
      { server := { configPath := ⟨true, []⟩ } } (lit "/tmp/log") .Text [forcedCall]).1
      ⟨loggedStart, forcedCall, loggedStart, .error (Json.typeError "boolean" (.str (lit "yes")))⟩
      (List.mem_cons_self)
    obtain ⟨e, he, _⟩ := hrecorded rfl fun hd => absurd hd.1 (by decide)
    simpa using congrArg List.length he
  · intro h
    have hlost : (call loggingJson ⟨true, []⟩ garbledCall garbledStart).2.isSome = true ∧
        (call loggingJson ⟨true, []⟩ garbledCall garbledStart).1.appended.length = 0 := by
      decide +kernel
    rcases hcall : call loggingJson ⟨true, []⟩ garbledCall garbledStart with ⟨d, _ | reply⟩
    · simp [hcall] at hlost
    · have htrace : trace loggingJson ⟨true, []⟩ garbledStart [garbledCall] = [⟨garbledStart, garbledCall, d, reply⟩] := by
        rw [trace, hcall]
        rfl
      have htyped : TypedFlags garbledCall garbledStart := by
        have hflag (key : String) (hkey : (Json.obj garbledCall.arguments).get? (lit key) = none) :
            FlagOk garbledCall key := by
          intro v hv
          rw [hkey] at hv
          cases hv
        exact ⟨fun _ _ => ⟨hflag "force" (by decide), hflag "validate_syntax" (by decide)⟩,
          fun hname => absurd hname (by decide)⟩
      have hall : ∀ f ∈ trace loggingJson ⟨true, []⟩ garbledStart [garbledCall], TypedFlags f.call f.before := by
        rw [htrace]
        simpa using htyped
      have hrecorded := h loggingJson ⟨true, []⟩ boundSession (lit "/tmp/log") .Text [garbledCall] hall
        ⟨garbledStart, garbledCall, d, reply⟩ (by
          show _ ∈ trace loggingJson ⟨true, []⟩ garbledStart [garbledCall]
          rw [htrace]
          exact List.mem_cons_self)
      have hname : garbledCall.name ≠ lit "jjmcp_transcript" := by decide
      obtain ⟨e, he, _⟩ := hrecorded rfl fun hd => hname hd.1
      have hlength := congrArg List.length he
      rw [hcall] at hlost
      simp [hlost.2] at hlength

end JJMCP.Recording
