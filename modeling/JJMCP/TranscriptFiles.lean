import JJMCP.Recording
import JJMCP.TranscriptKeeps
import JJMCP.Lib.Runs

namespace JJMCP

/-- An entry, the server that wrote it to a file, in which format and how much of it. -/
structure WrittenEntry (I : Type) where
  writer : I
  format : TranscriptFormat
  bytes : Nat
  entry : TranscriptEntry

/-- The servers of one machine and the files their transcripts go to, with the
entries each file got since it was last emptied or moved away. -/
structure TranscriptFiles (I F : Type) where
  files : F → Text
  dispatcher : I → Dispatcher
  since : F → List (WrittenEntry I) := fun _ => []

/-- A tool call, with how many bytes of its entry get into the file, and a file
that somebody else empties or moves away. -/
inductive TranscriptAction (I F : Type)
  | call (i : I) (c : ToolCall) (bytes : Nat)
  | rotate (f : F)

end JJMCP

namespace JJMCP.TranscriptFiles

open Lib.Lines Lib.Runs Text Config EvalCode Tools Recording TranscriptKeeps

/-- The text as a block of lines of its own. -/
def block (text : Text) : Text := if text = [] ∨ text.getLast? = some nl then text else text ++ [nl]

def jsonEmpty : Json → Bool
  | .null | .obj [] | .arr [] => true
  | _ => false

def entryJson (e : TranscriptEntry) : Json :=
  .obj ((if e.code = [] then [(lit "arguments", if e.arguments.isNull then .obj [] else e.arguments)]
      else [(lit "code", .str e.code)]) ++
    [(lit "elapsed_ms", .int e.elapsedMs), (lit "ok", .bool (!e.isError)), (lit "output", .str (capOutput e.output)),
     (lit "seq", .int e.sequence), (lit "target", .str e.target), (lit "tool", .str e.tool)] ++
    (if e.transport = [] then [] else [(lit "transport", .str e.transport)]) ++ [(lit "ts", .str e.timestamp)])

def entryText (json : JsonLib) (e : TranscriptEntry) : Text :=
  lit "==== " ++ e.timestamp ++ lit " #" ++ decimal e.sequence ++ lit " " ++ e.tool ++
    (if e.target = [] then [] else lit " pane " ++ e.target) ++ lit " ====\n" ++
    (if e.code ≠ [] then lit ">>> code\n" ++ block e.code
     else if jsonEmpty e.arguments then []
     else lit ">>> arguments " ++ json.dump e.arguments ++ lit "\n") ++
    lit "<<< " ++ (if e.isError then lit "error" else lit "ok") ++ lit ", " ++ decimal e.elapsedMs ++ lit " ms" ++
    (if e.transport = [] then [] else lit ", " ++ e.transport) ++ lit "\n" ++ block (capOutput e.output) ++ lit "\n"

def formatTranscriptEntry (json : JsonLib) (e : TranscriptEntry) : TranscriptFormat → Text
  | .Jsonl => json.dump (entryJson e) ++ [nl]
  | .Text => entryText json e

variable {I F : Type} [DecidableEq I] [DecidableEq F] (json : JsonLib) (cwd : I → Path) (file : I → Text → F)

def writtenText (x : WrittenEntry I) : Text := formatTranscriptEntry json x.entry x.format

def piece (x : WrittenEntry I) : Text := (writtenText json x).take x.bytes

/-- All of the entry got into the file. -/
def Intact (x : WrittenEntry I) : Prop := (writtenText json x).length ≤ x.bytes

instance (x : WrittenEntry I) : Decidable (Intact json x) := inferInstanceAs (Decidable (_ ≤ _))

def calledTool (s : TranscriptFiles I F) (i : I) (c : ToolCall) : Dispatcher := (call json (cwd i) c (s.dispatcher i)).1

/-- What the call has appended to the transcript. -/
def recorded (s : TranscriptFiles I F) (i : I) (c : ToolCall) (bytes : Nat) : List (WrittenEntry I) :=
  let d := calledTool json cwd s i c
  (d.appended.drop (s.dispatcher i).appended.length).map (WrittenEntry.mk i d.transcript.format bytes)

/-- Transcript::append opens the file at its end, writes the entry with one call
and closes it again. -/
def step (s : TranscriptFiles I F) : TranscriptAction I F → Option (TranscriptFiles I F)
  | .call i c bytes =>
      let d := calledTool json cwd s i c
      let f := file i d.transcript.path
      let new := recorded json cwd s i c bytes
      some
        { files := Function.update s.files f (s.files f ++ new.flatMap (piece json))
          dispatcher := Function.update s.dispatcher i d
          since := Function.update s.since f (s.since f ++ new.filter (piece json · ≠ [])) }
  | .rotate f => some { s with files := Function.update s.files f [], since := Function.update s.since f [] }

/-- The write takes all of the entry, and nobody else touches the files. -/
def Undisturbed (s : TranscriptFiles I F) : TranscriptAction I F → Prop
  | .call i c bytes => ∀ x ∈ recorded json cwd s i c bytes, Intact json x
  | .rotate _ => False

section Call

variable {json}

theorem recordTranscript_adds (c : ToolCall) (r : ToolResult) (d : Dispatcher) :
    ∃ new, (recordTranscript c r d).appended = d.appended ++ new := by
  unfold recordTranscript append
  split
  · split
    · exact ⟨[], by simp⟩
    · exact ⟨_, rfl⟩
  · exact ⟨[], by simp⟩

/-- A call only adds to what was appended, whether it ends, throws or still waits. -/
theorem call_adds (p : Path) (c : ToolCall) (d : Dispatcher) :
    (∃ new, (call json p c d).1.appended = d.appended ++ new) ∧ (Numbered d → Numbered (call json p c d).1) := by
  have hdispatch := dispatch_dispatched json p c { d with session := { d.session with lastCode := [] } }
  unfold call
  split
  next d' r he =>
    rw [he] at hdispatch
    have happended : d'.appended = d.appended := hdispatch.appended
    rw [afterLog_fst]
    refine ⟨happended ▸ recordTranscript_adds c r d', fun hd => recordTranscript_numbered ?_ c r⟩
    exact ⟨by rw [hdispatch.sequence, happended]; exact hd.sequence, by rw [happended]; exact hd.entries⟩
  next d' reply hne he =>
    rw [he] at hdispatch
    have happended : d'.appended = d.appended := hdispatch.appended
    refine ⟨⟨[], by rw [happended, List.append_nil]⟩, fun hd => ?_⟩
    exact ⟨by rw [hdispatch.sequence, happended]; exact hd.sequence, by rw [happended]; exact hd.entries⟩

end Call

section Run

variable {json cwd file} {first : F → Text} {s t : TranscriptFiles I F}

def byWriter (i : I) (xs : List (WrittenEntry I)) : List TranscriptEntry :=
  (xs.filter (·.writer = i)).map WrittenEntry.entry

/-- Each file holds what was written to it, in the order it was written. -/
structure Faithful (json : JsonLib) (first : F → Text) (s : TranscriptFiles I F) : Prop where
  text : ∀ f, ∃ base, (base = first f ∨ base = []) ∧ s.files f = base ++ (s.since f).flatMap (piece json)
  own : ∀ f i, (byWriter i (s.since f)).Sublist (s.dispatcher i).appended
  numbered : ∀ i, Numbered (s.dispatcher i)

omit [DecidableEq I] in
theorem flatMap_piece_filter (xs : List (WrittenEntry I)) :
    (xs.filter (piece json · ≠ [])).flatMap (piece json) = xs.flatMap (piece json) := by
  induction xs with
  | nil => rfl
  | cons x xs ih =>
      by_cases hx : piece json x = []
      · simpa [hx] using ih
      · simpa [hx] using ih

theorem byWriter_append (i : I) (xs ys : List (WrittenEntry I)) :
    byWriter i (xs ++ ys) = byWriter i xs ++ byWriter i ys := by
  simp [byWriter]

theorem byWriter_map_self (i : I) (format : TranscriptFormat) (bytes : Nat) (es : List TranscriptEntry) :
    byWriter i (es.map (WrittenEntry.mk i format bytes)) = es := by
  induction es with
  | nil => rfl
  | cons e es ih => simpa [byWriter] using ih

theorem byWriter_map_other {i j : I} (h : j ≠ i) (format : TranscriptFormat) (bytes : Nat) (es : List TranscriptEntry) :
    byWriter i (es.map (WrittenEntry.mk j format bytes)) = [] := by
  simp [byWriter, h]

theorem byWriter_sublist (i : I) {xs ys : List (WrittenEntry I)} (h : xs.Sublist ys) :
    (byWriter i xs).Sublist (byWriter i ys) :=
  (h.filter _).map _

omit [DecidableEq I] [DecidableEq F] in
theorem recorded_map {i : I} {c : ToolCall} {new : List TranscriptEntry} (bytes : Nat)
    (hnew : (calledTool json cwd s i c).appended = (s.dispatcher i).appended ++ new) :
    recorded json cwd s i c bytes =
      new.map (WrittenEntry.mk i (calledTool json cwd s i c).transcript.format bytes) := by
  rw [recorded, hnew, List.drop_left]

omit [DecidableEq F] in
theorem own_grows {i : I} {c : ToolCall} (bytes : Nat) {xs : List (WrittenEntry I)}
    (hxs : ∀ j, (byWriter j xs).Sublist (s.dispatcher j).appended) (j : I) :
    (byWriter j xs).Sublist (Function.update s.dispatcher i (calledTool json cwd s i c) j).appended ∧
      (byWriter j (xs ++ (recorded json cwd s i c bytes).filter (piece json · ≠ []))).Sublist
        (Function.update s.dispatcher i (calledTool json cwd s i c) j).appended := by
  obtain ⟨⟨new, hnew⟩, _⟩ := @call_adds json (cwd i) c (s.dispatcher i)
  have hfilter := byWriter_sublist j (List.filter_sublist (p := (piece json · ≠ [])) (l := recorded json cwd s i c bytes))
  rw [byWriter_append]
  rw [recorded_map bytes hnew] at hfilter ⊢
  by_cases hj : j = i
  · subst hj
    rw [byWriter_map_self] at hfilter
    rw [Function.update_self, calledTool, hnew]
    exact ⟨(hxs j).trans (List.sublist_append_left _ _), (hxs j).append hfilter⟩
  · rw [byWriter_map_other (Ne.symm hj), List.sublist_nil] at hfilter
    rw [Function.update_of_ne hj, hfilter, List.append_nil]
    exact ⟨hxs j, hxs j⟩

theorem step_faithful {a : TranscriptAction I F} (h : Faithful json first s)
    (hstep : step json cwd file s a = some t) : Faithful json first t := by
  cases a with
  | rotate f =>
      obtain rfl := Option.some.inj hstep
      refine ⟨fun g => ?_, fun g i => ?_, h.numbered⟩
      · by_cases hg : g = f
        · exact ⟨[], .inr rfl, by simp [hg]⟩
        · simpa [Function.update_of_ne hg] using h.text g
      · by_cases hg : g = f
        · simp [hg, byWriter]
        · simpa [Function.update_of_ne hg] using h.own g i
  | call i c bytes =>
      obtain rfl := Option.some.inj hstep
      have hown := fun g => @own_grows _ _ _ json cwd s i c bytes _ (h.own g)
      refine ⟨fun g => ?_, fun g j => ?_, fun j => ?_⟩
      · obtain ⟨base, hbase, hfile⟩ := h.text g
        refine ⟨base, hbase, ?_⟩
        dsimp only
        by_cases hg : g = file i (calledTool json cwd s i c).transcript.path
        · subst hg
          rw [Function.update_self, Function.update_self, hfile, List.flatMap_append, flatMap_piece_filter,
            List.append_assoc]
        · rw [Function.update_of_ne hg, Function.update_of_ne hg, hfile]
      · dsimp only
        by_cases hg : g = file i (calledTool json cwd s i c).transcript.path
        · subst hg
          rw [Function.update_self]
          exact (hown _ j).2
        · rw [Function.update_of_ne hg]
          exact (hown g j).1
      · dsimp only
        by_cases hj : j = i
        · subst hj
          rw [Function.update_self]
          exact (call_adds (cwd j) c (s.dispatcher j)).2 (h.numbered j)
        · rw [Function.update_of_ne hj]
          exact h.numbered j

/-- Every entry is in a file. -/
def Complete (s : TranscriptFiles I F) : Prop := ∀ i, ∀ e ∈ (s.dispatcher i).appended, ∃ f, e ∈ byWriter i (s.since f)

omit [DecidableEq I] in
theorem writtenText_terminated (x : WrittenEntry I) : ∃ l, writtenText json x = l ++ [nl] := by
  unfold writtenText formatTranscriptEntry
  split
  · exact ⟨_, rfl⟩
  · exact ⟨_, rfl⟩

omit [DecidableEq I] in
theorem piece_intact {x : WrittenEntry I} (h : Intact json x) : piece json x = writtenText json x :=
  List.take_of_length_le h

omit [DecidableEq I] in
theorem piece_ne_nil {x : WrittenEntry I} (h : Intact json x) : piece json x ≠ [] := by
  obtain ⟨l, hl⟩ := @writtenText_terminated _ json x
  rw [piece_intact h, hl]
  simp

theorem step_complete {a : TranscriptAction I F} (h : Complete s) (hwhole : Undisturbed json cwd s a)
    (hstep : step json cwd file s a = some t) : Complete t := by
  cases a with
  | rotate f => exact hwhole.elim
  | call i c bytes =>
      obtain rfl := Option.some.inj hstep
      obtain ⟨⟨new, hnew⟩, _⟩ := @call_adds json (cwd i) c (s.dispatcher i)
      let f := file i (calledTool json cwd s i c).transcript.path
      have hfilter : (recorded json cwd s i c bytes).filter (piece json · ≠ []) = recorded json cwd s i c bytes :=
        List.filter_eq_self.mpr fun x hx => decide_eq_true (piece_ne_nil (hwhole x hx))
      intro j e he
      dsimp only at he ⊢
      rw [hfilter]
      have hold : e ∈ (s.dispatcher j).appended →
          ∃ g, e ∈ byWriter j (Function.update s.since f (s.since f ++ recorded json cwd s i c bytes) g) := by
        intro he
        obtain ⟨g, hg⟩ := h j e he
        by_cases hgf : g = f
        · exact ⟨f, by rw [Function.update_self, byWriter_append, ← hgf]; exact List.mem_append_left _ hg⟩
        · exact ⟨g, by rwa [Function.update_of_ne hgf]⟩
      by_cases hj : j = i
      · subst hj
        rw [Function.update_self, calledTool, hnew] at he
        rcases List.mem_append.mp he with he | he
        · exact hold he
        · refine ⟨f, ?_⟩
          rw [Function.update_self, byWriter_append, recorded_map bytes hnew, byWriter_map_self]
          exact List.mem_append_right _ he
      · rw [Function.update_of_ne hj] at he
        exact hold he

end Run

/-- The lines an entry stands on. -/
def entryLines (x : WrittenEntry I) : List Text :=
  match x.format with
  | .Jsonl => [json.dump (entryJson x.entry)]
  | .Text => closedLines nl [] (entryText json x.entry)

def started (first : F → Text) (session : I → Session) (path : I → Text) (format : I → TranscriptFormat) :
    TranscriptFiles I F :=
  { files := first, dispatcher := fun i => start (session i) (path i) (format i) }

section Lines

variable {json}

omit [DecidableEq I] in
theorem writtenText_lines (hdump : ∀ j, nl ∉ json.dump j) (x : WrittenEntry I) :
    closedLines nl [] (writtenText json x) = entryLines json x := by
  unfold writtenText formatTranscriptEntry entryLines
  split
  · exact closedLines_line (hdump _) []
  · rfl

omit [DecidableEq I] in
/-- An entry that follows a whole one starts a line. -/
theorem terminated_pieces {base : Text} {xs : List (WrittenEntry I)} (hbase : xs = [] → Terminated nl base)
    (hlast : ∀ y ∈ xs.getLast?, Intact json y) : Terminated nl (base ++ xs.flatMap (piece json)) := by
  rcases List.eq_nil_or_concat xs with rfl | ⟨ys, y, rfl⟩
  · simpa using hbase rfl
  · obtain ⟨l, hl⟩ := @writtenText_terminated _ json y
    have hy : piece json y = l ++ [nl] := by
      rw [piece_intact (hlast y (by simp)), hl]
    rw [List.concat_eq_append, List.flatMap_append, List.flatMap_singleton, hy, ← List.append_assoc, ← List.append_assoc]
    exact terminated_concat _

end Lines

/-- Whatever the servers that write to a file do and however much of an entry gets
into it, an entry that is whole and follows a whole one, or the line end of what the file
held, stands on lines of its own; each server's entries are in the order of their numbers,
and where nothing disturbs the writes all of them are in a file. -/
theorem transcript_lines (hdump : ∀ j, nl ∉ json.dump j) (first : F → Text) (session : I → Session) (path : I → Text)
    (format : I → TranscriptFormat) {t : TranscriptFiles I F} {as : List (TranscriptAction I F)}
    (hrun : run (step json cwd file) (started first session path format) as = some t) :
    (∀ f, ∃ base, (base = first f ∨ base = []) ∧ t.files f = base ++ (t.since f).flatMap (piece json) ∧
      (∀ pre x post, t.since f = pre ++ x :: post → Intact json x → (pre = [] → Terminated nl base) →
        (∀ y ∈ pre.getLast?, Intact json y) → lines nl (t.files f) =
          lines nl (base ++ pre.flatMap (piece json)) ++ entryLines json x ++ lines nl (post.flatMap (piece json))) ∧
      ∀ i, (byWriter i (t.since f)).Sublist (t.dispatcher i).appended ∧
        ((t.dispatcher i).appended.length < 2 ^ 64 → Increasing (byWriter i (t.since f)))) ∧
    (Meets (step json cwd file) (Undisturbed json cwd) (started first session path format) as → Complete t) := by
  have hstart : Faithful json first (started (I := I) first session path format) := by
    refine ⟨fun f => ⟨first f, .inl rfl, ?_⟩, fun f i => List.Sublist.refl _, fun i => start_numbered _ _ _⟩
    exact (List.append_nil _).symm
  have hfaithful : Faithful json first t := run_preserves (fun _ _ _ => step_faithful) hstart hrun
  refine ⟨fun f => ?_, fun hwhole => ?_⟩
  · obtain ⟨base, hbase, hfile⟩ := hfaithful.text f
    refine ⟨base, hbase, hfile, fun pre x post hsince hx hend hlast => ?_, fun i => ?_⟩
    · have hpre : Terminated nl (base ++ pre.flatMap (piece json)) := terminated_pieces hend hlast
      have htext : Terminated nl (writtenText json x) := .inr (writtenText_terminated x)
      have hall : t.files f = (base ++ pre.flatMap (piece json)) ++ (writtenText json x ++ post.flatMap (piece json)) := by
        rw [hfile, hsince, List.flatMap_append, List.flatMap_cons, piece_intact hx, List.append_assoc]
      rw [hall, lines_append_terminated _ hpre, lines_append_terminated _ htext, lines_terminated htext,
        writtenText_lines hdump, List.append_assoc]
    · have hown := hfaithful.own f i
      refine ⟨hown, fun hlen => ?_⟩
      have hincreasing : Increasing (t.dispatcher i).appended := (hfaithful.numbered i).increasing.mpr hlen
      exact hincreasing.sublist (hown.map _)
  · have hempty : Complete (started (I := I) first session path format) := fun i e he => absurd he List.not_mem_nil
    exact run_invariant (fun _ _ _ => step_complete) hempty hwhole hrun

def printedChar (c : UInt8) : Text :=
  if c = nl then lit "\\n" else if c = 34 then lit "\\\"" else if c = 92 then lit "\\\\" else [c]

mutual

def printed : Json → Text
  | .null => lit "null"
  | .bool b => if b then lit "true" else lit "false"
  | .int n => if n < 0 then lit "-" ++ decimal n.natAbs else decimal n.natAbs
  | .float _ => lit "0.0"
  | .str t => lit "\"" ++ t.flatMap printedChar ++ lit "\""
  | .arr items => lit "[" ++ printedItems items ++ lit "]"
  | .obj fields => lit "\x7b" ++ printedFields fields ++ lit "\x7d"

def printedItems : List Json → Text
  | [] => []
  | [j] => printed j
  | j :: js => printed j ++ lit "," ++ printedItems js

def printedFields : List (Text × Json) → Text
  | [] => []
  | [(key, j)] => lit "\"" ++ key.flatMap printedChar ++ lit "\":" ++ printed j
  | (key, j) :: fields => lit "\"" ++ key.flatMap printedChar ++ lit "\":" ++ printed j ++ lit "," ++ printedFields fields

end

def plainJson : JsonLib := { parse := fun _ => .error [], dump := fun j => (printed j).filter (· ≠ nl) }

def statusCall : ToolCall where
  name := lit "jjmcp_status"
  arguments := []
  answers := { eval := { paneInfo := .error [] }, paneInfo := .error [], timestamp := lit "2025-01-01 00:00:00" }

/-- Two servers and one file; only a part of the second entry gets into it. -/
def sharedActions : List (TranscriptAction Bool Text) :=
  [.call false statusCall 500, .call true statusCall 90, .call true statusCall 500, .call false statusCall 500]

def sharedStart : TranscriptFiles Bool Text :=
  started (fun _ => []) (fun _ => { server := { configPath := ⟨true, []⟩ } }) (fun _ => lit "/tmp/log") (fun _ => .Jsonl)

def sharedEnd : TranscriptFiles Bool Text :=
  (run (step plainJson (fun _ => ⟨true, []⟩) fun _ => id) sharedStart sharedActions).get (by decide +kernel)

theorem transcript_lines_shared :
    ∃ base, (base = [] ∨ base = []) ∧
      sharedEnd.files (lit "/tmp/log") = base ++ (sharedEnd.since (lit "/tmp/log")).flatMap (piece plainJson) ∧
      ∀ pre x post, sharedEnd.since (lit "/tmp/log") = pre ++ x :: post → Intact plainJson x →
        (pre = [] → Terminated nl base) → (∀ y ∈ pre.getLast?, Intact plainJson y) →
        lines nl (sharedEnd.files (lit "/tmp/log")) = lines nl (base ++ pre.flatMap (piece plainJson)) ++
          entryLines plainJson x ++ lines nl (post.flatMap (piece plainJson)) := by
  have hrun : run (step plainJson (fun _ => ⟨true, []⟩) fun _ => id) sharedStart sharedActions = some sharedEnd :=
    (Option.some_get _).symm
  have hdump : ∀ j, nl ∉ plainJson.dump j := fun j h => by simpa using (List.mem_filter.mp h).2
  obtain ⟨base, hbase, hfile, hlines, _⟩ :=
    (transcript_lines plainJson (fun _ => ⟨true, []⟩) (fun _ => id) hdump (fun _ => []) _ _ _ hrun).1 (lit "/tmp/log")
  exact ⟨base, hbase, hfile, hlines⟩

end JJMCP.TranscriptFiles
