import JJMCP.Emission
import JJMCP.SocketClient
import JJMCP.Truncate

namespace JJMCP

/-- TailByteBuffer of the helper. -/
structure TailByteBuffer where
  data : Text := []
  omittedBytes : Nat := 0
  maxBytes : Nat
  deriving DecidableEq, Repr

/-- What evaluated code ends in: a value and how it is shown, none for nothing,
or an exception. -/
inductive Ending
  | returned (shown : Option Text)
  | threw (message backtrace : Text)
  deriving DecidableEq, Repr

/-- An evaluation that prints to stdout only, with the chunks in which its output
leaves a pipe. -/
structure Evaluation where
  printed : List Text
  ending : Ending
  deriving DecidableEq, Repr

end JJMCP

namespace JJMCP.HelperOutput

open Text Truncate

def hiddenNote : Text := lit "[JJMCP truncated: output hidden because max byte count is 0]"

def omittedNote (bytes : Nat) : Text :=
  lit "[JJMCP truncated: omitted " ++ (decimal bytes ++ (lit " earlier byte(s)]" ++ [nl]))

/-- How many bytes go: at least start, and no continuation byte comes first. -/
def cutStart (text : Text) (start : Nat) : Nat := start + ((text.drop start).takeWhile isUtf8Continuation).length

/-- _append_tail! -/
def appendTail (tail : TailByteBuffer) (chunk : Text) : TailByteBuffer :=
  if tail.maxBytes = 0 then { tail with omittedBytes := tail.omittedBytes + chunk.length, data := [] }
  else
    let data := tail.data ++ chunk
    if data.length ≤ tail.maxBytes then { tail with data }
    else
      let start := cutStart data (data.length - tail.maxBytes)
      { tail with omittedBytes := tail.omittedBytes + start, data := data.drop start }

/-- _tail_string -/
def tailString (tail : TailByteBuffer) : Text :=
  if tail.maxBytes = 0 then hiddenNote
  else if tail.omittedBytes = 0 then tail.data
  else omittedNote tail.omittedBytes ++ tail.data

/-- _drain_pipe_tail, without the echo. -/
def drainPipeTail (chunks : List Text) (maxBytes : Nat) : Text :=
  tailString (chunks.foldl appendTail { maxBytes })

/-- _truncate_bytes_tail of the helper -/
def truncateTail (text : Text) (maxBytes : Nat) : Text :=
  if maxBytes = 0 then hiddenNote
  else if text.length ≤ maxBytes then text
  else
    let start := cutStart text (text.length - maxBytes)
    omittedNote start ++ text.drop start

def output (ev : Evaluation) : Text := ev.printed.flatten

/-- The response of _run_eval. -/
def runEval (ev : Evaluation) (maxOutputBytes : Nat) (elapsedMs : Int) : SocketEvalResponse :=
  let stdoutText := drainPipeTail ev.printed maxOutputBytes
  let stderrText := drainPipeTail [] maxOutputBytes
  match ev.ending with
  | .returned shown =>
      { ok := true, stdoutText, stderrText, elapsedMs
        valueShow := truncateTail (shown.getD []) maxOutputBytes
        errorMessage := truncateTail [] maxOutputBytes
        backtrace := truncateTail [] maxOutputBytes }
  | .threw message backtrace =>
      { ok := false, stdoutText, stderrText, elapsedMs
        valueShow := truncateTail [] maxOutputBytes
        errorMessage := truncateTail message maxOutputBytes
        backtrace := truncateTail backtrace maxOutputBytes }

/-- What run_command prints for the same evaluation; it closes the value, the
message and the backtrace with println. -/
def emission (ev : Evaluation) : Emission :=
  match ev.ending with
  | .returned none => .value (output ev) []
  | .returned (some shown) => .value (output ev) (shown ++ [nl])
  | .threw message backtrace => .error (output ev) (message ++ [nl]) (backtrace ++ [nl])

theorem truncateTail_fits {text : Text} {maxBytes : Nat} (hpos : 0 < maxBytes) (h : text.length ≤ maxBytes) :
    truncateTail text maxBytes = text := by
  rw [truncateTail, if_neg (by omega), if_pos h]

/-- While everything fits, the buffer holds everything. -/
theorem foldl_appendTail_fits {maxBytes : Nat} (hpos : 0 < maxBytes) (chunks : List Text) (data : Text)
    (h : (data ++ chunks.flatten).length ≤ maxBytes) :
    chunks.foldl appendTail { data, maxBytes } = { data := data ++ chunks.flatten, maxBytes } := by
  induction chunks generalizing data with
  | nil => simp
  | cons chunk chunks ih =>
      rw [List.flatten_cons, ← List.append_assoc] at h ⊢
      have hchunk : (data ++ chunk).length ≤ maxBytes := by
        rw [List.length_append] at h
        omega
      rw [List.foldl_cons, appendTail, if_neg (by dsimp only; omega)]
      dsimp only
      rw [if_pos hchunk]
      exact ih _ h

theorem drainPipeTail_fits {chunks : List Text} {maxBytes : Nat} (hpos : 0 < maxBytes)
    (h : chunks.flatten.length ≤ maxBytes) : drainPipeTail chunks maxBytes = chunks.flatten := by
  rw [drainPipeTail, foldl_appendTail_fits hpos chunks [] (by simpa using h), tailString,
    if_neg (by dsimp only; omega), if_pos rfl, List.nil_append]

end JJMCP.HelperOutput
