import JJMCP.Json
import JJMCP.Lib.Occurrence

namespace JJMCP

structure SocketEvalResponse where
  ok : Bool
  stdoutText : Text
  stderrText : Text
  valueShow : Text
  errorMessage : Text
  backtrace : Text
  elapsedMs : Int
  deriving DecidableEq, Repr

/-- An answer of send: the bytes taken, or none of them and the error. -/
structure SendAnswer where
  bytes : Nat
  error : Text := []

/-- An answer of recv: the bytes read, none at the end of the stream. -/
inductive RecvAnswer
  | data (chunk : Text)
  | failed (wouldBlock : Bool) (error : Text)

structure SocketAnswers where
  created : Except Text Unit := .ok ()
  connected : Except Text Unit := .ok ()
  sends : List SendAnswer := []
  recvs : List RecvAnswer := []

structure Conversation where
  request : Text
  sent : Nat
  result : Option (Except Text SocketEvalResponse)

end JJMCP

namespace JJMCP.SocketClient

open Lib.Occurrence Text

def sunPathSize : Nat := 108

def defaultSocketPath (runtimeDir : Option Text) (paneId : Text) : Text :=
  let runtime := if runtimeDir.getD [] = [] then lit "/tmp" else runtimeDir.getD []
  let sanitized := paneId.filter (· ≠ 37)
  runtime ++ lit "/jjmcp-" ++ (if sanitized = [] then lit "default" else sanitized) ++ lit ".sock"

def requestJson (code : Text) (maxOutputBytes : Nat) : Json :=
  .obj [(lit "code", .str code), (lit "max_output_bytes", .int maxOutputBytes), (lit "op", .str (lit "eval"))]

def requestLine (json : JsonLib) (code : Text) (maxOutputBytes : Nat) : Text :=
  json.dump (requestJson code maxOutputBytes) ++ [nl]

/-- The bytes sent when the loop ends, and whether it failed; without an answer
it still waits. -/
def sendLoop (payload : Text) (sent : Nat) : List SendAnswer → Nat × Option (Except Text Unit)
  | [] => (sent, if payload.length ≤ sent then some (.ok ()) else none)
  | a :: as =>
      if payload.length ≤ sent then (sent, some (.ok ()))
      else if a.bytes = 0 then (sent, some (.error (lit "send(): " ++ a.error)))
      else sendLoop payload (sent + min a.bytes (payload.length - sent)) as

def recvLoop (buf : Text) : List RecvAnswer → Option (Except Text Text)
  | [] => (find [nl] buf).map fun p => .ok (buf.take p)
  | a :: as =>
      match find [nl] buf, a with
      | some p, _ => some (.ok (buf.take p))
      | none, .failed wouldBlock error =>
          some (.error (if wouldBlock then lit "socket read timed out" else lit "recv(): " ++ error))
      | none, .data chunk =>
          if chunk = [] then some (.error (lit "server closed the connection before responding"))
          else recvLoop (buf ++ chunk) as

def readResponse (doc : Json) : Except Text SocketEvalResponse := do
  let ok ← Json.value Json.readBool doc (lit "ok") false
  let stdoutText ← Json.value Json.readString doc (lit "stdout") []
  let stderrText ← Json.value Json.readString doc (lit "stderr") []
  let valueShow ← Json.value Json.readString doc (lit "value_show") []
  let errorMessage ← Json.value Json.readString doc (lit "error_message") []
  let backtrace ← Json.value Json.readString doc (lit "backtrace") []
  let elapsedMs ← Json.value Json.readLongLong doc (lit "elapsed_ms") 0
  return { ok, stdoutText, stderrText, valueShow, errorMessage, backtrace, elapsedMs }

def parseResponse (json : JsonLib) (line : Text) : Except Text SocketEvalResponse :=
  match (json.parse line).bind readResponse with
  | .ok r => .ok r
  | .error what => .error (lit "could not parse response JSON: " ++ what)

def eval (json : JsonLib) (a : SocketAnswers) (path code : Text) (maxOutputBytes : Nat) : Conversation :=
  let request := requestLine json code maxOutputBytes
  match a.created, a.connected with
  | .error e, _ => ⟨request, 0, some (.error (lit "socket(): " ++ e))⟩
  | .ok _, connected =>
      if sunPathSize ≤ path.length then
        ⟨request, 0, some (.error (lit "socket path exceeds sockaddr_un.sun_path: " ++ path))⟩
      else
        match connected with
        | .error e => ⟨request, 0, some (.error (lit "connect(" ++ path ++ lit "): " ++ e))⟩
        | .ok _ =>
            match sendLoop request 0 a.sends with
            | (sent, none) => ⟨request, sent, none⟩
            | (sent, some (.error e)) => ⟨request, sent, some (.error e)⟩
            | (sent, some (.ok _)) =>
                match recvLoop [] a.recvs with
                | none => ⟨request, sent, none⟩
                | some (.error e) => ⟨request, sent, some (.error e)⟩
                | some (.ok line) => ⟨request, sent, some (parseResponse json line)⟩

/-- The helper has the whole document: it also takes a last line without its end. -/
def Delivered (request : Text) (sent : Nat) : Prop := request.length ≤ sent + 1

instance (request : Text) (sent : Nat) : Decidable (Delivered request sent) :=
  inferInstanceAs (Decidable (_ ≤ _))

theorem sendLoop_done {payload : Text} {sent n : Nat} {as : List SendAnswer}
    (h : sendLoop payload sent as = (n, some (.ok ()))) : payload.length ≤ n := by
  induction as generalizing sent with
  | nil =>
      simp only [sendLoop, Prod.mk.injEq] at h
      obtain ⟨rfl, h⟩ := h
      by_contra hlt
      simp [hlt] at h
  | cons a as ih =>
      simp only [sendLoop] at h
      split at h
      next hle =>
        cases h
        exact hle
      next =>
        split at h
        · cases h
        · exact ih h

/-- A response is read only after the whole request has gone out. -/
theorem eval_delivered {json : JsonLib} {a : SocketAnswers} {path code : Text} {maxOutputBytes : Nat}
    {r : SocketEvalResponse} (h : (eval json a path code maxOutputBytes).result = some (.ok r)) :
    Delivered (eval json a path code maxOutputBytes).request (eval json a path code maxOutputBytes).sent := by
  simp only [eval] at h ⊢
  cases hcreated : a.created with
  | error e => simp [hcreated] at h
  | ok _ =>
      simp only [hcreated] at h ⊢
      by_cases hpath : sunPathSize ≤ path.length
      · simp [hpath] at h
      · simp only [if_neg hpath] at h ⊢
        cases hconnected : a.connected with
        | error e => simp [hconnected] at h
        | ok _ =>
            simp only [hconnected] at h ⊢
            rcases hs : sendLoop (requestLine json code maxOutputBytes) 0 a.sends with ⟨sent, _ | (e | _)⟩
            · simp [hs] at h
            · simp [hs] at h
            · have hlen := sendLoop_done hs
              simp only [hs] at h ⊢
              rcases hr : recvLoop [] a.recvs with _ | (e | line)
              · simp [hr] at h
              · simp [hr] at h
              · exact Nat.le_succ_of_le hlen

end JJMCP.SocketClient
