import JJMCP.Emission
import JJMCP.HelperServer

namespace JJMCP.HelperConversation

open Lib.Occurrence Lib.Lines Lib.Runs Lib.Interleave Text SocketClient HelperServer

/-- A JSON text on one line: it has a byte and no control byte. -/
def Compact (t : Text) : Prop := t ≠ [] ∧ ∀ c ∈ t, 32 ≤ c

instance (t : Text) : Decidable (Compact t) := inferInstanceAs (Decidable (_ ∧ _))

/-- The bytes that recv gave. -/
def chunks (recvs : List RecvAnswer) : Text :=
  recvs.flatMap fun a =>
    match a with
    | .data chunk => chunk
    | .failed _ _ => []

/-- The evaluations that a handler has begun, each with its code and its bound. -/
def evaluations (env : HelperEnv) (c : Connection) : List (Text × Int) := c.requests.filterMap (evaluates env)

theorem Compact.nl_notMem {t : Text} (h : Compact t) : nl ∉ t := fun hmem => absurd (h.2 nl hmem) (by decide)

theorem Compact.chomp {t : Text} (h : Compact t) : chomp t = t := by
  refine if_neg fun hcr => ?_
  exact absurd (h.2 cr (List.mem_of_getLast? hcr)) (by decide)

theorem recvLoop_line {buf line : Text} {as : List RecvAnswer} (h : recvLoop buf as = some (.ok line)) :
    nl ∉ line ∧ line ++ [nl] <+: buf ++ chunks as := by
  have hfound : ∀ {buf p}, find [nl] buf = some p → nl ∉ buf.take p ∧ buf.take p ++ [nl] <+: buf := by
    intro buf p hp
    obtain ⟨hline, hcut⟩ := find_nl hp
    refine ⟨hline, ?_⟩
    conv_rhs => rw [hcut]
    exact List.prefix_append _ _
  induction as generalizing buf with
  | nil =>
      rw [recvLoop] at h
      obtain ⟨p, hp, hline⟩ := Option.map_eq_some_iff.mp h
      obtain rfl := Except.ok.inj hline
      obtain ⟨hnl, hpre⟩ := hfound hp
      exact ⟨hnl, hpre.trans (List.prefix_append _ _)⟩
  | cons a as ih =>
      cases hf : find [nl] buf with
      | some p =>
          simp only [recvLoop, hf] at h
          obtain rfl := Except.ok.inj (Option.some.inj h)
          obtain ⟨hnl, hpre⟩ := hfound hf
          exact ⟨hnl, hpre.trans (List.prefix_append _ _)⟩
      | none =>
          cases a with
          | failed wouldBlock error =>
              simp only [recvLoop, hf] at h
              cases h
          | data chunk =>
              simp only [recvLoop, hf] at h
              split at h
              · cases h
              · obtain ⟨hnl, hpre⟩ := ih h
                exact ⟨hnl, by simpa [chunks] using hpre⟩

/-- A call that returns a response has sent its whole request and read a line. -/
theorem eval_line {json : JsonLib} {a : SocketAnswers} {path code : Text} {maxOutputBytes : Nat}
    {r : SocketEvalResponse} (h : (eval json a path code maxOutputBytes).result = some (.ok r)) :
    (requestLine json code maxOutputBytes).length ≤ (eval json a path code maxOutputBytes).sent ∧
      ∃ line, recvLoop [] a.recvs = some (.ok line) ∧ parseResponse json line = .ok r := by
  simp only [eval] at h ⊢
  cases hcreated : a.created with
  | error e => simp [hcreated] at h
  | ok _ =>
      simp only [hcreated] at h ⊢
      by_cases hpath : sunPathSize ≤ path.length
      · simp [hpath] at h
      · simp only [if_neg hpath] at h ⊢
        cases hconnected : a.connected with
        | error e => simp [hconnected] at h
        | ok _ =>
            simp only [hconnected] at h ⊢
            rcases hs : sendLoop (requestLine json code maxOutputBytes) 0 a.sends with ⟨sent, _ | (e | _)⟩
            · simp [hs] at h
            · simp [hs] at h
            · have hlen := sendLoop_done hs
              simp only [hs] at h ⊢
              rcases hr : recvLoop [] a.recvs with _ | (e | line)
              · simp [hr] at h
              · simp [hr] at h
              · simp only [hr] at h ⊢
                exact ⟨hlen, line, rfl, by simpa using h⟩

theorem eval_request (json : JsonLib) (a : SocketAnswers) (path code : Text) (maxOutputBytes : Nat) :
    (eval json a path code maxOutputBytes).request = requestLine json code maxOutputBytes := by
  simp only [eval]
  split
  · rfl
  · split
    · rfl
    · split
      · rfl
      · split
        · rfl
        · rfl
        · split <;> rfl

theorem bind_ok {ε α β : Type} (a : α) (f : α → Except ε β) : (Except.ok a).bind f = f a := rfl

theorem requestOp_requestJson (env : HelperEnv) (code : Text) {maxOutputBytes : Nat} (h : InInt64 maxOutputBytes) :
    requestOp env (requestJson code maxOutputBytes) = .ok (.eval code maxOutputBytes) := by
  have hkeys : (lit "op" == lit "code") = false ∧ (lit "op" == lit "max_output_bytes") = false ∧
      (lit "max_output_bytes" == lit "code") = false := by decide
  have hop : requestGet env (requestJson code maxOutputBytes) (lit "op") (.str []) = .ok (.str (lit "eval")) := by
    simp [requestGet, requestJson, List.lookup_cons, hkeys]
  have hmax : requestGet env (requestJson code maxOutputBytes) (lit "max_output_bytes") (.int defaultMaxOutputBytes) =
      .ok (.int maxOutputBytes) := by
    simp [requestGet, requestJson, List.lookup_cons, hkeys]
  have hcode : requestGet env (requestJson code maxOutputBytes) (lit "code") (.str []) = .ok (.str code) := by
    simp [requestGet, requestJson]
  have hint : asInt env (.int maxOutputBytes) = .ok (maxOutputBytes : Int) := by rw [asInt, if_pos h]
  have heval : evalOp env (requestJson code maxOutputBytes) = .ok (.eval code maxOutputBytes) := by
    rw [evalOp, hmax, hcode, bind_ok, bind_ok, hint, asString]
    rfl
  rw [requestOp, hop, bind_ok, asString]
  simp only [if_true]
  exact heval

section

variable {env : HelperEnv} {json : JsonLib} {code : Text} {maxOutputBytes : Nat}
  (hrequest : Compact (json.dump (requestJson code maxOutputBytes)))
include hrequest

/-- A part of the request that has been sent is the line without its end, or less
of it. -/
theorem requestLines_request (n : Nat) :
    requestLines ((requestLine json code maxOutputBytes).take n) =
      if n = 0 then [] else [(json.dump (requestJson code maxOutputBytes)).take n] := by
  generalize hdoc : json.dump (requestJson code maxOutputBytes) = doc at hrequest
  rw [requestLine, hdoc]
  by_cases hn : n = 0
  · rw [hn]
    rfl
  rw [if_neg hn]
  by_cases hle : n ≤ doc.length
  · rw [List.take_append_of_le_length hle]
    refine requestLines_open (fun hmem => hrequest.nl_notMem (List.mem_of_mem_take hmem)) ?_
    intro he
    rcases List.take_eq_nil_iff.mp he with he | he
    · exact hn he
    · exact hrequest.1 he
  · rw [List.take_of_length_le (by simp; omega), List.take_of_length_le (by omega),
      requestLines_line hrequest.nl_notMem, hrequest.chomp, if_neg hrequest.1]

end

theorem evaluates_request {env : HelperEnv} {line code : Text} {maxOutputBytes : Nat} (h : InInt64 maxOutputBytes)
    (hread : env.json3.parse line = .ok (requestJson code maxOutputBytes)) :
    evaluates env line = some (code, (maxOutputBytes : Int)) := by
  rw [evaluates, hread, bind_ok, requestOp_requestJson env code h]

theorem response_request {env : HelperEnv} {line code : Text} {maxOutputBytes : Nat} (h : InInt64 maxOutputBytes)
    (hread : env.json3.parse line = .ok (requestJson code maxOutputBytes)) (work : Work) :
    response env work line = answered (runEval work maxOutputBytes) := by
  have hdone : handleRequest env work line = runEval work maxOutputBytes := by
    rw [handleRequest, hread]
    dsimp only
    rw [requestOp_requestJson env code h, bind_ok, perform]
  rw [response, hdone]

theorem isPrefix_singleton {α : Type} {as : List α} {a : α} (h : as <+: [a]) : as = [] ∨ as = [a] := by
  rcases as with _ | ⟨b, bs⟩
  · exact .inl rfl
  · obtain ⟨rfl, hbs⟩ := List.cons_prefix_cons.mp h
    exact .inr (by rw [List.prefix_nil.mp hbs])

theorem evaluates_unreadable {env : HelperEnv} {line : Text} (h : (env.json3.parse line).isOk = false) :
    evaluates env line = none := by
  cases hparse : env.json3.parse line with
  | error e =>
      rw [evaluates, hparse]
      rfl
  | ok j => simp [hparse, Except.isOk, Except.toBool] at h

section

variable {env : HelperEnv} {c : Connection} {request code : Text} {maxOutputBytes : Nat}
  (hbytes : InInt64 maxOutputBytes) (hread : env.json3.parse request = .ok (requestJson code maxOutputBytes))
include hbytes hread

/-- Of a part of the request nothing is evaluated, unless the part is the whole. -/
theorem evaluations_part {n : Nat}
    (hcut : ∀ n < request.length, (env.json3.parse (request.take n)).isOk = false)
    (hrequests : c.requests <+: if n = 0 then [] else [request.take n]) :
    evaluations env c = [] ∨ evaluations env c = [(code, (maxOutputBytes : Int))] := by
  split at hrequests
  · exact .inl (by rw [evaluations, List.prefix_nil.mp hrequests, List.filterMap_nil])
  rcases isPrefix_singleton hrequests with h | h
  · exact .inl (by rw [evaluations, h, List.filterMap_nil])
  by_cases hn : n < request.length
  · have hnone := evaluates_unreadable (hcut n hn)
    exact .inl (by rw [evaluations, h, List.filterMap_cons_none hnone, List.filterMap_nil])
  · rw [List.take_of_length_le (by omega)] at h
    exact .inr (by rw [evaluations, h, List.filterMap_cons_some (evaluates_request hbytes hread), List.filterMap_nil])

/-- Of a connection that sends the request alone, the first line that comes back
is the answer to it. -/
theorem answered_request {line : Text} (hresponse : ∀ j, Compact (env.json3.dump j))
    (hrequests : c.requests <+: [request]) (hanswers : c.answers.map Prod.fst <+: c.requests) (hnl : nl ∉ line)
    (hframes : line ++ [nl] <+: c.answers.flatMap (frame env)) :
    evaluations env c = [(code, (maxOutputBytes : Int))] ∧ ∃ work, c.answers = [(request, work)] ∧
      line = env.json3.dump (answered (runEval work maxOutputBytes)) := by
  rcases hdone : c.answers with _ | ⟨⟨l, work⟩, rest⟩
  · rw [hdone] at hframes
    simp at hframes
  rw [hdone] at hanswers hframes
  have hboth := hanswers.trans hrequests
  rw [List.map_cons, List.cons_prefix_cons, List.prefix_nil, List.map_eq_nil_iff] at hboth
  obtain ⟨rfl, rfl⟩ := hboth
  have hone : c.requests = [l] := by
    rcases isPrefix_singleton hrequests with h | h
    · rw [h] at hanswers
      simp at hanswers
    · exact h
  rw [List.flatMap_cons, List.flatMap_nil, List.append_nil, frame, response_request hbytes hread] at hframes
  obtain ⟨rfl, -⟩ := Emission.prefix_sep hnl (hresponse _).nl_notMem hframes
  refine ⟨?_, work, rfl, rfl⟩
  rw [evaluations, hone, List.filterMap_cons_some (evaluates_request hbytes hread), List.filterMap_nil]

end

/-- The socket path from end to end, with any number of other clients at the same
helper: for one call the helper begins at most one evaluation, with the code and
the bound of the call, and a response that the call returns is the helper's to
that evaluation. -/
theorem socket_eval_once {env : HelperEnv} {json : JsonLib} {as : List (Nat × ConnectionAction)}
    {t : Nat → Connection} (hrun : run (interleave (step env)) start as = some t) (k : Nat) {a : SocketAnswers}
    {path code : Text} {maxOutputBytes : Nat} (hbytes : InInt64 maxOutputBytes)
    (hrequest : Compact (json.dump (requestJson code maxOutputBytes)))
    (hread : env.json3.parse (json.dump (requestJson code maxOutputBytes)) = .ok (requestJson code maxOutputBytes))
    (hcut : ∀ n < (json.dump (requestJson code maxOutputBytes)).length,
      (env.json3.parse ((json.dump (requestJson code maxOutputBytes)).take n)).isOk = false)
    (hresponse : ∀ j, Compact (env.json3.dump j))
    (hsent : (t k).sent = (eval json a path code maxOutputBytes).request.take (eval json a path code maxOutputBytes).sent)
    (hreceived : (t k).received = chunks a.recvs) :
    (evaluations env (t k) = [] ∨ evaluations env (t k) = [(code, (maxOutputBytes : Int))]) ∧
      ∀ r, (eval json a path code maxOutputBytes).result = some (.ok r) →
        evaluations env (t k) = [(code, (maxOutputBytes : Int))] ∧
          ∃ work, (t k).answers = [(json.dump (requestJson code maxOutputBytes), work)] ∧
            parseResponse json (env.json3.dump (answered (runEval work maxOutputBytes))) = .ok r := by
  have hinv := run_inv hrun k
  obtain ⟨hanswers, hwritten⟩ := hinv.answers
  have hrequests := hinv.requests
  rw [hsent, eval_request, requestLines_request hrequest] at hrequests
  refine ⟨evaluations_part hbytes hread hcut hrequests, fun r hr => ?_⟩
  obtain ⟨hall, line, hline, hparsed⟩ := eval_line hr
  obtain ⟨hnl, hfirst⟩ := recvLoop_line hline
  rw [List.nil_append, ← hreceived] at hfirst
  have hlen : (requestLine json code maxOutputBytes).length = (json.dump (requestJson code maxOutputBytes)).length + 1 := by
    simp [requestLine]
  rw [if_neg (by omega), List.take_of_length_le (by omega)] at hrequests
  obtain ⟨hevaluated, work, hone, hanswer⟩ :=
    answered_request hbytes hread hresponse hrequests hanswers hnl (hfirst.trans hwritten)
  exact ⟨hevaluated, work, hone, hanswer ▸ hparsed⟩

def oneRequest : Text := lit "\x7b\"code\":\"1\",\"max_output_bytes\":245760,\"op\":\"eval\"\x7d"

def oneResponse : Text :=
  lit "\x7b\"backtrace\":\"\",\"elapsed_ms\":3,\"error_message\":\"\",\"ok\":true,\"stderr\":\"\",\"stdout\":\"\",\"value_show\":\"1\"\x7d"

def oneWork : Work where
  evaluated := { stdoutChunks := [], stderrChunks := [], ending := .returned (some (lit "1")), elapsedMs := 3 }

def oneEnv : HelperEnv where
  json3 := { parse := fun line => if line = oneRequest then .ok (requestJson (lit "1") 245760) else .error (lit "invalid JSON")
             dump := fun _ => oneResponse }
  showerror := fun _ _ => []

def oneJson : JsonLib := { parse := fun _ => .ok (runEvalJson oneWork.evaluated 245760), dump := fun _ => oneRequest }

def oneAnswers : SocketAnswers where
  sends := [{ bytes := 20 }, { bytes := 500 }]
  recvs := [.data (oneResponse.take 7), .data (oneResponse.drop 7 ++ [nl])]

/-- The third client's call, while the first one keeps the helper waiting for the
end of its line. -/
def oneActions : List (Nat × ConnectionAction) :=
  [(0, .send (lit "\x7b")), (2, .send (oneRequest.take 20)), (2, .send (oneRequest.drop 20 ++ [nl])), (2, .readLine),
   (2, .respond oneWork), (2, .write 7), (2, .receive 7), (2, .write 95), (2, .receive 95)]

def oneState : Nat → Connection := (run (interleave (step oneEnv)) start oneActions).get (by decide +kernel)

theorem socket_eval_once_one :
    evaluations oneEnv (oneState 2) = [(lit "1", 245760)] ∧
      ∃ work, (oneState 2).answers = [(oneRequest, work)] ∧
        parseResponse oneJson (oneEnv.json3.dump (answered (runEval work 245760))) =
          .ok ⟨true, [], [], lit "1", [], [], 3⟩ := by
  have hrun : run (interleave (step oneEnv)) start oneActions = some oneState := (Option.some_get _).symm
  have hread : oneEnv.json3.parse oneRequest = .ok (requestJson (lit "1") 245760) := by
    simp only [oneEnv, if_true]
  have hcut : ∀ n < oneRequest.length, (oneEnv.json3.parse (oneRequest.take n)).isOk = false := by decide +kernel
  have hresponse : ∀ j, Compact (oneEnv.json3.dump j) := fun _ => show Compact oneResponse by decide +kernel
  have hrequest : Compact (oneJson.dump (requestJson (lit "1") 245760)) := show Compact oneRequest by decide +kernel
  have hsent : (oneState 2).sent = (eval oneJson oneAnswers (lit "/tmp/s") (lit "1") 245760).request.take
      (eval oneJson oneAnswers (lit "/tmp/s") (lit "1") 245760).sent := by decide +kernel
  have hreceived : (oneState 2).received = chunks oneAnswers.recvs := by decide +kernel
  have hresult : (eval oneJson oneAnswers (lit "/tmp/s") (lit "1") 245760).result =
      some (.ok ⟨true, [], [], lit "1", [], [], 3⟩) := by decide +kernel
  exact (socket_eval_once hrun 2 (by decide) hrequest hread hcut hresponse hsent hreceived).2 _ hresult

end JJMCP.HelperConversation
