import JJMCP.Mcp

namespace JJMCP

/-- How a call into the dispatcher ends; what threw has a text when it is a
std::exception. -/
inductive Outcome (α : Type)
  | returned (a : α)
  | threw (what : Option Text)

/-- The part of the server behind the JSON-RPC layer. -/
structure ToolLayer (σ : Type) where
  call : Text → List (Text × Json) → Bool → σ → σ × Outcome ToolResult
  listToolsJson : σ → σ × Outcome Json
  listResourcesJson : σ → σ × Outcome Json
  readResource : Text → σ → σ × Outcome (Except Text Json)

structure Dispatched where
  notifications : List Json := []
  response : Outcome (Option Json)

end JJMCP

namespace JJMCP.Answering

open Text Mcp

section

variable {σ : Type} (tools : ToolLayer σ)

def respond (response : Json) : Dispatched := { response := .returned (some response) }

def respondWith {α : Type} (o : Outcome α) (f : α → Json) : Dispatched :=
  match o with
  | .returned a => respond (f a)
  | .threw what => { response := .threw what }

/-- What the call throws is caught here. -/
def toolResponse (requestId : Json) : Outcome ToolResult → Json
  | .returned r => makeJsonrpcResult requestId (toolResultJson r)
  | .threw (some what) => makeJsonrpcError requestId (-32603) (lit "tool call failed: " ++ what)
  | .threw none => makeJsonrpcError requestId (-32603) (lit "tool call failed with an unknown exception")

def dispatchToolsCall (request : Json) (s : σ) : σ × Json :=
  let requestId := requestIdOrNull request
  match request.get? (lit "params") with
  | some (.obj params) =>
      match (Json.obj params).get? (lit "name") with
      | some (.str name) =>
          let progressActive := !(progressToken (.obj params)).isNull
          let run := fun arguments =>
            let (s, o) := tools.call name arguments progressActive s
            (s, toolResponse requestId o)
          match (Json.obj params).get? (lit "arguments") with
          | none => run []
          | some (.obj arguments) => run arguments
          | some _ =>
              (s, makeJsonrpcError requestId (-32602) (lit "tools/call params.arguments must be an object"))
      | _ => (s, makeJsonrpcError requestId (-32602) (lit "tools/call params.name must be a string"))
  | _ => (s, makeJsonrpcError requestId (-32602) (lit "tools/call params must be an object"))

def dispatchResourcesRead (request : Json) (s : σ) : σ × Dispatched :=
  let requestId := requestIdOrNull request
  match request.get? (lit "params") with
  | some (.obj params) =>
      match (Json.obj params).get? (lit "uri") with
      | some (.str uri) =>
          let (s, o) := tools.readResource uri s
          (s, respondWith o fun contents =>
            match contents with
            | .error e => makeJsonrpcError requestId (-32002) e
            | .ok contents => makeJsonrpcResult requestId contents)
      | _ => (s, respond (makeJsonrpcError requestId (-32602) (lit "resources/read params.uri must be a string")))
  | _ => (s, respond (makeJsonrpcError requestId (-32602) (lit "resources/read params must be an object")))

def dispatchMethod (request : Json) (method : Text) (s : σ) : σ × Dispatched :=
  let requestId := requestIdOrNull request
  if method = lit "notifications/initialized" then
    (s, { notifications := [listChanged], response := .returned none })
  else if request.contains (lit "id") = false then (s, { response := .returned none })
  else if method = lit "initialize" then (s, respond (makeJsonrpcResult requestId initializeResult))
  else if method = lit "ping" then (s, respond (makeJsonrpcResult requestId (.obj [])))
  else if method = lit "tools/list" then
    let (s, o) := tools.listToolsJson s
    (s, respondWith o fun table => makeJsonrpcResult requestId (.obj [(lit "tools", table)]))
  else if method = lit "resources/list" then
    let (s, o) := tools.listResourcesJson s
    (s, respondWith o fun resources => makeJsonrpcResult requestId (.obj [(lit "resources", resources)]))
  else if method = lit "resources/read" then dispatchResourcesRead tools request s
  else if method = lit "tools/call" then
    let (s, response) := dispatchToolsCall tools request s
    (s, respond response)
  else (s, respond (makeJsonrpcError requestId (-32601) (lit "Method not found")))

/-- dispatch_mcp_request over any tool layer. -/
def dispatchMcpRequest (request : Json) (s : σ) : σ × Dispatched :=
  let invalid := respond (makeJsonrpcError (requestIdOrNull request) (-32600) (lit "Invalid Request"))
  if request.isObject = false then (s, invalid)
  else
    match Json.value Json.readString request (lit "jsonrpc") [] with
    | .error what => (s, { response := .threw (some what) })
    | .ok version =>
        match request.get? (lit "method") with
        | some (.str method) =>
            if version = lit "2.0" then dispatchMethod tools request method s else (s, invalid)
        | _ => (s, invalid)

def internalError : Option Text → Text
  | some what => lit "internal error: " ++ what
  | none => lit "internal error"

def fallback (requestId : Json) (d : Dispatched) : Handled :=
  { notifications := d.notifications
    response :=
      match d.response with
      | .returned response => response
      | .threw what => some (makeJsonrpcError requestId (-32603) (internalError what)) }

def handleRequest (request : Json) (s : σ) : σ × Handled :=
  (dispatchMcpRequest tools request s).map id (fallback (requestIdOrNull request))

end

/-- The frames that answer a request, among all that it makes the server write. -/
def responses (h : Handled) : List Json := (h.notifications ++ h.response.toList).filter (·.contains (lit "id"))

def IsError (requestId response : Json) : Prop :=
  response.get? (lit "jsonrpc") = some (.str (lit "2.0")) ∧ response.get? (lit "id") = some requestId ∧
    response.contains (lit "error") = true ∧ response.contains (lit "result") = false

def IsResult (requestId response : Json) : Prop :=
  response.get? (lit "jsonrpc") = some (.str (lit "2.0")) ∧ response.get? (lit "id") = some requestId ∧
    response.contains (lit "error") = false ∧ response.contains (lit "result") = true

/-- A call of this method: an object of JSON-RPC 2.0 that names it. -/
def Calls (request : Json) (method : Text) : Prop :=
  request.get? (lit "jsonrpc") = some (.str (lit "2.0")) ∧ request.get? (lit "method") = some (.str method)

def ValidNotification (request : Json) : Prop :=
  (∃ method, Calls request method) ∧ request.contains (lit "id") = false

/-- What a request is owed, by whether it has an id and is valid. -/
structure Answered {σ : Type} (tools : ToolLayer σ) (request : Json) (s : σ) : Prop where
  own : ∀ requestId, request.get? (lit "id") = some requestId →
    ∃ r, responses (handleRequest tools request s).2 = [r] ∧ (IsResult requestId r ∨ IsError requestId r)
  silent : ValidNotification request → responses (handleRequest tools request s).2 = []
  refused : request.contains (lit "id") = false → ¬ ValidNotification request →
    ∃ r, responses (handleRequest tools request s).2 = [r] ∧ IsError .null r
  idle : request.isObject = true → request.contains (lit "id") = false → (handleRequest tools request s).1 = s

theorem makeJsonrpcResult_isResult (requestId result : Json) :
    IsResult requestId (makeJsonrpcResult requestId result) :=
  ⟨rfl, rfl, rfl, rfl⟩

theorem makeJsonrpcError_isError (requestId : Json) (code : Int) (message : Text) :
    IsError requestId (makeJsonrpcError requestId code message) :=
  ⟨rfl, rfl, rfl, rfl⟩

/-- A dispatch that ends in one response with this id, or throws. -/
inductive Fits (requestId : Json) : Dispatched → Prop
  | result (r : Json) (h : IsResult requestId r) : Fits requestId (respond r)
  | error (r : Json) (h : IsError requestId r) : Fits requestId (respond r)
  | threw (what : Option Text) : Fits requestId { response := .threw what }

theorem toolResponse_fits (requestId : Json) (o : Outcome ToolResult) :
    Fits requestId (respond (toolResponse requestId o)) := by
  cases o with
  | returned r => exact .result _ (makeJsonrpcResult_isResult _ _)
  | threw what =>
      apply Fits.error
      cases what with
      | none => exact makeJsonrpcError_isError _ _ _
      | some what => exact makeJsonrpcError_isError _ _ _

theorem respondWith_fits {α : Type} {requestId : Json} {o : Outcome α} {f : α → Json}
    (h : ∀ a, Fits requestId (respond (f a))) : Fits requestId (respondWith o f) := by
  cases o with
  | returned a => exact h a
  | threw what => exact .threw what

section

variable {σ : Type} (tools : ToolLayer σ) (request : Json) (s : σ)

theorem dispatchToolsCall_fits :
    Fits (requestIdOrNull request) (respond (dispatchToolsCall tools request s).2) := by
  unfold dispatchToolsCall
  split
  next params _ =>
    dsimp only
    split
    · split
      · exact toolResponse_fits _ _
      · exact toolResponse_fits _ _
      · exact .error _ (makeJsonrpcError_isError _ _ _)
    · exact .error _ (makeJsonrpcError_isError _ _ _)
  · exact .error _ (makeJsonrpcError_isError _ _ _)

theorem dispatchResourcesRead_fits :
    Fits (requestIdOrNull request) (dispatchResourcesRead tools request s).2 := by
  unfold dispatchResourcesRead
  split
  · dsimp only
    split
    · apply respondWith_fits
      rintro (e | contents)
      · exact .error _ (makeJsonrpcError_isError _ _ _)
      · exact .result _ (makeJsonrpcResult_isResult _ _)
    · exact .error _ (makeJsonrpcError_isError _ _ _)
  · exact .error _ (makeJsonrpcError_isError _ _ _)

theorem dispatchMethod_fits {method : Text} (hid : request.contains (lit "id") = true)
    (hinit : method ≠ lit "notifications/initialized") :
    Fits (requestIdOrNull request) (dispatchMethod tools request method s).2 := by
  unfold dispatchMethod
  rw [if_neg hinit, if_neg (by simp [hid])]
  split
  · exact .result _ (makeJsonrpcResult_isResult _ _)
  · split
    · exact .result _ (makeJsonrpcResult_isResult _ _)
    · split
      · exact respondWith_fits fun _ => .result _ (makeJsonrpcResult_isResult _ _)
      · split
        · exact respondWith_fits fun _ => .result _ (makeJsonrpcResult_isResult _ _)
        · split
          · exact dispatchResourcesRead_fits tools request s
          · split
            · exact dispatchToolsCall_fits tools request s
            · exact .error _ (makeJsonrpcError_isError _ _ _)

theorem responses_single {r : Json} (h : ∃ requestId, r.get? (lit "id") = some requestId) :
    responses { notifications := [], response := some r } = [r] := by
  obtain ⟨requestId, h⟩ := h
  simp [responses, Json.contains, h]

theorem handleRequest_fits {d : Dispatched} (hd : (dispatchMcpRequest tools request s).2 = d)
    (h : Fits (requestIdOrNull request) d) :
    ∃ r, responses (handleRequest tools request s).2 = [r] ∧
      (IsResult (requestIdOrNull request) r ∨ IsError (requestIdOrNull request) r) := by
  rw [handleRequest, Prod.map_snd, hd]
  cases h with
  | result r h => exact ⟨r, responses_single ⟨_, h.2.1⟩, .inl h⟩
  | error r h => exact ⟨r, responses_single ⟨_, h.2.1⟩, .inr h⟩
  | threw what =>
      have herr := makeJsonrpcError_isError (requestIdOrNull request) (-32603) (internalError what)
      exact ⟨_, responses_single ⟨_, herr.2.1⟩, .inr herr⟩

theorem handleRequest_refused {d : Dispatched} (hd : (dispatchMcpRequest tools request s).2 = d)
    (h : (∃ r, d = respond r ∧ IsError (requestIdOrNull request) r) ∨ ∃ what, d = { response := .threw what }) :
    ∃ r, responses (handleRequest tools request s).2 = [r] ∧ IsError (requestIdOrNull request) r := by
  rw [handleRequest, Prod.map_snd, hd]
  rcases h with ⟨r, rfl, h⟩ | ⟨what, rfl⟩
  · exact ⟨r, responses_single ⟨_, h.2.1⟩, h⟩
  · have herr := makeJsonrpcError_isError (requestIdOrNull request) (-32603) (internalError what)
    exact ⟨_, responses_single ⟨_, herr.2.1⟩, herr⟩

variable {request}

theorem dispatchMcpRequest_calls {method : Text} (h : Calls request method) :
    dispatchMcpRequest tools request s = dispatchMethod tools request method s := by
  obtain ⟨hversion, hmethod⟩ := h
  cases request with
  | obj fields =>
      have hvalue : Json.value Json.readString (.obj fields) (lit "jsonrpc") [] = .ok (lit "2.0") := by
        rw [Json.value, show fields.lookup (lit "jsonrpc") = some (.str (lit "2.0")) from hversion]
        rfl
      simp [dispatchMcpRequest, Json.isObject, hvalue, hmethod]
  | _ => simp [Json.get?] at hversion

theorem readVersion {version : Text} (h : Json.value Json.readString request (lit "jsonrpc") [] = .ok version)
    (hne : version ≠ []) : request.get? (lit "jsonrpc") = some (.str version) := by
  cases request with
  | obj fields =>
      rw [Json.value] at h
      cases hget : fields.lookup (lit "jsonrpc") with
      | none =>
          rw [hget] at h
          exact absurd (Except.ok.inj h).symm hne
      | some v =>
          rw [hget] at h
          cases v with
          | str t =>
              obtain rfl := Except.ok.inj (show Except.ok t = Except.ok version from h)
              exact hget
          | _ => exact absurd h (by simp [Json.readString])
  | _ => simp [Json.value] at h

theorem dispatchMcpRequest_refused (h : ¬ ∃ method, Calls request method) :
    ∃ d, dispatchMcpRequest tools request s = (s, d) ∧
      ((∃ r, d = respond r ∧ IsError (requestIdOrNull request) r) ∨ ∃ what, d = { response := .threw what }) := by
  have hinvalid := makeJsonrpcError_isError (requestIdOrNull request) (-32600) (lit "Invalid Request")
  cases request with
  | obj fields =>
      cases hversion : Json.value Json.readString (.obj fields) (lit "jsonrpc") [] with
      | error what => exact ⟨_, by rw [dispatchMcpRequest, hversion]; rfl, .inr ⟨_, rfl⟩⟩
      | ok version =>
          refine ⟨respond (makeJsonrpcError (requestIdOrNull (.obj fields)) (-32600) (lit "Invalid Request")), ?_,
            .inl ⟨_, rfl, hinvalid⟩⟩
          simp only [dispatchMcpRequest, Json.isObject, hversion]
          split
          · simp_all
          · split
            next method hmethod =>
              have hne : version ≠ lit "2.0" := fun hv =>
                h ⟨method, hv ▸ readVersion hversion (hv ▸ by decide), hmethod⟩
              rw [if_neg hne]
            · rfl
  | _ => exact ⟨_, rfl, .inl ⟨_, rfl, hinvalid⟩⟩

variable (request) in
/-- The one request that is not answered as it is owed: notifications/initialized
sent with an id. -/
theorem answered_iff :
    Answered tools request s ↔
      ¬ (request.contains (lit "id") = true ∧ Calls request (lit "notifications/initialized")) := by
  by_cases hid : request.contains (lit "id") = true
  · obtain ⟨requestId, hget⟩ := Option.isSome_iff_exists.mp hid
    have hown : requestIdOrNull request = requestId := by rw [requestIdOrNull, hget, Option.getD_some]
    have howed : Answered tools request s ↔ ∃ r, responses (handleRequest tools request s).2 = [r] ∧
        (IsResult requestId r ∨ IsError requestId r) := by
      constructor
      · exact fun h => h.own requestId hget
      · intro h
        refine ⟨fun i hi => ?_, fun hn => ?_, fun hn => ?_, fun _ hn => ?_⟩
        · obtain rfl := Option.some.inj (hget.symm.trans hi)
          exact h
        · exact absurd (hid.symm.trans hn.2) (by simp)
        · exact absurd (hid.symm.trans hn) (by simp)
        · exact absurd (hid.symm.trans hn) (by simp)
    rw [howed]
    by_cases hinit : Calls request (lit "notifications/initialized")
    · refine iff_of_false ?_ fun h => h ⟨hid, hinit⟩
      rintro ⟨r, hr, _⟩
      rw [handleRequest, dispatchMcpRequest_calls tools s hinit, dispatchMethod, if_pos rfl] at hr
      exact absurd (show ([] : List Json) = [r] from hr) (by simp)
    · refine iff_of_true ?_ fun h => hinit h.2
      by_cases hcalls : ∃ method, Calls request method
      · obtain ⟨method, hm⟩ := hcalls
        have hne : method ≠ lit "notifications/initialized" := fun he => hinit (he ▸ hm)
        have hfits := dispatchMethod_fits tools request s hid hne
        rw [← hown]
        exact handleRequest_fits tools request s (congrArg Prod.snd (dispatchMcpRequest_calls tools s hm)) hfits
      · obtain ⟨d, hd, hrefused⟩ := dispatchMcpRequest_refused tools s hcalls
        obtain ⟨r, hr, herr⟩ := handleRequest_refused tools request s (congrArg Prod.snd hd) hrefused
        exact ⟨r, hr, .inr (hown ▸ herr)⟩
  · rw [Bool.not_eq_true] at hid
    have hnull : requestIdOrNull request = .null := by
      rw [Json.contains, Option.isSome_eq_false_iff, Option.isNone_iff_eq_none] at hid
      rw [requestIdOrNull, hid, Option.getD_none]
    refine iff_of_true ?_ fun h => absurd (hid.symm.trans h.1) (by simp)
    have hnone : ∀ requestId, request.get? (lit "id") ≠ some requestId := by
      intro requestId hget
      rw [Json.contains, hget] at hid
      simp at hid
    by_cases hcalls : ∃ method, Calls request method
    · obtain ⟨method, hm⟩ := hcalls
      have hquiet : responses (handleRequest tools request s).2 = [] ∧ (handleRequest tools request s).1 = s := by
        rw [handleRequest, dispatchMcpRequest_calls tools s hm, dispatchMethod, if_pos hid]
        split <;> exact ⟨rfl, rfl⟩
      exact ⟨fun i hi => absurd hi (hnone i), fun _ => hquiet.1, fun _ h => absurd ⟨⟨method, hm⟩, hid⟩ h,
        fun _ _ => hquiet.2⟩
    · obtain ⟨d, hd, hrefused⟩ := dispatchMcpRequest_refused tools s hcalls
      have hone := handleRequest_refused tools request s (congrArg Prod.snd hd) hrefused
      have hstate : (handleRequest tools request s).1 = s := by rw [handleRequest, hd]; rfl
      exact ⟨fun i hi => absurd hi (hnone i), fun h => absurd h.1 hcalls, fun _ _ => hnull ▸ hone, fun _ _ => hstate⟩

end

/-- Tools that throw whatever they are asked. -/
def throwing : ToolLayer Unit where
  call _ _ _ s := (s, .threw none)
  listToolsJson s := (s, .threw none)
  listResourcesJson s := (s, .threw none)
  readResource _ s := (s, .threw none)

/-- An initialized notification that carries an id gets no response. -/
theorem not_answered :
    ¬ ∀ (σ : Type) (tools : ToolLayer σ) (request : Json) (s : σ), Answered tools request s := by
  intro h
  obtain ⟨r, hr, _⟩ := (h Unit throwing (.obj [(lit "id", .int 1), (lit "jsonrpc", .str (lit "2.0")),
    (lit "method", .str (lit "notifications/initialized"))]) ()).own (.int 1) rfl
  exact absurd (show ([] : List Json) = [r] from hr) (by simp)

section

variable (env : ServerEnv)

/-- The dispatcher of the server as a tool layer; a call that still waits has no
place in one. -/
def layerOf : ToolLayer World where
  call name arguments progressActive w :=
    let c : ToolCall := { name, arguments, progressActive, answers := env.answers w.asked }
    let (d, reply) := Tools.call env.json env.cwd c w.dispatcher
    ({ dispatcher := d, asked := w.asked + 1 },
      match reply with
      | some (.ok r) => .returned r
      | some (.error what) => .threw (some what)
      | none => .threw none)
  listToolsJson w := (w, .returned (env.toolTable w.dispatcher.session.server.maxTimeoutMs))
  listResourcesJson w := ({ w with asked := w.asked + 1 }, .returned (Mcp.listResourcesJson env w))
  readResource uri w := ({ w with asked := w.asked + 1 }, .returned (Mcp.readResource env w uri))

def lift (d : Dispatch) : Dispatched :=
  { notifications := d.notifications
    response :=
      match d.response with
      | .ok response => .returned response
      | .error what => .threw (some what) }

/-- When the server's dispatch ends, the one over its layer leaves the same
dispatcher and answers the same. -/
def Agrees (p : World × Option Dispatch) (q : World × Dispatched) : Prop :=
  ∀ w d, p = (w, some d) → q.1.dispatcher = w.dispatcher ∧ q.2 = lift d

variable (request : Json) (w : World)

theorem agrees_answer {v w : World} (h : w.dispatcher = v.dispatcher) (response : Json) :
    Agrees (v, answer response) (w, respond response) := by
  rintro _ _ ⟨⟩
  exact ⟨h, rfl⟩

theorem agrees_call (name : Text) (arguments : List (Text × Json)) (progressActive : Bool) (requestId : Json) :
    Agrees
      (match Tools.call env.json env.cwd { name, arguments, progressActive, answers := env.answers w.asked }
          w.dispatcher with
       | (d, none) => ({ dispatcher := d, asked := w.asked + 1 }, none)
       | (d, some (.ok r)) =>
           ({ dispatcher := d, asked := w.asked + 1 }, answer (makeJsonrpcResult requestId (toolResultJson r)))
       | (d, some (.error what)) =>
           ({ dispatcher := d, asked := w.asked + 1 },
             answer (makeJsonrpcError requestId (-32603) (lit "tool call failed: " ++ what))))
      ((((layerOf env).call name arguments progressActive w).map id (toolResponse requestId)).map id respond) := by
  unfold layerOf
  dsimp only
  cases Tools.call env.json env.cwd { name, arguments, progressActive, answers := env.answers w.asked }
    w.dispatcher with
  | mk d reply =>
      cases reply with
      | none => exact fun _ _ h => absurd (Prod.ext_iff.mp h).2 (by simp)
      | some reply => cases reply <;> exact agrees_answer rfl _

theorem dispatchToolsCall_agrees :
    Agrees (Mcp.dispatchToolsCall env request w)
      ((dispatchToolsCall (layerOf env) request w).map id respond) := by
  unfold Mcp.dispatchToolsCall dispatchToolsCall
  cases request.get? (lit "params") with
  | none => exact agrees_answer rfl _
  | some v =>
      cases v with
      | obj params =>
          dsimp only
          cases (Json.obj params).get? (lit "name") with
          | none => exact agrees_answer rfl _
          | some v =>
              cases v with
              | str name =>
                  dsimp only
                  cases (Json.obj params).get? (lit "arguments") with
                  | none => exact agrees_call env _ _ _ _ _
                  | some v =>
                      cases v with
                      | obj arguments => exact agrees_call env _ _ _ _ _
                      | _ => exact agrees_answer rfl _
              | _ => exact agrees_answer rfl _
      | _ => exact agrees_answer rfl _

theorem dispatchResourcesRead_agrees :
    Agrees ({ w with asked := w.asked + 1 }, answer (Mcp.dispatchResourcesRead env request w))
      (dispatchResourcesRead (layerOf env) request w) := by
  unfold Mcp.dispatchResourcesRead dispatchResourcesRead
  cases request.get? (lit "params") with
  | none => exact agrees_answer rfl _
  | some v =>
      cases v with
      | obj params =>
          dsimp only
          cases (Json.obj params).get? (lit "uri") with
          | none => exact agrees_answer rfl _
          | some v =>
              cases v with
              | str uri =>
                  simp only [layerOf]
                  cases Mcp.readResource env w uri <;> exact agrees_answer rfl _
              | _ => exact agrees_answer rfl _
      | _ => exact agrees_answer rfl _

theorem Agrees.ite {p : Prop} [Decidable p] {a b : World × Option Dispatch} {a' b' : World × Dispatched}
    (ha : Agrees a a') (hb : Agrees b b') : Agrees (if p then a else b) (if p then a' else b') := by
  split
  · exact ha
  · exact hb

theorem agrees_silent (notifications : List Json) :
    Agrees (w, some { notifications, response := .ok none }) (w, { notifications, response := .returned none }) := by
  rintro _ _ ⟨⟩
  exact ⟨rfl, rfl⟩

theorem dispatchMethod_agrees (method : Text) :
    Agrees (Mcp.dispatchMethod env request method w) (dispatchMethod (layerOf env) request method w) := by
  unfold Mcp.dispatchMethod dispatchMethod
  apply Agrees.ite (agrees_silent w _)
  apply Agrees.ite (agrees_silent w _)
  apply Agrees.ite (agrees_answer rfl _)
  apply Agrees.ite (agrees_answer rfl _)
  apply Agrees.ite (agrees_answer rfl _)
  apply Agrees.ite (agrees_answer rfl _)
  apply Agrees.ite (dispatchResourcesRead_agrees env request w)
  apply Agrees.ite (dispatchToolsCall_agrees env request w)
  exact agrees_answer rfl _

theorem dispatchMcpRequest_agrees :
    Agrees (Mcp.dispatchMcpRequest env request w) (dispatchMcpRequest (layerOf env) request w) := by
  unfold Mcp.dispatchMcpRequest dispatchMcpRequest
  apply Agrees.ite (agrees_answer rfl _)
  cases Json.value Json.readString request (lit "jsonrpc") [] with
  | error what =>
      rintro _ _ ⟨⟩
      exact ⟨rfl, rfl⟩
  | ok version =>
      dsimp only
      cases request.get? (lit "method") with
      | none => exact agrees_answer rfl _
      | some v =>
          cases v with
          | str method => exact Agrees.ite (dispatchMethod_agrees env request w method) (agrees_answer rfl _)
          | _ => exact agrees_answer rfl _

/-- The server handles a request as the layer does. -/
theorem handleRequest_layerOf {w' : World} {handled : Handled}
    (h : Mcp.handleRequest env request w = (w', some handled)) :
    (handleRequest (layerOf env) request w).1.dispatcher = w'.dispatcher ∧
      (handleRequest (layerOf env) request w).2 = handled := by
  have hagree := dispatchMcpRequest_agrees env request w
  rw [Mcp.handleRequest] at h
  cases hd : Mcp.dispatchMcpRequest env request w with
  | mk v d =>
      rw [hd] at h
      cases d with
      | none => simp at h
      | some d =>
          obtain ⟨hstate, hlift⟩ := hagree v d hd
          rw [handleRequest, Prod.map_fst, Prod.map_snd, hlift]
          obtain ⟨rfl, rfl⟩ : v = w' ∧ _ = handled := by simpa using h
          refine ⟨hstate, ?_⟩
          cases hr : d.response <;> simp [fallback, lift, hr, internalError]

end

end JJMCP.Answering
