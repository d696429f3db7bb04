import JJMCP.Tools

namespace JJMCP

/-- The dispatcher, and how many requests have asked it for something outside. -/
structure World where
  dispatcher : Dispatcher
  asked : Nat := 0

/-- What the server runs in: its library and directory, the table of
list_tools_json, and what each request that asks finds outside: the answers to a
tool call, or the files of the project. -/
structure ServerEnv where
  json : JsonLib
  cwd : Path
  toolTable : Nat → Json
  answers : Nat → CallAnswers
  fileExists : Nat → Text → Bool
  fileText : Nat → Text → Text

structure Dispatch where
  notifications : List Json := []
  response : Except Text (Option Json)

structure Handled where
  notifications : List Json := []
  response : Option Json

end JJMCP

namespace JJMCP.Mcp

open Lib.Occurrence Text Config EvalCode Tools

def dropCr (line : Text) : Text := if line.getLast? = some cr then line.dropLast else line

/-- The loop of read_mcp_message over the bytes of the current line: the first
line that is not blank, and the rest of the input. -/
def readLoop (line : Text) : Text → Option (Text × Text)
  | [] => if dropCr line = [] then none else some (dropCr line, [])
  | c :: cs =>
      if c = nl then (if dropCr line = [] then readLoop [] cs else some (dropCr line, cs))
      else readLoop (line ++ [c]) cs

def readMcpMessage (input : Text) : Option (Text × Text) := readLoop [] input

/-- The lines of the input that are not blank. -/
def messages (input : Text) : List Text := ((input.splitOn nl).map dropCr).filter (· ≠ [])

def writeMcpMessage (json : JsonLib) (message : Json) : Text := json.dump message ++ [nl]

def makeJsonrpcResult (requestId result : Json) : Json :=
  .obj [(lit "id", requestId), (lit "jsonrpc", .str (lit "2.0")), (lit "result", result)]

def makeJsonrpcError (requestId : Json) (code : Int) (message : Text) : Json :=
  .obj [(lit "error", .obj [(lit "code", .int code), (lit "message", .str message)]),
    (lit "id", requestId), (lit "jsonrpc", .str (lit "2.0"))]

def requestIdOrNull (request : Json) : Json := (request.get? (lit "id")).getD .null

def toolResultJson (r : ToolResult) : Json :=
  .obj ([(lit "content", .arr [.obj [(lit "text", .str r.text), (lit "type", .str (lit "text"))]])] ++
    (if r.isError then [(lit "isError", .bool true)] else []) ++
    (match r.structured with
     | .null => []
     | j => [(lit "structuredContent", j)]))

def kResourceScheme : Text := lit "jjmcp://project/"

def resourceCatalog : List (Text × Text) :=
  [(lit "Project.toml", lit "Top-level package metadata for the bound project"),
   (lit "Manifest.toml", lit "Resolved dependency manifest for the bound project"),
   (lit "JuliaProject.toml", lit "Alternate top-level metadata when Project.toml is unused"),
   (lit "JuliaManifest.toml", lit "Alternate resolved manifest")]

def projectRoot (d : Dispatcher) : Option Text :=
  match d.session.server.binding with
  | none => none
  | some b => if b.projectRoot = [] then none else some b.projectRoot

def fileIn (root name : Text) : Text := root ++ (if root.getLast? = some 47 then [] else [47]) ++ name

def listResourcesJson (env : ServerEnv) (w : World) : Json :=
  match projectRoot w.dispatcher with
  | none => .arr []
  | some root =>
      .arr ((resourceCatalog.filter fun spec => env.fileExists w.asked (fileIn root spec.1)).map fun spec =>
        .obj [(lit "description", .str spec.2), (lit "mimeType", .str (lit "application/toml")),
          (lit "name", .str spec.1), (lit "uri", .str (kResourceScheme ++ spec.1))])

def readResource (env : ServerEnv) (w : World) (uri : Text) : Except Text Json :=
  if ¬ kResourceScheme <+: uri then .error (lit "unsupported URI scheme: " ++ uri)
  else
    match projectRoot w.dispatcher with
    | none => .error (lit "no project root bound; call jjmcp_bind with project_root")
    | some root =>
        let filename := uri.drop kResourceScheme.length
        if 47 ∈ filename ∨ (find (lit "..") filename).isSome then
          .error (lit "resource path must be a single filename")
        else if filename ∉ resourceCatalog.map Prod.fst then .error (lit "unknown resource: " ++ filename)
        else if env.fileExists w.asked (fileIn root filename) then
          .ok (.obj [(lit "contents", .arr [.obj [(lit "mimeType", .str (lit "application/toml")),
            (lit "text", .str (env.fileText w.asked (fileIn root filename))), (lit "uri", .str uri)]])])
        else .error (lit "resource not found at " ++ fileIn root filename)

def listChanged : Json :=
  .obj [(lit "jsonrpc", .str (lit "2.0")), (lit "method", .str (lit "notifications/tools/list_changed"))]

def initializeResult : Json :=
  .obj [(lit "capabilities", .obj [(lit "resources", .obj [(lit "listChanged", .bool false)]),
      (lit "tools", .obj [(lit "listChanged", .bool true)])]),
    (lit "protocolVersion", .str (lit "2024-11-05")),
    (lit "serverInfo", .obj [(lit "name", .str (lit "JohnJuliaMCP")), (lit "version", .str (lit "0.1.0"))])]

def answer (response : Json) : Option Dispatch := some { response := .ok (some response) }

def progressToken (params : Json) : Json :=
  (((params.get? (lit "_meta")).getD .null).get? (lit "progressToken")).getD .null

/-- The branch for tools/call. A progress token other than null makes the emitter active. -/
def dispatchToolsCall (env : ServerEnv) (request : Json) (w : World) : World × Option Dispatch :=
  let requestId := requestIdOrNull request
  match request.get? (lit "params") with
  | some (.obj params) =>
      match (Json.obj params).get? (lit "name") with
      | some (.str name) =>
          let progressActive := !(progressToken (.obj params)).isNull
          let run := fun arguments =>
            let c : ToolCall := { name, arguments, progressActive, answers := env.answers w.asked }
            match call env.json env.cwd c w.dispatcher with
            | (d, none) => ({ dispatcher := d, asked := w.asked + 1 }, none)
            | (d, some (.ok r)) =>
                ({ dispatcher := d, asked := w.asked + 1 }, answer (makeJsonrpcResult requestId (toolResultJson r)))
            | (d, some (.error what)) =>
                ({ dispatcher := d, asked := w.asked + 1 },
                  answer (makeJsonrpcError requestId (-32603) (lit "tool call failed: " ++ what)))
          match (Json.obj params).get? (lit "arguments") with
          | none => run []
          | some (.obj arguments) => run arguments
          | some _ =>
              (w, answer (makeJsonrpcError requestId (-32602) (lit "tools/call params.arguments must be an object")))
      | _ => (w, answer (makeJsonrpcError requestId (-32602) (lit "tools/call params.name must be a string")))
  | _ => (w, answer (makeJsonrpcError requestId (-32602) (lit "tools/call params must be an object")))

/-- The tool call that a request makes. -/
def toolCallOf (env : ServerEnv) (request : Json) (w : World) : Option ToolCall :=
  match Json.value Json.readString request (lit "jsonrpc") [], request.get? (lit "method"), request.get? (lit "params") with
  | .ok version, some (.str method), some (.obj params) =>
      if version = lit "2.0" ∧ method = lit "tools/call" ∧ request.contains (lit "id") = true then
        match (Json.obj params).get? (lit "name") with
        | some (.str name) =>
            let c := fun arguments : List (Text × Json) =>
              some { name, arguments, progressActive := !(progressToken (.obj params)).isNull, answers := env.answers w.asked }
            match (Json.obj params).get? (lit "arguments") with
            | none => c []
            | some (.obj arguments) => c arguments
            | some _ => none
        | _ => none
      else none
  | _, _, _ => none

def dispatchResourcesRead (env : ServerEnv) (request : Json) (w : World) : Json :=
  let requestId := requestIdOrNull request
  match request.get? (lit "params") with
  | some (.obj params) =>
      match (Json.obj params).get? (lit "uri") with
      | some (.str uri) =>
          match readResource env w uri with
          | .error e => makeJsonrpcError requestId (-32002) e
          | .ok contents => makeJsonrpcResult requestId contents
      | _ => makeJsonrpcError requestId (-32602) (lit "resources/read params.uri must be a string")
  | _ => makeJsonrpcError requestId (-32602) (lit "resources/read params must be an object")

def dispatchMethod (env : ServerEnv) (request : Json) (method : Text) (w : World) : World × Option Dispatch :=
  let requestId := requestIdOrNull request
  if method = lit "notifications/initialized" then (w, some { notifications := [listChanged], response := .ok none })
  else if request.contains (lit "id") = false then (w, some { response := .ok none })
  else if method = lit "initialize" then (w, answer (makeJsonrpcResult requestId initializeResult))
  else if method = lit "ping" then (w, answer (makeJsonrpcResult requestId (.obj [])))
  else if method = lit "tools/list" then
    (w, answer (makeJsonrpcResult requestId
      (.obj [(lit "tools", env.toolTable w.dispatcher.session.server.maxTimeoutMs)])))
  else if method = lit "resources/list" then
    ({ w with asked := w.asked + 1 },
      answer (makeJsonrpcResult requestId (.obj [(lit "resources", listResourcesJson env w)])))
  else if method = lit "resources/read" then
    ({ w with asked := w.asked + 1 }, answer (dispatchResourcesRead env request w))
  else if method = lit "tools/call" then dispatchToolsCall env request w
  else (w, answer (makeJsonrpcError requestId (-32601) (lit "Method not found")))

def methodOf (request : Json) : Text := request.optionalString "method" []

/-- dispatch_mcp_request; without a result a tool call still waits. The member
jsonrpc is read with value, which throws for a value that is no string. -/
def dispatchMcpRequest (env : ServerEnv) (request : Json) (w : World) : World × Option Dispatch :=
  let invalid := makeJsonrpcError (requestIdOrNull request) (-32600) (lit "Invalid Request")
  if request.isObject = false then (w, answer invalid)
  else
    match Json.value Json.readString request (lit "jsonrpc") [] with
    | .error what => (w, some { response := .error what })
    | .ok version =>
        match request.get? (lit "method") with
        | some (.str method) =>
            if version = lit "2.0" then dispatchMethod env request method w else (w, answer invalid)
        | _ => (w, answer invalid)

/-- The lambda handle_request: an exception becomes an error response. -/
def handleRequest (env : ServerEnv) (request : Json) (w : World) : World × Option Handled :=
  match dispatchMcpRequest env request w with
  | (w, none) => (w, none)
  | (w, some d) =>
      let response :=
        match d.response with
        | .ok response => response
        | .error what =>
            some (makeJsonrpcError (requestIdOrNull request) (-32603) (lit "internal error: " ++ what))
      (w, some { notifications := d.notifications, response })

def needsWorker (method : Text) : Bool :=
  method = lit "tools/call" || method = lit "tools/list" || method = lit "resources/list" ||
    method = lit "resources/read"

def progressFrame (token : Json) (progress : Nat) (message : Text) : Json :=
  .obj [(lit "jsonrpc", .str (lit "2.0")), (lit "method", .str (lit "notifications/progress")),
    (lit "params", .obj ((if message = [] then [] else [(lit "message", .str message)]) ++
      [(lit "progress", .float progress), (lit "progressToken", token)]))]

theorem readLoop_messages (line cs : Text) :
    ((List.splitOnPPrepend (· == nl) cs line.reverse).map dropCr).filter (· ≠ []) =
      match readLoop line cs with
      | none => []
      | some (body, rest) => body :: messages rest := by
  induction cs generalizing line with
  | nil =>
      have hnil : messages [] = [] := rfl
      by_cases h : dropCr line = [] <;> simp [readLoop, List.splitOnPPrepend_nil, h, hnil]
  | cons c cs ih =>
      by_cases hc : c = nl
      · have ih' := ih []
        rw [List.splitOnPPrepend_cons_pos (by simp [hc]), List.reverse_reverse, List.map_cons]
        by_cases h : dropCr line = []
        · simp only [readLoop, hc, h, if_true]
          rw [List.filter_cons_of_neg (by simp)]
          exact ih'
        · simp only [readLoop, hc, h, if_true, if_false]
          rw [List.filter_cons_of_pos (by simp [h])]
          rfl
      · have ih' := ih (line ++ [c])
        rw [List.splitOnPPrepend_cons_neg (by simp [hc])]
        simp only [readLoop, hc, if_false]
        simpa using ih'

/-- What read_mcp_message returns is the next line of the input that is not blank. -/
theorem readMcpMessage_messages (input : Text) :
    messages input =
      match readMcpMessage input with
      | none => []
      | some (body, rest) => body :: messages rest :=
  readLoop_messages [] input

/-- A dispatch that answers without a look at the dispatcher or a change to it. -/
def Inline (f : World → World × Option Dispatch) : Prop := ∃ d, ∀ w, f w = (w, some d)

theorem Inline.ite {p : Prop} [Decidable p] {f g : World → World × Option Dispatch} (hf : p → Inline f)
    (hg : ¬p → Inline g) : Inline fun w => if p then f w else g w := by
  by_cases h : p
  · simpa [h] using hf h
  · simpa [h] using hg h

theorem dispatchMethod_inline (env : ServerEnv) (request : Json) {method : Text}
    (h : needsWorker method = false) : Inline (dispatchMethod env request method) := by
  simp only [needsWorker, Bool.or_eq_false_iff, decide_eq_false_iff_not] at h
  obtain ⟨⟨⟨hcall, htools⟩, hlist⟩, hread⟩ := h
  unfold dispatchMethod
  refine Inline.ite (fun _ => ⟨_, fun _ => rfl⟩) fun _ => ?_
  refine Inline.ite (fun _ => ⟨_, fun _ => rfl⟩) fun _ => ?_
  refine Inline.ite (fun _ => ⟨_, fun _ => rfl⟩) fun _ => ?_
  refine Inline.ite (fun _ => ⟨_, fun _ => rfl⟩) fun _ => ?_
  refine Inline.ite (fun hc => absurd hc htools) fun _ => ?_
  refine Inline.ite (fun hc => absurd hc hlist) fun _ => ?_
  refine Inline.ite (fun hc => absurd hc hread) fun _ => ?_
  exact Inline.ite (fun hc => absurd hc hcall) fun _ => ⟨_, fun _ => rfl⟩

theorem dispatchMcpRequest_inline (env : ServerEnv) {request : Json} (h : needsWorker (methodOf request) = false) :
    Inline (dispatchMcpRequest env request) := by
  refine Inline.ite (fun _ => ⟨_, fun _ => rfl⟩) fun _ => ?_
  cases Json.value Json.readString request (lit "jsonrpc") [] with
  | error what => exact ⟨_, fun _ => rfl⟩
  | ok version =>
      have hmethod : ∀ method, request.get? (lit "method") = some (.str method) → methodOf request = method := by
        intro method hm
        simp [methodOf, Json.optionalString, hm]
      cases hget : request.get? (lit "method") with
      | none => exact ⟨_, fun _ => rfl⟩
      | some v =>
          cases v with
          | str method =>
              exact Inline.ite (fun _ => dispatchMethod_inline env request (hmethod method hget ▸ h))
                fun _ => ⟨_, fun _ => rfl⟩
          | _ => exact ⟨_, fun _ => rfl⟩

/-- A request that stays on the read thread is answered the same whatever the worker does. -/
theorem handleRequest_inline (env : ServerEnv) {request : Json} (h : needsWorker (methodOf request) = false) :
    ∃ handled, ∀ w, handleRequest env request w = (w, some handled) := by
  obtain ⟨d, hd⟩ := dispatchMcpRequest_inline env h
  exact ⟨_, fun w => by rw [handleRequest, hd w]⟩

end JJMCP.Mcp
