import JJMCP.CallScope
import JJMCP.ServeReports

namespace JJMCP

end JJMCP

namespace JJMCP.ServeCalls

open Lib.Runs Text Mcp Tools EvalCode ServeComplete ServeReports CallScope

/-- The request asks for the tool by its name, with its arguments or with none. -/
structure Calls (request : Json) (c : ToolCall) : Prop where
  method : request.get? (lit "method") = some (.str (lit "tools/call"))
  params : ∃ params : List (Text × Json), request.get? (lit "params") = some (.obj params) ∧
    (Json.obj params).get? (lit "name") = some (.str c.name) ∧
    ((Json.obj params).get? (lit "arguments")).getD (.obj []) = .obj c.arguments

variable {env : ServerEnv}

def evalText : Text :=
  lit "\x7b\"id\":2,\"jsonrpc\":\"2.0\",\"method\":\"tools/call\",\"params\":" ++
    lit "\x7b\"arguments\":\x7b\"code\":\"1\",\"transport\":\"tmux\"\x7d,\"name\":\"jjmcp_eval\"\x7d\x7d"

end JJMCP.ServeCalls
