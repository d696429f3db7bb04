import JJMCP.EvalCode

namespace JJMCP.BootstrapCode

open Text Marker EvalCode

def emit (mark : Text) : Text :=
  lit "            printstyled(stderr, " ++ juliaStringLiteral mark ++ lit ", '\\n'; color=:light_black); flush(stderr)\n"

def emitInline (mark : Text) : Text :=
  lit "        printstyled(stderr, " ++ juliaStringLiteral mark ++ lit ", '\\n'; color=:light_black); flush(stderr)\n"

/-- The Julia code that defines JJMCPRuntime, with its markers around it. -/
def makeJjmcpRuntimeBootstrapCode (m : Marker) : Text :=
  lit "begin\n" ++
    lit "    # JJMCP one-time Julia runtime bootstrap for clean @JJMCP_COMMAND evals.\n" ++
    emitInline m.beginMark ++
    lit "    try\n" ++
    lit "        if !isdefined(Main, :JJMCPRuntime)\n" ++
    lit "            Core.eval(Main, :(module JJMCPRuntime\n" ++
    lit "            end))\n" ++
    lit "        end\n" ++
    lit "        Core.eval(Main.JJMCPRuntime, quote\n" ++
    lit "            export @JJMCP_COMMAND\n" ++
    lit "            RUNTIME_VERSION = 1\n" ++
    lit "            _marker(id::AbstractString, kind::AbstractString) = \"__JJMCP_$(kind)_$(id)__\"\n" ++
    lit "            function _emit_marker(kind::AbstractString, id::AbstractString)\n" ++
    lit "                printstyled(stderr, _marker(id, kind), '\\n'; color = :light_black)\n" ++
    lit "                flush(stderr)\n" ++
    lit "            end\n" ++
    lit "            function _unwrap_load_error(e)\n" ++
    lit "                while e isa LoadError\n" ++
    lit "                    e = e.error\n" ++
    lit "                end\n" ++
    lit "                return e\n" ++
    lit "            end\n" ++
    lit "            function _eval_body(mod::Module, body)\n" ++
    lit "                if body isa Expr && body.head === :block\n" ++
    lit "                    value = nothing\n" ++
    lit "                    for stmt in body.args\n" ++
    lit "                        stmt isa LineNumberNode && continue\n" ++
    lit "                        value = Core.eval(mod, stmt)\n" ++
    lit "                    end\n" ++
    lit "                    return value\n" ++
    lit "                end\n" ++
    lit "                return Core.eval(mod, body)\n" ++
    lit "            end\n" ++
    lit "            function run_command(marker_id::AbstractString, timeout_ms::Integer, body, mod::Module)\n" ++
    lit "                result = nothing\n" ++
    lit "                _emit_marker(\"BEGIN\", marker_id)\n" ++
    lit "                try\n" ++
    lit "                    result = _eval_body(mod, body)\n" ++
    lit "                    _emit_marker(\"OUT_END\", marker_id)\n" ++
    lit "                    if !isnothing(result)\n" ++
    lit "                        show(stdout, MIME(\"text/plain\"), result)\n" ++
    lit "                        println()\n" ++
    lit "                        flush(stdout)\n" ++
    lit "                    end\n" ++
    lit "                    _emit_marker(\"VAL_END\", marker_id)\n" ++
    lit "                catch e\n" ++
    lit "                    _emit_marker(\"ERROR\", marker_id)\n" ++
    lit "                    err = _unwrap_load_error(e)\n" ++
    lit "                    showerror(stdout, err)\n" ++
    lit "                    println()\n" ++
    lit "                    flush(stdout)\n" ++
    lit "                    _emit_marker(\"BT\", marker_id)\n" ++
    lit "                    Base.show_backtrace(stdout, catch_backtrace())\n" ++
    lit "                    println()\n" ++
    lit "                    flush(stdout)\n" ++
    lit "                finally\n" ++
    lit "                    _emit_marker(\"END\", marker_id)\n" ++
    lit "                end\n" ++
    lit "                return nothing\n" ++
    lit "            end\n" ++
    lit "            macro JJMCP_COMMAND(marker_id, timeout_ms, body)\n" ++
    lit "                return :(Main.JJMCPRuntime.run_command($(esc(marker_id)), $(esc(timeout_ms)), $(QuoteNode(body)), $(QuoteNode(__module__))))\n" ++
    lit "            end\n" ++
    lit "        end)\n" ++
    lit "        Core.eval(Main, :(using .JJMCPRuntime: @JJMCP_COMMAND))\n" ++
    emit (m.mark .OutEnd) ++
    emit (m.mark .ValEnd) ++
    lit "    catch e\n" ++
    emit (m.mark .Error) ++
    lit "        err = e\n" ++
    lit "        while err isa LoadError\n" ++
    lit "            err = err.error\n" ++
    lit "        end\n" ++
    lit "        showerror(stdout, err)\n" ++
    lit "        println()\n" ++
    lit "        flush(stdout)\n" ++
    emit (m.mark .Backtrace) ++
    lit "        Base.show_backtrace(stdout, catch_backtrace())\n" ++
    lit "        println()\n" ++
    lit "        flush(stdout)\n" ++
    lit "    finally\n" ++
    emit (m.mark .End) ++
    lit "    end\n" ++
    lit "    nothing\n" ++
    lit "end\n"

theorem getLast_end (t : Text) : (t ++ lit "end\n").getLast? = some nl := by
  have hend : (lit "end\n").getLast? = some nl := rfl
  rw [List.getLast?_append, hend, Option.some_or]

theorem makeJjmcpRuntimeBootstrapCode_end (m : Marker) : (makeJjmcpRuntimeBootstrapCode m).getLast? = some nl := by
  unfold makeJjmcpRuntimeBootstrapCode
  exact getLast_end _

theorem wrapJuliaCode_end (code : Text) (m : Marker) (timeoutMs : Nat) :
    (wrapJuliaCode code m timeoutMs).getLast? = some nl :=
  getLast_end _

end JJMCP.BootstrapCode
