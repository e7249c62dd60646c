import EditorBridge.Tool.Basic
/-!
# Probe tools

Tools that do nothing but end in a given way, for trying out a registry and
what it makes of each way to end.
-/

namespace EditorBridge.Tool

/-- What a probe does. -/
inductive Probe where
  /-- Shows its arguments and the caller's session. -/
  | echo
  | error (e : ToolError)
  | failure (kind : Rpc.ErrorKind) (message : String)
  | panic (detail : Option String)
  deriving DecidableEq

/-- How a probe ends. -/
def Probe.outcome (p : Probe) (c : Context) (args : Json) : Outcome :=
  match p with
  | .echo =>
    .result (.success (.object [("params", args),
      ("ready", Json.orNull (c.ready?.map .str))]))
  | .error e => .error e
  | .failure kind message => .failure kind message
  | .panic detail => .panic detail

/-- A probe as a tool. -/
def ofProbe (name description : String) (schema : Json) (p : Probe) : Tool where
  name := name
  description := description
  inputSchema := schema
  run c args s := (p.outcome c args, s)

end EditorBridge.Tool
