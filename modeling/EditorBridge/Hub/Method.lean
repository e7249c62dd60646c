import EditorBridge.Hub.Run
import EditorBridge.Json.Reader
import EditorBridge.Rpc.Frame
import EditorBridge.Rpc.Params
/-!
# The methods

What the bridge does on each method of a request. A tool that commands the
editor leaves its request waiting; every other method is answered at once.
Notifications are never answered.
-/

namespace EditorBridge.Hub

/-- The resource that holds the summary of the scene. -/
def summaryUri : String := "editor://scene/summary"

/-- The resource that holds the tree of nodes. -/
def treeUri : String := "editor://scene/tree"

/-- A resource in the list of resources. -/
def resource (uri name description : String) : Json :=
  .object [("uri", .str uri), ("name", .str name), ("description", .str description),
    ("mimeType", .str "application/json")]

/-- The list of resources. -/
def resources : Json :=
  .object [("resources", .arr
    [resource summaryUri "Scene summary" "Summary of the scene open in the editor",
      resource treeUri "Scene tree" "Node hierarchy of the scene open in the editor"])]

/-- A tool's view of who calls. -/
def toolContext (h : Hub) (session : Option String) : Tool.Context :=
  ⟨session, (session.map h.sessions.isInitialized).getD false⟩

/-- What tools work on. -/
def services (h : Hub) : Tool.Services := ⟨h.snapshots, h.broker, h.wall, h.config.commandTimeout⟩

/-- The hub after tools have worked on it. -/
def withServices (h : Hub) (s : Tool.Services) : Hub :=
  { h with snapshots := s.snapshots, broker := s.broker }

/-- Waits for a tool. -/
def execute (h : Hub) (reply : ToolReply) (name : String) (args : Json) (c : Tool.Context) :
    TaskId × Hub :=
  let (outcome, s) := h.tools.execute name args c h.services
  let h := h.withServices s
  match outcome with
  | .result r => h.answered (toolAnswer reply (.ok r))
  | .error e => h.answered (toolAnswer reply (.error e))
  | .panic detail =>
    h.answered (toolAnswer reply (.error (.executionFailed (Tool.Registry.panicDetail detail))))
  | .command o => h.dispatch (.tool o.command reply) o

/-- Decodes the params of a request. -/
def params {α : Type} (d : Json.Decoder α) (r : Rpc.Request) : Except Rpc.Error α :=
  match r.params with
  | none => .error (.invalidParams "Missing parameters")
  | some j => (d j).mapError fun m => .invalidParams ("Invalid params: " ++ m.message)

/-- Does the handshake. -/
def handshake (h : Hub) (session : Option String) (r : Rpc.Request) : Except Rpc.Error Json × Hub :=
  match session with
  | none => (.error SessionRefusal.missingSessionId.toRpc, h)
  | some session =>
    let requested := (Json.Members.get? "protocolVersion" r.paramMembers).bind Json.str?
    match h.sessions.negotiate session requested with
    | (some version, sessions) =>
      (.ok (Handshake.answer version).toJson.sorted, { h with sessions := sessions })
    | (none, _) => (.error (SessionRefusal.notFound session).toRpc, h)

/-- Reads a resource. -/
def readResource (h : Hub) (session : Option String) (r : Rpc.Request) : Except Rpc.Error Json := do
  let p ← params Rpc.ResourceRead.decode r
  if p.uri ≠ summaryUri ∧ p.uri ≠ treeUri then
    throw (.invalidParams ("Unknown resource: " ++ p.uri))
  let stored ← (Tool.visibleSnapshot h.snapshots session h.wall).mapError ToolError.toRpc
  let payload :=
    if p.uri = summaryUri then stored.snapshot.sceneSummary else stored.snapshot.nodeTree
  return .object [("contents", .arr [.object [("uri", .str p.uri),
    ("mimeType", .str "application/json"), ("text", .str payload.indented)]])]

/-- Takes note of a notification. -/
def notice (h : Hub) (session : Option String) (method : String) : Hub :=
  match method, session with
  | "notifications/initialized", some session =>
    { h with sessions := (h.sessions.confirm session).2 }
  | _, _ => h

/-- The message that answers a request. -/
def reply (id : Json) : Except Rpc.Error Json → Rpc.Message
  | .ok result => .response id result
  | .error e => .errorReply id e

/-- A request as it is answered: now, by a message or not at all, or by a tool. -/
inductive Handling where
  | now (m : Option Rpc.Message)
  | tool (id : Json) (name : String) (args : Json)

/-- What a request leads to. -/
def handling (h : Hub) (session : Option String) (r : Rpc.Request) : Handling × Hub :=
  match r.id with
  | none => (.now none, h.notice session r.method)
  | some id =>
    let answer (o : Except Rpc.Error Json) : Handling := .now (some (reply id o))
    match r.method with
    | "initialize" =>
      let (o, h) := h.handshake session r
      (answer o, h)
    | "ping" => (answer (.ok (.obj [])), h)
    | "tools/list" => (answer (.ok (.object [("tools", .arr h.tools.list)])), h)
    | "tools/call" =>
      match params Rpc.ToolCall.decode r with
      | .ok call => (.tool id call.name (Json.orNull call.arguments), h)
      | .error e => (answer (.error e), h)
    | "resources/list" => (answer (.ok resources), h)
    | "resources/read" => (answer (h.readResource session r), h)
    | "prompts/list" => (answer (.ok (.object [("prompts", .arr [])])), h)
    | method => (answer (.error (RequestError.methodNotFound method).toRpc), h)

/-- Waits for the answer to a request. -/
def handle (h : Hub) (session : Option String) (r : Rpc.Request) : TaskId × Hub :=
  match h.handling session r with
  | (.now m, h) => h.answered (.message m)
  | (.tool id name args, h) => h.execute (.message id) name args (h.toolContext session)

end EditorBridge.Hub
