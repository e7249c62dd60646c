import EditorBridge.Tool.Basic
/-!
# Tools for the editor's plugin

The plugin pushes its state, reports that it is alive, and acknowledges
commands. Every failure is a result with a kind, so that it never has to read a
protocol error; before the handshake is finished there is only one.
-/

namespace EditorBridge.Tool

/-- The failure of a session that has not finished its handshake. -/
def unfinishedHandshake : Outcome := .failure .notAvailable "bridge session is not initialized"

/-- Rejects arguments by a result. -/
def rejectByResult (message : String) (c : Context) : Outcome :=
  match c.ready? with
  | some _ => .failure .invalidParams message
  | none => unfinishedHandshake

/-- Runs something for a session that has finished its handshake. -/
def whenReady (k : String → Json → Services → Outcome × Services) (c : Context) (args : Json)
    (s : Services) : Outcome × Services :=
  match c.ready? with
  | some session => k session args s
  | none => (unfinishedHandshake, s)

/-- A property that is an object. -/
def objectProperty (description : String) : Json :=
  .object [("type", .str "object"), ("description", .str description)]

/-- Replaces the snapshot of a session. -/
def runSync (session : String) (args : Json) (s : Services) : Outcome × Services :=
  match Snapshot.decode args with
  | .error m => (.failure .invalidParams ("invalid snapshot payload: " ++ m.message), s)
  | .ok snapshot =>
    match s.snapshots.upsert session snapshot s.now with
    | (.error e, _) => (.failure .invalidParams e.message, s)
    | (.ok stored, snapshots) =>
      let value := Json.object [("ok", .bool true), ("sessionId", .str stored.session),
        ("updatedAt", .str stored.updatedAt.text)]
      (.result (.success value), { s with snapshots := snapshots })

/-- The tool that pushes the editor's state. -/
def syncSnapshot : Tool where
  name := "bridge_sync_snapshot"
  description := "Push the editor's current scene summary, node tree and node details"
  inputSchema := objectSchema
    [("sceneSummary", objectProperty "Open scene, project name and similar summary fields"),
      ("nodeTree", objectProperty "Hierarchy of nodes in the edited scene"),
      ("nodeDetails", objectProperty "Per-node properties keyed by node path")] []
  run := whenReady runSync
  reject := rejectByResult

/-- Refreshes the time of a session's snapshot. -/
def runPing (session : String) (_args : Json) (s : Services) : Outcome × Services :=
  match s.snapshots.touch session s.now with
  | (.ok (), snapshots) =>
    let value := Json.object [("ok", .bool true), ("updatedAt", .str s.now.text)]
    (.result (.success value), { s with snapshots := snapshots })
  | (.error .notFound, _) => (.failure .notAvailable "no snapshot synced yet for this session", s)
  | (.error e, _) => (.failure .notAvailable e.message, s)

/-- The tool that reports that the editor is alive. -/
def ping : Tool where
  name := "bridge_ping"
  description := "Signal that the editor is alive and its last snapshot is still current"
  inputSchema := objectSchema [] []
  run := whenReady runPing
  reject := rejectByResult

/-- Acknowledges a command. -/
def runAck (session : String) (args : Json) (s : Services) : Outcome × Services :=
  match Broker.Ack.decode args with
  | .error m => (.failure .invalidParams ("invalid ack payload: " ++ m.message), s)
  | .ok a =>
    match s.broker.ack session a s.now with
    | (.ok (), broker) =>
      let value := Json.object [("ok", .bool true), ("commandId", .str a.commandId)]
      (.result (.success value), { s with broker := broker })
    | (.error (.sessionMismatch id), _) =>
      (.failure .invalidParams (CommandError.sessionMismatch id).message, s)
    | (.error e, _) => (.failure .notAvailable e.message, s)

/-- The tool that acknowledges a command. -/
def ackCommand : Tool where
  name := "bridge_ack_command"
  description := "Acknowledge a bridge/command notification with its outcome"
  inputSchema := objectSchema
    [("commandId", .object [("type", .str "string"), ("minLength", .int 1)]),
      ("success", .object [("type", .str "boolean")]),
      ("result", .object []),
      ("error", .object [("type", .arr [.str "string", .str "null"])]),
      ("ackedAt", .object [("type", .arr [.str "string", .str "null"]),
        ("description", .str "RFC 3339 timestamp")])]
    ["commandId", "success"]
  run := whenReady runAck
  reject := rejectByResult

end EditorBridge.Tool
