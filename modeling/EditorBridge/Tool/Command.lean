import EditorBridge.Tool.Basic
/-!
# Tools that command the editor

A command goes to the editor whose snapshot is the latest. What the editor
acknowledges becomes the result.
-/

namespace EditorBridge.Tool

/-- The longest timeout a caller may ask for, in milliseconds. -/
def maxTimeoutMillis : Nat := 600000

/-- Asks for a command to be sent to the editor with the latest snapshot. -/
def sendCommand (command : String) (args : Json) (timeout : Nanos) (s : Services) :
    Outcome × Services :=
  match s.snapshots.latest with
  | none => (.error (.notAvailable "no editor is connected to the bridge"), s)
  | some target => (.command ⟨target, command, args, timeout⟩, s)

/-- The result that an acknowledgement makes. -/
def ofAck (command : String) (a : Broker.Ack) : Result :=
  if a.success then
    .success (.object [("commandId", .str a.commandId), ("command", .str command),
      ("result", Json.orNull a.result),
      ("ackedAt", Json.orNull (a.ackedAt.map fun t => .str t.text))])
  else .failure .internal (a.error.getD ("editor reported failure for " ++ command))

/-- What the end of a command makes of the tool call that asked for it. -/
def ofCommand (command : String) : Except CommandError Broker.Ack → Except ToolError Result
  | .ok a => .ok (ofAck command a)
  | .error e => .error (.notAvailable e.message)

/-- Runs the project. -/
def runRunProject (_c : Context) (args : Json) (s : Services) : Outcome × Services :=
  let scene := ((args.get? "scene").bind Json.str?).map fun v => ("scene", Json.str v)
  sendCommand "run-project" (.obj scene.toList) s.commandTimeout s

/-- The tool that runs the project. -/
def runProject : Tool where
  name := "run_project"
  description := "Run the project in the editor, optionally starting from a specific scene"
  inputSchema := objectSchema
    [("scene", .object [("type", .str "string"),
      ("description",
        .str "Scene to run instead of the main scene, e.g. res://levels/level1.tscn")])] []
  run := runRunProject

/-- The tool that stops the project. -/
def stopProject : Tool where
  name := "stop_project"
  description := "Stop the project if it is running in the editor"
  inputSchema := objectSchema [] []
  run _c _args s := sendCommand "stop-project" (.obj []) s.commandTimeout s

/-- The timeout a caller asks for. Only a number written as an integer counts. -/
def askedTimeout? : Json → Option Nanos
  | .int ms => if 0 ≤ ms then some (.ofMillis (min ms.toNat maxTimeoutMillis)) else none
  | _ => none

/-- Sends any command. -/
def runAnyCommand (_c : Context) (args : Json) (s : Services) : Outcome × Services :=
  match (args.get? "command").bind Json.str? with
  | some command =>
    if Text.blank command then (.error (.invalidParams "command is required"), s)
    else
      let timeout := ((args.get? "timeoutMs").bind askedTimeout?).getD s.commandTimeout
      sendCommand command ((args.get? "args").getD (.obj [])) timeout s
  | none => (.error (.invalidParams "command is required"), s)

/-- The tool that sends any command. -/
def editorCommand : Tool where
  name := "editor_command"
  description := "Send an arbitrary named command to the editor plugin and wait for its result"
  inputSchema := objectSchema
    [("command", .object [("type", .str "string"), ("minLength", .int 1)]),
      ("args", .object [("type", .str "object")]),
      ("timeoutMs", .object [("type", .str "integer"), ("minimum", .int 1),
        ("maximum", .int maxTimeoutMillis)])]
    ["command"]
  run := runAnyCommand

end EditorBridge.Tool
