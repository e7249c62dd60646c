import EditorBridge.Broker.Basic
import EditorBridge.Snapshot.Store
import EditorBridge.Tool.Result
/-!
# Tools

A tool has a name, a description, a schema for its arguments and a way to run.
Running it may change snapshots and commands; it ends with a result or an error,
or asks for a command to be sent to the editor, whose outcome then becomes the
tool's.
-/

namespace EditorBridge

namespace Tool

/-- Who calls a tool. -/
structure Context where
  session : Option String
  initialized : Bool
  deriving DecidableEq, Repr

/-- The caller's session if it has finished its handshake. -/
def Context.ready? (c : Context) : Option String :=
  match c.session, c.initialized with
  | some s, true => if s = "" then none else some s
  | _, _ => none

/-- What a tool works on. -/
structure Services where
  snapshots : Snapshot.Store
  broker : Broker
  now : Timestamp
  /-- How long a command waits for its acknowledgement if nothing else is said. -/
  commandTimeout : Nanos

/-- How a run of a tool goes. -/
inductive Outcome where
  | result (r : Result)
  | error (e : ToolError)
  /-- The tool broke down, leaving a text or nothing readable. -/
  | panic (detail : Option String)
  | command (o : Broker.Order)
  deriving DecidableEq

/-- A structured failure as an outcome. -/
def Outcome.failure (kind : Rpc.ErrorKind) (message : String) : Outcome :=
  .result (.failure kind message)

end Tool

/-- A tool. -/
structure Tool where
  name : String
  description : String
  inputSchema : Json
  /-- Runs the tool on arguments that fit its schema. -/
  run : Tool.Context → Json → Tool.Services → Tool.Outcome × Tool.Services
  /-- What becomes of arguments that do not fit. -/
  reject : String → Tool.Context → Tool.Outcome := fun message _ => .error (.invalidParams message)

namespace Tool

/-- A tool's entry in the list of tools. -/
def info (t : Tool) : Json :=
  .object [("name", .str t.name), ("description", .str t.description),
    ("inputSchema", t.inputSchema)]

/-- The schema of an object with properties, some of them required. -/
def objectSchema (properties : List (String × Json)) (required : List String) : Json :=
  .object ([("type", .str "object"), ("properties", .object properties)] ++
    if required = [] then [] else [("required", .arr (required.map .str))])

end Tool

end EditorBridge
