import EditorBridge.Rpc.Error
import EditorBridge.Time.Span
/-!
# Failures of the bridge

Each part of the bridge has its own failures. Here are their wording and how
they are reported to a client: mistakes of the client and passing states are
named, faults of the bridge are reported without their detail.
-/

namespace EditorBridge

/-- Failures of writing to an event stream. -/
inductive WriteError where
  | closed
  | connectionLost (detail : String)
  | writeTimeout (after : Nanos)
  deriving DecidableEq, Repr

/-- Failures of handling a request. -/
inductive RequestError where
  | methodNotFound (method : String)
  | internal (detail : String)
  deriving DecidableEq, Repr

/-- Failures of a tool. -/
inductive ToolError where
  | notFound (name : String)
  | invalidParams (detail : String)
  | notAvailable (detail : String)
  | notSupported (detail : String)
  | executionFailed (detail : String)
  deriving DecidableEq, Repr

/-- Refusals of a session. -/
inductive SessionRefusal where
  | missingSessionId
  | notFound (session : String)
  | missingProtocolVersion
  | unsupportedProtocolVersion (version : String)
  | protocolVersionMismatch (negotiated received : String)
  | notNegotiated (session : String)
  deriving DecidableEq, Repr

/-- Failures of a command sent to an editor. -/
inductive CommandError where
  | invalidRequest
  | transportUnavailable (session : String)
  | ackTimeout (after : Nanos)
  | unknownCommand (command : String)
  | sessionMismatch (command : String)
  deriving DecidableEq, Repr

/-- Failures of looking up a snapshot. -/
inductive SnapshotError where
  | invalidSession
  | notFound
  | stale (session : String) (ageMillis : Int)
  deriving DecidableEq, Repr

/-- Any failure of the bridge. -/
inductive BridgeError where
  | write (e : WriteError)
  | request (e : RequestError)
  | tool (e : ToolError)
  | session (e : SessionRefusal)
  | command (e : CommandError)
  | snapshot (e : SnapshotError)
  | validation (detail : String)
  | internal (detail : String)
  | serialization (detail : String)
  deriving DecidableEq, Repr

/-! ## Wording -/

/-- The wording of a failed write. -/
def WriteError.message : WriteError → String
  | .closed => "Transport closed"
  | .connectionLost detail => "Connection lost: " ++ detail
  | .writeTimeout after => "Write timed out after " ++ after.text

/-- The wording of a failed request. -/
def RequestError.message : RequestError → String
  | .methodNotFound method => "Method not found: " ++ method
  | .internal detail => "Internal error: " ++ detail

/-- The wording of a tool's failure. -/
def ToolError.message : ToolError → String
  | .notFound name => "Tool not found: " ++ name
  | .invalidParams detail => "Invalid parameters: " ++ detail
  | .notAvailable detail => "Not available: " ++ detail
  | .notSupported detail => "Not supported: " ++ detail
  | .executionFailed detail => "Execution failed: " ++ detail

/-- The wording of a session's refusal. -/
def SessionRefusal.message : SessionRefusal → String
  | .missingSessionId => "Missing Mcp-Session-Id header"
  | .notFound session => "Session not found: " ++ session
  | .missingProtocolVersion => "Missing MCP-Protocol-Version header"
  | .unsupportedProtocolVersion version => "Unsupported protocol version: " ++ version
  | .protocolVersionMismatch negotiated received =>
    "Protocol version mismatch: negotiated " ++ negotiated ++ ", received " ++ received
  | .notNegotiated session => "Session " ++ session ++ " has not negotiated a protocol version"

/-- The wording of a command's failure. -/
def CommandError.message : CommandError → String
  | .invalidRequest => "session id and command name are required"
  | .transportUnavailable session => "transport unavailable for session " ++ session
  | .ackTimeout after => "command ack timeout after " ++ after.text
  | .unknownCommand command => "unknown or expired command id: " ++ command
  | .sessionMismatch command => "command " ++ command ++ " belongs to a different session"

/-- The wording of a snapshot's failure. -/
def SnapshotError.message : SnapshotError → String
  | .invalidSession => "session id is required"
  | .notFound => "no snapshot available"
  | .stale session age =>
    "snapshot for session " ++ session ++ " is stale (" ++ toString age ++ "ms old)"

/-- The wording of any failure. -/
def BridgeError.message : BridgeError → String
  | .write e => "Transport error: " ++ e.message
  | .request e => "Protocol error: " ++ e.message
  | .tool e => "Tool execution error: " ++ e.message
  | .session e => "Session error: " ++ e.message
  | .command e => "Command broker error: " ++ e.message
  | .snapshot e => "Snapshot error: " ++ e.message
  | .validation detail => "Validation error: " ++ detail
  | .internal detail => "Internal server error: " ++ detail
  | .serialization detail => "Serialization error: " ++ detail

/-! ## Reports to a client -/

/-- A tool's failure as a client sees it. -/
def ToolError.toRpc : ToolError → Rpc.Error
  | .notFound name => .invalidParams ("Unknown tool: " ++ name)
  | .invalidParams detail => .invalidParams detail
  | .notAvailable detail => .notAvailable detail
  | .notSupported detail => .notSupported detail
  | .executionFailed _ => .internal "Tool execution failed"

/-- A session's refusal as a client sees it. -/
def SessionRefusal.toRpc (e : SessionRefusal) : Rpc.Error :=
  match e with
  | .notFound _ | .notNegotiated _ => .notAvailable e.message
  | _ => .invalidRequest e.message

/-- Any failure as a client sees it. -/
def BridgeError.toRpc : BridgeError → Rpc.Error
  | .request (.methodNotFound method) => .methodNotFound method
  | .validation detail => .invalidParams detail
  | .tool e => e.toRpc
  | .session e => e.toRpc
  | .command e => .notAvailable e.message
  | .snapshot e => .notAvailable e.message
  | .write _ | .request (.internal _) | .internal _ | .serialization _ =>
    .internal "Internal error"

/-- A failed request as a client sees it. -/
def RequestError.toRpc (e : RequestError) : Rpc.Error := BridgeError.toRpc (.request e)

end EditorBridge
