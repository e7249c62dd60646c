import EditorBridge.Json.Decode
import EditorBridge.Text.Blank
import EditorBridge.Time.Span
/-!
# Configuration

The settings of a bridge and their defaults. A configuration that validates has
a host, a port, and no count or span of zero.
-/

namespace EditorBridge

/-- Settings of the log. -/
structure LogConfig where
  level : String
  directory : Option String
  deriving DecidableEq, Repr

/-- The log's default settings. -/
def LogConfig.default : LogConfig := ⟨"info", none⟩

/-- All settings. -/
structure Config where
  host : String
  port : Nat
  sessionTimeoutSecs : Nat
  cleanupIntervalSecs : Nat
  snapshotStaleAfterSecs : Nat
  commandTimeoutSecs : Nat
  keepaliveIntervalSecs : Nat
  sseBuffer : Nat
  sseWriteTimeoutSecs : Nat
  maxBodyBytes : Nat
  logging : LogConfig
  deriving DecidableEq, Repr

/-- Why there is no configuration. -/
inductive ConfigError where
  | io (detail : String)
  | parse (detail : String)
  | invalid (detail : String)
  deriving DecidableEq, Repr

/-- The wording of an error. -/
def ConfigError.message : ConfigError → String
  | .io detail => "IO error: " ++ detail
  | .parse detail => "Invalid configuration file: " ++ detail
  | .invalid detail => "Invalid configuration: " ++ detail

namespace Config

/-- The settings of a bridge that nobody configured. -/
def default : Config where
  host := "127.0.0.1"
  port := 6505
  sessionTimeoutSecs := 1800
  cleanupIntervalSecs := 60
  snapshotStaleAfterSecs := 10
  commandTimeoutSecs := 30
  keepaliveIntervalSecs := 15
  sseBuffer := 64
  sseWriteTimeoutSecs := 10
  maxBodyBytes := 1048576
  logging := .default

/-- The settings that count seconds, by name. -/
def spans (c : Config) : List (String × Nat) :=
  [("session_timeout_secs", c.sessionTimeoutSecs),
    ("cleanup_interval_secs", c.cleanupIntervalSecs),
    ("snapshot_stale_after_secs", c.snapshotStaleAfterSecs),
    ("command_timeout_secs", c.commandTimeoutSecs),
    ("keepalive_interval_secs", c.keepaliveIntervalSecs),
    ("sse_write_timeout_secs", c.sseWriteTimeoutSecs)]

/-- The first fault of a configuration. -/
def validate (c : Config) : Except ConfigError Unit :=
  if Text.blank c.host then .error (.invalid "host cannot be empty")
  else if c.port = 0 then .error (.invalid "port must be non-zero")
  else
    match c.spans.find? (·.2 = 0) with
    | some (name, _) => .error (.invalid (name ++ " must be non-zero"))
    | none =>
      if c.sseBuffer = 0 then .error (.invalid "sse_buffer must be non-zero")
      else if c.maxBodyBytes = 0 then .error (.invalid "max_body_bytes must be non-zero")
      else .ok ()

/-- The settings of the log as members. -/
def logJson (l : LogConfig) : Json :=
  .obj [("level", .str l.level), ("directory", Json.orNull (l.directory.map .str))]

/-- The settings as members, in their order. -/
def toJson (c : Config) : Json :=
  .obj [("host", .str c.host), ("port", .int c.port),
    ("session_timeout_secs", .int c.sessionTimeoutSecs),
    ("cleanup_interval_secs", .int c.cleanupIntervalSecs),
    ("snapshot_stale_after_secs", .int c.snapshotStaleAfterSecs),
    ("command_timeout_secs", .int c.commandTimeoutSecs),
    ("keepalive_interval_secs", .int c.keepaliveIntervalSecs),
    ("sse_buffer", .int c.sseBuffer),
    ("sse_write_timeout_secs", .int c.sseWriteTimeoutSecs),
    ("max_body_bytes", .int c.maxBodyBytes), ("logging", logJson c.logging)]

/-- How long a session may be idle. -/
def sessionTimeout (c : Config) : Nanos := .ofSecs c.sessionTimeoutSecs

/-- The time between two sweeps of idle sessions. -/
def cleanupInterval (c : Config) : Nanos := .ofSecs c.cleanupIntervalSecs

/-- The age at which a snapshot is no longer served. -/
def snapshotStaleAfter (c : Config) : Nanos := .ofSecs c.snapshotStaleAfterSecs

/-- How long a command waits for its acknowledgement. -/
def commandTimeout (c : Config) : Nanos := .ofSecs c.commandTimeoutSecs

/-- The time between two keep-alive comments. -/
def keepaliveInterval (c : Config) : Nanos := .ofSecs c.keepaliveIntervalSecs

/-- How long a write to a stream may wait for room. -/
def sseWriteTimeout (c : Config) : Nanos := .ofSecs c.sseWriteTimeoutSecs

end Config

end EditorBridge
