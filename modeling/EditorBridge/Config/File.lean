import EditorBridge.Config.Basic
import EditorBridge.Json.TextRecord
/-!
# The configuration file

A JSON object, or a list of the settings in their order. What it leaves out
keeps its default; a file that is absent leaves out everything.
-/

namespace EditorBridge.Config

open Json (TextField Record Decoder)

/-- What is found at the place of the file. -/
inductive File where
  | absent
  | directory
  | bytes (content : Text.Bytes)
  deriving DecidableEq, Repr

/-- A field that is read and then stored. -/
def settingField {α β : Type} (name : String)
    (read : Text.Bytes → Except Json.Fault (Json.Taken β)) (store : β → α → α) : TextField α :=
  ⟨name, fun bs => (read bs).map fun (b, rest) => (store b, rest)⟩

/-- The settings of the log in a file. -/
def logFields : List (TextField LogConfig) :=
  [settingField "level" (Json.Scan.textField "a string") fun v c => { c with level := v },
    settingField "directory" (Json.Scan.optionalField (Json.Scan.textField "path string"))
      fun v c => { c with directory := v }]

/-- A setting of seconds in a file. -/
def secondsField (name : String) (store : Nat → Config → Config) : TextField Config :=
  settingField name (Json.Scan.naturalField 64 "u64") store

/-- A setting that counts something in a file. -/
def countField (name : String) (store : Nat → Config → Config) : TextField Config :=
  settingField name (Json.Scan.naturalField 64 "usize") store

/-- The settings in a file. -/
def fields : List (TextField Config) :=
  [settingField "host" (Json.Scan.textField "a string") fun v c => { c with host := v },
    settingField "port" (Json.Scan.naturalField 16 "u16") fun v c => { c with port := v },
    secondsField "session_timeout_secs" fun v c => { c with sessionTimeoutSecs := v },
    secondsField "cleanup_interval_secs" fun v c => { c with cleanupIntervalSecs := v },
    secondsField "snapshot_stale_after_secs" fun v c => { c with snapshotStaleAfterSecs := v },
    secondsField "command_timeout_secs" fun v c => { c with commandTimeoutSecs := v },
    secondsField "keepalive_interval_secs" fun v c => { c with keepaliveIntervalSecs := v },
    countField "sse_buffer" fun v c => { c with sseBuffer := v },
    secondsField "sse_write_timeout_secs" fun v c => { c with sseWriteTimeoutSecs := v },
    countField "max_body_bytes" fun v c => { c with maxBodyBytes := v },
    settingField "logging"
      (Json.Scan.textRecord "struct LoggingConfig" logFields .default)
      fun v c => { c with logging := v }]

/-- The configuration that a text describes. -/
def ofText (bs : Text.Bytes) : Except Json.Fault Config := do
  Json.Scan.finish (← Json.Scan.textRecord "struct BridgeConfig" fields .default bs)

/-- The configuration of a file. -/
def load : File → Except ConfigError Config
  | .absent => .ok .default
  | .directory => .error (.io "Is a directory (os error 21)")
  | .bytes content =>
    if (Text.decode? content).isNone then .error (.io "stream did not contain valid UTF-8")
    else (ofText content).mapError fun fault => .parse (fault.message content)

/-- The settings of the log in a JSON value. -/
def decodeLog : Decoder LogConfig :=
  (((Record.pure LogConfig.mk).seq
    (.withDefault "level" Decoder.string LogConfig.default.level)).seq
    (.withDefault "directory" (Decoder.optional Decoder.path) none)).decode "struct LoggingConfig"

/-- The settings in a JSON value. -/
def decode : Decoder Config :=
  ((((((((((((Record.pure Config.mk).seq
    (.withDefault "host" Decoder.string default.host)).seq
    (.withDefault "port" (Decoder.natural 16 "u16") default.port)).seq
    (.withDefault "session_timeout_secs" (Decoder.natural 64 "u64") default.sessionTimeoutSecs)).seq
    (.withDefault "cleanup_interval_secs" (Decoder.natural 64 "u64")
      default.cleanupIntervalSecs)).seq
    (.withDefault "snapshot_stale_after_secs" (Decoder.natural 64 "u64")
      default.snapshotStaleAfterSecs)).seq
    (.withDefault "command_timeout_secs" (Decoder.natural 64 "u64") default.commandTimeoutSecs)).seq
    (.withDefault "keepalive_interval_secs" (Decoder.natural 64 "u64")
      default.keepaliveIntervalSecs)).seq
    (.withDefault "sse_buffer" (Decoder.natural 64 "usize") default.sseBuffer)).seq
    (.withDefault "sse_write_timeout_secs" (Decoder.natural 64 "u64")
      default.sseWriteTimeoutSecs)).seq
    (.withDefault "max_body_bytes" (Decoder.natural 64 "usize") default.maxBodyBytes)).seq
    (.withDefault "logging" decodeLog .default)).decode "struct BridgeConfig"

end EditorBridge.Config
