import EditorBridge.Config.Basic
import EditorBridge.Text.Numeral
/-!
# Overrides from the environment

Seven variables override settings. They are looked at in a fixed order; the
first one that holds no number where one is wanted stops the rest.
-/

namespace EditorBridge.Config

/-- The value of a variable, if it is set. -/
abbrev Environment := String → Option String

/-- A variable and how its value changes the settings. -/
structure Variable where
  name : String
  apply : String → Config → Except ConfigError Config

/-- A variable that holds a text. -/
def textVariable (name : String) (store : String → Config → Config) : Variable :=
  ⟨name, fun v c => .ok (store v c)⟩

/-- A variable that holds a number of some bits, blanks around it allowed. -/
def numberVariable (name : String) (bits : Nat) (store : Nat → Config → Config) : Variable :=
  ⟨name, fun v c =>
    match Text.natural? (Nat.pow 2 bits) (Text.trim v) with
    | some n => .ok (store n c)
    | none => .error (.invalid (name ++ " is not a valid number: " ++ v))⟩

/-- The variables in the order they are looked at. -/
def overrides : List Variable :=
  [textVariable "EDITOR_BRIDGE_HOST" fun v c => { c with host := v },
    numberVariable "EDITOR_BRIDGE_PORT" 16 fun v c => { c with port := v },
    textVariable "EDITOR_BRIDGE_LOG_LEVEL" fun v c =>
      { c with logging := { c.logging with level := v } },
    textVariable "EDITOR_BRIDGE_LOG_DIR" fun v c =>
      { c with logging := { c.logging with directory := some v } },
    numberVariable "EDITOR_BRIDGE_SNAPSHOT_STALE_SECS" 64 fun v c =>
      { c with snapshotStaleAfterSecs := v },
    numberVariable "EDITOR_BRIDGE_COMMAND_TIMEOUT_SECS" 64 fun v c =>
      { c with commandTimeoutSecs := v },
    numberVariable "EDITOR_BRIDGE_SESSION_TIMEOUT_SECS" 64 fun v c =>
      { c with sessionTimeoutSecs := v }]

/-- Applies variables in their order: the settings as far as they got, and what stopped them. -/
def applyOverrides (env : Environment) : List Variable → Config → Config × Except ConfigError Unit
  | [], c => (c, .ok ())
  | v :: rest, c =>
    match env v.name with
    | none => applyOverrides env rest c
    | some value =>
      match v.apply value c with
      | .ok c => applyOverrides env rest c
      | .error e => (c, .error e)

/-- Applies the environment. -/
def applyEnvironment (env : Environment) (c : Config) : Config × Except ConfigError Unit :=
  applyOverrides env overrides c

end EditorBridge.Config
