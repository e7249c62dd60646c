import EditorBridge.Config.Environment
import EditorBridge.Config.File
/-!
# The command line

Five options, each at most once, their value attached or as the next argument.
The value of a detached option is looked at when the next option starts or the
line ends; a word that fits nowhere is noticed before that.
-/

namespace EditorBridge.Config

/-- An option of the command line. -/
inductive Switch where
  | config
  | host
  | port
  | logLevel
  | logDir
  deriving DecidableEq, Repr

/-- What a command line asks for instead of a run, or what is wrong with it. -/
inductive UsageError where
  | help
  | version
  | unknownArgument
  | invalidValue
  | valueValidation
  | argumentConflict
  | tooManyValues
  deriving DecidableEq, Repr

/-- The name of a usage error. -/
def UsageError.name : UsageError → String
  | .help => "DisplayHelp"
  | .version => "DisplayVersion"
  | .unknownArgument => "UnknownArgument"
  | .invalidValue => "InvalidValue"
  | .valueValidation => "ValueValidation"
  | .argumentConflict => "ArgumentConflict"
  | .tooManyValues => "TooManyValues"

/-- The options that were given. -/
structure Arguments where
  config : Option String
  host : Option String
  port : Option Nat
  logLevel : Option String
  logDir : Option String
  deriving DecidableEq, Repr

namespace Arguments

/-- No options. -/
def none : Arguments := ⟨.none, .none, .none, .none, .none⟩

/-- The place of the file if no option names one. -/
def defaultFile : String := "editor-bridge.json"

/-- The place of the file. -/
def file (a : Arguments) : String := a.config.getD defaultFile

/-- Whether an option was given. -/
def has (a : Arguments) : Switch → Bool
  | .config => a.config.isSome
  | .host => a.host.isSome
  | .port => a.port.isSome
  | .logLevel => a.logLevel.isSome
  | .logDir => a.logDir.isSome

/-- A path, which is never empty. -/
def path (v : String) : Except UsageError String := if v = "" then .error .invalidValue else .ok v

/-- A port number. -/
def portNumber (v : String) : Except UsageError Nat :=
  match Text.integer? v with
  | some n => if 0 ≤ n ∧ n < 65536 then .ok n.toNat else .error .valueValidation
  | _ => .error .valueValidation

/-- Gives an option its value, which it may have only once. -/
def assign (a : Arguments) (s : Switch) (v : String) : Except UsageError Arguments :=
  if a.has s then .error .argumentConflict
  else
    match s with
    | .config => (path v).map fun v => { a with config := some v }
    | .host => .ok { a with host := some v }
    | .port => (portNumber v).map fun n => { a with port := some n }
    | .logLevel => .ok { a with logLevel := some v }
    | .logDir => (path v).map fun v => { a with logDir := some v }

/-- What a name on the command line stands for. -/
inductive Name where
  | switch (s : Switch)
  | help
  | version
  deriving DecidableEq, Repr

/-- The meaning of a long name. -/
def ofLong? (name : List Char) : Option Name :=
  [("config", Name.switch .config), ("host", .switch .host), ("port", .switch .port),
    ("log-level", .switch .logLevel), ("log-dir", .switch .logDir), ("help", .help),
    ("version", .version)].lookup (String.ofList name)

/-- The meaning of a letter. -/
def ofShort? (c : Char) : Option Name :=
  [('c', Name.switch .config), ('p', .switch .port), ('h', .help), ('V', .version)].lookup c

/-- How an argument looks. -/
inductive Shape where
  | escape
  | long (name : List Char) (value : Option (List Char))
  | short (letter : Char) (rest : List Char)
  | word
  deriving DecidableEq

/-- The part before the first equals sign and the part after it. -/
def splitEquals (cs : List Char) : List Char × Option (List Char) :=
  match cs.dropWhile (· ≠ '=') with
  | [] => (cs, .none)
  | _ :: value => (cs.takeWhile (· ≠ '='), some value)

/-- The look of an argument. -/
def shape (arg : String) : Shape :=
  match arg.toList with
  | ['-', '-'] => .escape
  | '-' :: '-' :: rest =>
    let (name, value) := splitEquals rest
    .long name value
  | '-' :: c :: rest => .short c rest
  | _ => .word

/-- The value attached to a letter, with or without an equals sign. -/
def attached : List Char → Option (List Char)
  | [] => .none
  | '=' :: value => some value
  | value => some value

/-- A command line read so far: the options with their values, the last option and its detached
value, whether that value is still to come, and whether options have been ruled out. -/
structure Progress where
  given : Arguments
  pending : Option (Switch × Option String)
  awaiting : Bool
  escaped : Bool

/-- Settles the last option. -/
def Progress.settle (p : Progress) : Except UsageError Progress :=
  match p.pending with
  | .none => .ok p
  | some (_, .none) => .error .invalidValue
  | some (s, some v) => (p.given.assign s v).map fun a => ⟨a, .none, false, p.escaped⟩

/-- An option or a request for help, with the value attached to it. -/
def Progress.option (p : Progress) (name : Name) (value : Option (List Char)) :
    Except UsageError Progress :=
  match name with
  | .switch s => do
    let p ← p.settle
    match value with
    | some v => return { p with given := ← p.given.assign s (String.ofList v), awaiting := false }
    | .none => return { p with pending := some (s, .none), awaiting := true }
  | .help => do
    let _ ← p.settle
    throw .help
  | .version => do
    let _ ← p.settle
    throw .version

/-- Takes one more argument. -/
def Progress.step (p : Progress) (arg : String) : Except UsageError Progress :=
  if p.escaped then .error .unknownArgument
  else
    match shape arg with
    | .escape => .ok { p with escaped := true }
    | .long name value =>
      match ofLong? name with
      | .none => .error .unknownArgument
      | some (.switch s) => p.option (.switch s) value
      | some n => if value.isSome then .error .tooManyValues else p.option n .none
    | .short c rest =>
      match ofShort? c with
      | .none => .error .unknownArgument
      | some (.switch s) => p.option (.switch s) (attached rest)
      | some n => p.option n .none
    | .word =>
      match p.awaiting, p.pending with
      | true, some (s, _) => .ok { p with pending := some (s, some arg), awaiting := false }
      | _, _ => .error .unknownArgument

/-- The options of a command line. -/
def parse (args : List String) : Except UsageError Arguments := do
  let p ← args.foldlM Progress.step ⟨.none, .none, false, false⟩
  return (← p.settle).given

/-- Overrides settings by the options that were given. -/
def override (a : Arguments) (c : Config) : Config :=
  { c with
    host := a.host.getD c.host
    port := a.port.getD c.port
    logging := ⟨a.logLevel.getD c.logging.level, a.logDir.or c.logging.directory⟩ }

end Arguments

/-- The configuration of a run: the file, overridden by the environment, overridden by the command
line, and valid. -/
def resolve (file : File) (env : Environment) (args : Arguments) : Except ConfigError Config := do
  let c ← load file
  let (c, stopped) := applyEnvironment env c
  stopped
  let c := args.override c
  c.validate
  return c

end EditorBridge.Config
