import EditorBridge.Config.Arguments
import EditorBridge.Json.Printer
/-!
# The command line

Resolves the configuration of a run from the arguments, the environment and the
file, and prints it. A request for help or the version ends well; a usage error
and an invalid configuration end with status two.
-/

namespace EditorBridge.CommandLine

/-- Looks at the place of the file. -/
def findFile (place : String) : IO Config.File := do
  try
    return .bytes (← IO.FS.readBinFile place).toList
  catch
    | .noFileOrDirectory .. => return .absent
    | .inappropriateType .. => return .directory
    | e => throw e

/-- Reads the variables that override settings. -/
def readEnvironment : IO Config.Environment := do
  let values ← Config.overrides.filterMapM fun v => do
    return (← IO.getEnv v.name).map fun value => (v.name, value)
  return fun name => values.lookup name

/-- The status with which a usage error ends a run. -/
def status : Config.UsageError → UInt32
  | .help | .version => 0
  | _ => 2

/-- Resolves the configuration and prints it. -/
def run (arguments : List String) : IO UInt32 := do
  match Config.Arguments.parse arguments with
  | .error e =>
    IO.eprintln e.name
    return status e
  | .ok a =>
    match Config.resolve (← findFile a.file) (← readEnvironment) a with
    | .error e =>
      IO.eprintln ("Invalid configuration: " ++ e.message)
      return 2
    | .ok c =>
      IO.println c.toJson.compact
      return 0

end EditorBridge.CommandLine

/-- The program. -/
def main (arguments : List String) : IO UInt32 := EditorBridge.CommandLine.run arguments
