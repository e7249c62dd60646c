import EditorBridge.Tool.Bridge
import EditorBridge.Tool.Command
import EditorBridge.Tool.Registry
import EditorBridge.Tool.Scene
/-!
# The built-in tools

Three for the plugin, three that read the scene and three that command the
editor.
-/

namespace EditorBridge.Tool

/-- The built-in tools in the order they are registered. -/
def builtin : List Tool :=
  [syncSnapshot, ping, ackCommand, sceneSummary, sceneTree, nodeDetails, runProject, stopProject,
    editorCommand]

/-- Registers tools in turn: the registry as far as it got, and what stopped it. -/
def Registry.registerAll : List Tool → Registry → Except BridgeError Unit × Registry
  | [], r => (.ok (), r)
  | t :: rest, r =>
    match r.register t with
    | .ok r => registerAll rest r
    | .error e => (.error e, r)

/-- A registry with the built-in tools. -/
def Registry.standard : Registry := (Registry.registerAll builtin []).2

end EditorBridge.Tool
