import EditorBridge.Tool.Basic
/-!
# Tools that read the scene

They answer from a fresh snapshot: the caller's own, or else the latest one.
Data that is old or missing is never served.
-/

namespace EditorBridge.Tool

/-- The snapshot that a caller may see. -/
def visibleSnapshot (snapshots : Snapshot.Store) (session : Option String) (now : Timestamp) :
    Except ToolError Snapshot.Stored :=
  let own := session.bind fun s => (snapshots.freshFor s now).toOption
  match own with
  | some stored => .ok stored
  | none =>
    match snapshots.freshLatest now with
    | .ok stored => .ok stored
    | .error e =>
      .error (.notAvailable
        ("editor state unavailable (" ++ e.message ++ "); waiting for the editor to sync"))

/-- A part of a snapshot with its owner and time. -/
def withOwner (stored : Snapshot.Stored) (members : List (String × Json)) : Json :=
  .object ([("sessionId", .str stored.session), ("updatedAt", .str stored.updatedAt.text)] ++
    members)

/-- Answers from the snapshot that the caller may see. -/
def readScene (k : Snapshot.Stored → Outcome) (c : Context) (s : Services) : Outcome × Services :=
  match visibleSnapshot s.snapshots c.session s.now with
  | .ok stored => (k stored, s)
  | .error e => (.error e, s)

/-- The tool that shows the summary of the scene. -/
def sceneSummary : Tool where
  name := "get_scene_summary"
  description := "Summary of the scene currently open in the editor"
  inputSchema := objectSchema [] []
  run c _args s := readScene (fun stored =>
    .result (.success (withOwner stored [("sceneSummary", stored.snapshot.sceneSummary)]))) c s

/-- The tool that shows the tree of nodes. -/
def sceneTree : Tool where
  name := "get_scene_tree"
  description := "Node hierarchy of the scene currently open in the editor"
  inputSchema := objectSchema [] []
  run c _args s := readScene (fun stored =>
    .result (.success (withOwner stored [("nodeTree", stored.snapshot.nodeTree)]))) c s

/-- The details of one node. -/
def detailsOf (path : String) (stored : Snapshot.Stored) : Outcome :=
  match stored.snapshot.nodeDetails.get? path with
  | some details =>
    .result (.success (withOwner stored [("path", .str path), ("details", details)]))
  | none => .error (.invalidParams ("no node at path " ++ path))

/-- Shows the details of a node. -/
def runNodeDetails (c : Context) (args : Json) (s : Services) : Outcome × Services :=
  match (args.get? "path").bind Json.str? with
  | some path => readScene (detailsOf path) c s
  | none => (.error (.invalidParams "path is required"), s)

/-- The tool that shows the details of a node. -/
def nodeDetails : Tool where
  name := "get_node_details"
  description := "Properties of a single node in the open scene, by node path"
  inputSchema := objectSchema
    [("path", .object [("type", .str "string"), ("minLength", .int 1),
      ("description", .str "Node path, e.g. \"Root/Player\"")])]
    ["path"]
  run := runNodeDetails

end EditorBridge.Tool
