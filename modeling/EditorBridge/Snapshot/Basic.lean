import EditorBridge.Json.Decode
import EditorBridge.Time.Timestamp
/-!
# Snapshots

The state of an editor as its plugin reports it. Its three parts are kept as
they come; a part that is left out is `null`.
-/

namespace EditorBridge

/-- A summary of the scene, its node tree, and details of nodes by path. -/
structure Snapshot where
  sceneSummary : Json
  nodeTree : Json
  nodeDetails : Json
  deriving DecidableEq

namespace Snapshot

/-- The members of a snapshot. -/
def toJson (s : Snapshot) : Json :=
  .obj [("sceneSummary", s.sceneSummary), ("nodeTree", s.nodeTree), ("nodeDetails", s.nodeDetails)]

/-- The fields of a snapshot. -/
def record : Json.Record Snapshot :=
  (((Json.Record.pure Snapshot.mk).seq
    (.withDefault "sceneSummary" Json.Decoder.any .null)).seq
    (.withDefault "nodeTree" Json.Decoder.any .null)).seq
    (.withDefault "nodeDetails" Json.Decoder.any .null)

/-- Reads a snapshot. -/
def decode : Json.Decoder Snapshot := record.decode "struct Snapshot"

/-- A snapshot with its owner and the time it was last refreshed. -/
structure Stored where
  session : String
  snapshot : Snapshot
  updatedAt : Timestamp
  deriving DecidableEq

/-- The members of a stored snapshot. -/
def Stored.toJson (s : Stored) : Json :=
  .obj [("sessionId", .str s.session), ("snapshot", s.snapshot.toJson),
    ("updatedAt", .str s.updatedAt.text)]

end Snapshot

end EditorBridge
