import EditorBridge.Tool.Builtin
/-!
# Refreshes

Two tools refresh the snapshot of the session that calls them: one replaces it,
the other says that it is still right. A refresh tells of a call that succeeded
whose snapshot it was, when, and what was synced.
-/

namespace EditorBridge

/-- A refresh of a session's snapshot. A ping syncs nothing. -/
structure Refresh where
  session : String
  wall : Timestamp
  synced : Option Snapshot
  deriving DecidableEq

namespace Refresh

/-- The snapshot that arguments carry. A part that is left out is `null`. -/
def content (args : Json) : Snapshot where
  sceneSummary := Json.orNull (args.get? "sceneSummary")
  nodeTree := Json.orNull (args.get? "nodeTree")
  nodeDetails := Json.orNull (args.get? "nodeDetails")

/-- The refresh that a call of a tool means if it succeeds. -/
def ofCall? (name : String) (args : Json) (session : String) (wall : Timestamp) : Option Refresh :=
  if name = Tool.syncSnapshot.name then some ⟨session, wall, some (content args)⟩
  else if name = Tool.ping.name then some ⟨session, wall, none⟩
  else none

/-- What a refresh does to a store. -/
def event (x : Refresh) : Snapshot.Store.Event :=
  match x.synced with
  | some snapshot => .upsert x.session snapshot x.wall
  | none => .touch x.session x.wall

/-! ## Histories -/

/-- What a session synced last. -/
def lastSynced (history : List Refresh) (session : String) : Option Snapshot :=
  ((history.filter (·.session = session)).filterMap (·.synced)).getLast?

/-- When a session refreshed its snapshot last. -/
def lastRefreshed (history : List Refresh) (session : String) : Option Timestamp :=
  ((history.filter (·.session = session)).map (·.wall)).getLast?

end Refresh

end EditorBridge
