import EditorBridge.Snapshot.Basic
import EditorBridge.Failure
import EditorBridge.Table
import EditorBridge.Text.Blank
/-!
# The snapshot store

One snapshot for each session that has synced, with the time of its last
refresh, and a pointer to the session whose snapshot is the latest. A snapshot
is served only while it is fresh: as long as its age is at most a fixed span.
When the latest snapshot is evicted, the one that was refreshed last takes its
place.
-/

namespace EditorBridge.Snapshot

/-- The longest span a freshness limit may have, in nanoseconds. -/
def maxStaleAfter : Int := (Int.pow 2 63 - 1) * 1000000

/-- Snapshots by session. -/
structure Store where
  staleAfter : Int
  entries : Table String Stored
  latest : Option String
  deriving DecidableEq

namespace Store

/-- An empty store; a limit beyond the longest span becomes the longest span. -/
def empty (staleAfter : Nanos) : Store := ⟨min staleAfter maxStaleAfter, [], none⟩

/-- The freshness limit in whole milliseconds. -/
def staleAfterMillis (s : Store) : Int := s.staleAfter.tdiv 1000000

/-- The number of snapshots. -/
def size (s : Store) : Nat := s.entries.length

/-- The age of a snapshot in nanoseconds. -/
def age (stored : Stored) (now : Timestamp) : Int := now.toNanos - stored.updatedAt.toNanos

/-- A snapshot if it is fresh. -/
def ifFresh (s : Store) (stored : Stored) (now : Timestamp) : Except SnapshotError Stored :=
  if age stored now ≤ s.staleAfter then .ok stored
  else .error (.stale stored.session ((age stored now).tdiv 1000000))

/-- Replaces the snapshot of a session, which becomes the latest. -/
def upsert (s : Store) (session : String) (snapshot : Snapshot) (now : Timestamp) :
    Except SnapshotError Stored × Store :=
  if Text.blank session then (.error .invalidSession, s)
  else
    let stored : Stored := ⟨session, snapshot, now⟩
    (.ok stored, { s with entries := s.entries.set session stored, latest := some session })

/-- Refreshes the time of a session's snapshot. -/
def touch (s : Store) (session : String) (now : Timestamp) : Except SnapshotError Unit × Store :=
  match s.entries.get? session with
  | none => (.error .notFound, s)
  | some stored =>
    (.ok (), { s with entries := s.entries.set session { stored with updatedAt := now } })

/-- The snapshot of a session if it is fresh. -/
def freshFor (s : Store) (session : String) (now : Timestamp) : Except SnapshotError Stored :=
  match s.entries.get? session with
  | none => .error .notFound
  | some stored => s.ifFresh stored now

/-- The latest snapshot if it is fresh. -/
def freshLatest (s : Store) (now : Timestamp) : Except SnapshotError Stored :=
  match s.latest.bind s.entries.get? with
  | none => .error .notFound
  | some stored => s.ifFresh stored now

/-- The snapshot refreshed last. -/
def newest : Table String Stored → Option Stored
  | [] => none
  | (_, stored) :: rest =>
    match newest rest with
    | none => some stored
    | some other =>
      if stored.updatedAt ≤ other.updatedAt then some other else some stored

/-- Evicts the snapshot of a session: whether there was one, and the store without it. -/
def remove (s : Store) (session : String) : Bool × Store :=
  if s.entries.has session then
    let entries := s.entries.erase session
    let latest := if s.latest = some session then (newest entries).map (·.session) else s.latest
    (true, { s with entries := entries, latest := latest })
  else (false, s)

/-! ## Histories -/

/-- Something done to a store. -/
inductive Event where
  | upsert (session : String) (snapshot : Snapshot) (now : Timestamp)
  | touch (session : String) (now : Timestamp)
  | remove (session : String)
  deriving DecidableEq

/-- The store after an event. -/
def apply (s : Store) : Event → Store
  | .upsert session snapshot now => (s.upsert session snapshot now).2
  | .touch session now => (s.touch session now).2
  | .remove session => (s.remove session).2

/-- The store after a history. -/
def run (s : Store) (events : List Event) : Store := events.foldl apply s

end Store

end EditorBridge.Snapshot
