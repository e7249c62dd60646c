import EditorBridge.Snapshot.Store
/-!
# Histories of a store

What a store holds can be told from what was done to it: the entry of a session
from the events after its last removal, the latest pointer from the last sync,
or from the election after the latest went. A hash table goes through its
entries in an order of its own, which may be another one each time; so a history
is run with an arrangement of the table before each event.
-/

namespace EditorBridge.Snapshot.Store

/-- The order in which a hash table goes through its entries, before each event of a history. -/
structure Arrangement where
  arrange : Nat → Table String Stored → Table String Stored
  perm : ∀ n t, (arrange n t).Perm t

/-- The table stays in the order in which its keys first came. -/
def Arrangement.inOrder : Arrangement := ⟨fun _ t => t, fun _ t => .refl t⟩

/-- The store with its table arranged for the event with a number. -/
def arranged (s : Store) (a : Arrangement) (n : Nat) : Store :=
  { s with entries := a.arrange n s.entries }

/-- The store after a history, its table arranged anew before each event. -/
def Arrangement.store (a : Arrangement) (limit : Nanos) (history : List Event) : Store :=
  history.zipIdx.foldl (fun s (e, n) => (s.arranged a n).apply e) (.empty limit)

/-! ## What a history tells -/

/-- The session that an event syncs, unless its name is blank. -/
def Event.synced? : Event → Option String
  | .upsert session _ _ => if Text.blank session then none else some session
  | _ => none

/-- What an event syncs for a session. -/
def Event.content? (session : String) : Event → Option Snapshot
  | .upsert session' snapshot _ =>
    if session' = session ∧ Text.blank session = false then some snapshot else none
  | _ => none

/-- When an event refreshes a session. -/
def Event.time? (session : String) : Event → Option Timestamp
  | .upsert session' _ now | .touch session' now => if session' = session then some now else none
  | .remove _ => none

/-- The events after the last removal of a session, the last one first. -/
def sinceRemoval (history : List Event) (session : String) : List Event :=
  history.reverse.takeWhile (· ≠ .remove session)

/-- What was synced for a session last, since it was removed last. -/
def lastContent (history : List Event) (session : String) : Option Snapshot :=
  (sinceRemoval history session).findSome? (·.content? session)

/-- When a session was refreshed last, since it was removed last. -/
def lastTime (history : List Event) (session : String) : Option Timestamp :=
  (sinceRemoval history session).findSome? (·.time? session)

/-- The entry of a session that a history tells of. -/
def recorded (history : List Event) (session : String) : Option Stored :=
  (lastContent history session).bind fun snapshot =>
    (lastTime history session).map fun time => ⟨session, snapshot, time⟩

/-- A session synced last of all and was not removed since. -/
def SyncedLast (history : List Event) (session : String) : Prop :=
  ∃ before snapshot now after, history = before ++ .upsert session snapshot now :: after ∧
    Text.blank session = false ∧ (∀ e ∈ after, e.synced? = none) ∧ .remove session ∉ after

/-- No entry of a store was refreshed after that of a session. -/
def Newest (s : Store) (session : String) : Prop :=
  ∃ stored, (session, stored) ∈ s.entries ∧
    ∀ other stored', (other, stored') ∈ s.entries → stored'.updatedAt ≤ stored.updatedAt

/-- The latest went, a session was the newest of those left, and it has been the latest since. -/
def Elected (store : List Event → Store) (history : List Event) (session : String) : Prop :=
  ∃ before previous after, history = before ++ .remove previous :: after ∧
    (store before).latest = some previous ∧ (store (before ++ [.remove previous])).Newest session ∧
    ∀ later, later <+: after →
      (store (before ++ .remove previous :: later)).latest = some session

/-! ## Failures -/

/-- An event fails on a store. -/
def Event.Fails (s : Store) : Event → Prop
  | .upsert session snapshot now => (s.upsert session snapshot now).1.isOk = false
  | .touch session now => (s.touch session now).1.isOk = false
  | .remove session => (s.remove session).1 = false

/-- A sync under a blank name, and a ping or the removal of a session that has no entry. -/
def Event.Refused (s : Store) : Event → Prop
  | .upsert session _ _ => Text.blank session = true
  | .touch session _ | .remove session => s.entries.get? session = none

end EditorBridge.Snapshot.Store
