import EditorBridge.Broker.Basic
/-!
# Runs of a broker

Calls, pushes that end, acknowledgements, callers that go away, the clock, and
the moments at which a waiting call looks after itself come in any order;
nothing is assumed about the path to the editor, about the wall clock, or about
when a call gets to look. An acknowledgement comes in two halves, so that
anything may happen between the removal of its entry and its arrival. A record
of a run tells in order what happened and when, so that a property of every run
speaks about every interleaving.
-/

namespace EditorBridge.Broker

/-- Something that happens to a broker. The wall clock is read where it is needed and may say
anything. -/
inductive Event where
  /-- A call for an editor that can be reached or not. Calls are numbered from zero. -/
  | call (o : Order) (reachable : Bool) (wall : Timestamp)
  /-- The push of a call ends, well or badly. -/
  | pushed (call : CallId) (delivered : Bool)
  /-- An acknowledgement comes from a session. If it is accepted, it sets out for its call. -/
  | ack (session : String) (a : Ack) (wall : Timestamp)
  /-- The acknowledgement on its way to a call arrives. -/
  | deliver (call : CallId)
  /-- A call looks whether it can end. -/
  | poll (call : CallId)
  /-- The caller of a call goes away. -/
  | abandon (call : CallId)
  | advance (d : Nanos)
  deriving DecidableEq

/-- Something that happened. -/
inductive Entry where
  /-- A call was registered under an id, and its push began. -/
  | registered (call : CallId) (id : String) (o : Order)
  /-- A push ended while its call was pushing. -/
  | pushed (call : CallId) (delivered : Bool)
  /-- An acknowledgement came from a session, at a reading of the wall clock, and was answered. -/
  | acked (session : String) (a : Ack) (wall : Timestamp) (r : Except CommandError Unit)
  | abandoned (call : CallId)
  | ended (call : CallId) (r : Except CommandError Ack)

/-- An accepted acknowledgement on its way to its call: who gave it, and when. -/
structure Claimed where
  session : String
  ack : Ack
  wall : Timestamp
  deriving DecidableEq

/-- What happened in a run in order, each entry with its time. -/
abbrev Record := List (Nanos × Entry)

/-- A broker in a run, with the acknowledgements on their way, the clock, the number of calls so far
and the record. -/
structure Run where
  broker : Broker
  underway : Table CallId Claimed
  now : Nanos
  calls : Nat
  record : Record

namespace Run

/-- The start of a run. -/
def start (b : Broker) : Run := ⟨b, [], 0, 0, []⟩

/-- Adds to the record. -/
def note (r : Run) (e : Entry) : Run := { r with record := r.record ++ [(r.now, e)] }

/-- A run after a call has ended, if it has. -/
def endCall (r : Run) (call : CallId) (m : Option (Except CommandError Ack) × Broker) : Run :=
  let r := { r with broker := m.2 }
  match m.1 with
  | some result => r.note (.ended call result)
  | none => r

/-- A run after an event. The end of a push that is not under way says nothing, nor does the going
of a caller who no longer waits. -/
def step (r : Run) : Event → Run
  | .call o reachable wall =>
    let (started, b) := r.broker.start r.calls o reachable wall
    let next := { r with broker := b, calls := r.calls + 1 }
    match started with
    | .ok _ => next.note (.registered r.calls (commandId wall (r.broker.sequence + 1)) o)
    | .error e => next.note (.ended r.calls (.error e))
  | .pushed call delivered =>
    if r.broker.isPushing call then
      (r.note (.pushed call delivered)).endCall call (r.broker.pushed call delivered r.now)
    else r
  | .ack session a wall =>
    match r.broker.claim session a.commandId with
    | (.error e, b) => { r with broker := b }.note (.acked session a wall (.error e))
    | (.ok call, b) => { r with broker := b, underway := r.underway.set call ⟨session, a, wall⟩ }
  | .deliver call =>
    match r.underway.get? call with
    | none => r
    | some c =>
      { r with
        broker := r.broker.post call (.delivered (c.ack.stamped c.wall))
        underway := r.underway.erase call }.note (.acked c.session c.ack c.wall (.ok ()))
  | .poll call => r.endCall call (r.broker.poll call r.now)
  | .abandon call =>
    if r.broker.calls.has call then
      { r with broker := r.broker.abandon call }.note (.abandoned call)
    else r
  | .advance d => { r with now := r.now + d }

/-- Whatever can move has moved: no acknowledgement is on its way, and no call can end. -/
def Quiet (r : Run) : Prop :=
  r.underway = [] ∧ ∀ call, (r.broker.poll call r.now).1 = none

end Run

/-! ## What a record says -/

namespace Record

/-- A call was registered under an id. -/
def Registered (l : Record) (call : CallId) (id : String) (o : Order) : Prop :=
  ∃ t, (t, .registered call id o) ∈ l

/-- No other call was registered under the id of a call. -/
def OwnId (l : Record) (call : CallId) (id : String) : Prop :=
  ∀ other o, l.Registered other id o → other = call

/-- The ends of the push of a call, well or badly, with their times. -/
def pushes (l : Record) (call : CallId) : List (Nanos × Bool) :=
  l.filterMap fun
    | (t, .pushed c delivered) => if c = call then some (t, delivered) else none
    | _ => none

/-- Whether the caller of a call went away while it was in progress. -/
def abandoned (l : Record) (call : CallId) : Bool :=
  l.any fun
    | (_, .abandoned c) => c = call
    | _ => false

/-- The accepted acknowledgements of a command. -/
def accepted (l : Record) (id : String) : List Claimed :=
  l.filterMap fun
    | (_, .acked session a wall (.ok ())) =>
      if a.commandId = id then some ⟨session, a, wall⟩ else none
    | _ => none

/-- The ends of a call with their times. -/
def results (l : Record) (call : CallId) : List (Nanos × Except CommandError Ack) :=
  l.filterMap fun
    | (t, .ended c result) => if c = call then some (t, result) else none
    | _ => none

end Record

/-- The run that events lead to. -/
def run (b : Broker) (events : List Event) : Run := events.foldl Run.step (.start b)

end EditorBridge.Broker
