import EditorBridge.Broker.Run
import EditorBridge.Hub.Route
import EditorBridge.Tool.Refresh
/-!
# Schedules

`run` lets everything move, in one fixed order, before the next event comes. A
schedule leaves the order open: events and single moves follow each other in
any way, so that an event may come while much can still move. What holds after
every schedule holds however the moves are ordered. What was seen from outside
is in the answers and in what the transports have taken.
-/

namespace EditorBridge

/-- The stream that an answer carries, with its session. -/
def Answer.stream? : Answer → Option (String × TransportId)
  | .response ⟨_, _, _, some session, .stream t⟩ => some (session, t)
  | _ => none

namespace Hub

open Http (Request)

/-- Something that can move. -/
inductive Mover where
  | transport (t : TransportId)
  | loopback
  | task (id : TaskId)
  deriving DecidableEq, Repr

/-- The bridge after a move, if the mover can move. -/
def move? (h : Hub) : Mover → Option Hub
  | .transport t =>
    (h.transport? t).bind fun state =>
      if state.restless h.now then some (h.settleTransport t state) else none
  | .loopback => h.arrival?
  | .task id => (h.tasks.get? id).bind (h.poll? id)

/-- An event or a move. -/
inductive Action where
  | event (e : Event)
  | move (m : Mover)

/-- The bridge after an action. A mover that cannot move does nothing. -/
def act (h : Hub) : Action → Hub
  | .event e => h.happen e
  | .move m => (h.move? m).getD h

/-- The bridge after a schedule. -/
def exec (h : Hub) (actions : List Action) : Hub := actions.foldl act h

/-! ## What was seen -/

/-- The streams that were opened, with their sessions, in their order. -/
def streams (h : Hub) : List (String × TransportId) := h.answers.filterMap fun (_, a) => a.stream?

/-- The stream that was opened last for a session. -/
def lastStream (h : Hub) (session : String) : Option TransportId :=
  ((h.streams.filter (·.1 = session)).getLast?).map (·.2)

/-- What a list of numbered things has under a number. -/
def entriesOf {α : Type} (id : Nat) (l : List (Nat × α)) : List α :=
  (l.filter (·.1 = id)).map (·.2)

/-- The answers to a task. -/
def answersTo (h : Hub) (id : TaskId) : List Answer := entriesOf id h.answers

/-- The frames of a task that a transport has taken. -/
def sentBy (h : Hub) (t : TransportId) (id : TaskId) : List String :=
  match h.transport? t with
  | some state => entriesOf id state.sent
  | none => []

/-- A call of a tool, and the session it comes from. -/
structure ToolCall where
  session : String
  id : Json
  name : String
  args : Json
  deriving DecidableEq

/-- The call of a tool that a request makes, if it is let in and makes one. -/
def toolCall? (h : Hub) (r : Request) : Option ToolCall :=
  if r.method = "POST" ∧ r.route = "/mcp" ∧ r.body.length ≤ h.config.maxBodyBytes then
    match Rpc.Frame.parse r.body with
    | .request q =>
      if q.isHandshake then none
      else
        match h.callerSession r with
        | (.ok session, h) =>
          match h.handling (some session) q with
          | (.tool id name args, _) => some ⟨session, id, name, args⟩
          | _ => none
        | _ => none
    | _ => none
  else none

/-- The order that a call of a tool gives, if it gives one. -/
def order? (h : Hub) (call : ToolCall) : Option Broker.Order :=
  match (h.tools.execute call.name call.args (h.toolContext (some call.session)) h.services).1 with
  | .command o => some o
  | _ => none

/-- The refresh of a snapshot that a call of a tool makes, if it succeeds in one. -/
def refreshOf? (h : Hub) (call : ToolCall) : Option Refresh :=
  match (h.tools.execute call.name call.args (h.toolContext (some call.session)) h.services).1 with
  | .result result =>
    if result.isError then none else Refresh.ofCall? call.name call.args call.session h.wall
  | _ => none

/-- The refresh that an action makes. -/
def refresh? (h : Hub) : Action → Option Refresh
  | .event (.request r) => (h.toolCall? r).bind h.refreshOf?
  | _ => none

/-- The refreshes of a schedule, in their order. -/
def refreshes (h : Hub) : List Action → List Refresh
  | [] => []
  | a :: actions => (h.refresh? a).toList ++ (h.act a).refreshes actions

/-- A request acknowledges a command, and the acknowledgement is accepted. -/
def AcceptsAck (h : Hub) (r : Request) (x : Broker.Claimed) : Prop :=
  ∃ call, h.toolCall? r = some call ∧ call.name = Tool.ackCommand.name ∧ call.session = x.session ∧
    Broker.Ack.decode (Tool.Registry.arguments call.args) = .ok x.ack ∧ x.wall = h.wall ∧
    ∃ result, (h.tools.execute call.name call.args (h.toolContext (some call.session))
      h.services).1 = .result result ∧ result.isError = false

end Hub

end EditorBridge
