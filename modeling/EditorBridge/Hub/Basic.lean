import EditorBridge.Config.Basic
import EditorBridge.Http
import EditorBridge.Loopback
import EditorBridge.Sse.Frame
import EditorBridge.Tool.Builtin
import EditorBridge.Transport.Basic
/-!
# The hub

Everything the bridge knows, in one state: the sessions, the snapshots, the
commands, the tools and the transports, the clock, and the tasks that wait for
something. A task that has come to its end leaves its answer behind.
-/

namespace EditorBridge

/-- Which task. A task that waits for a write or a command is known there by the same number. -/
abbrev TaskId := Nat

/-- How the outcome of a tool call is answered. -/
inductive ToolReply where
  | plain
  /-- As the message that answers a request. -/
  | message (id : Json)
  /-- As the response to a POST. -/
  | response (id : Json)
  deriving DecidableEq

/-- What waits for the outcome of a command. -/
inductive CommandReply where
  | ack
  | tool (command : String) (reply : ToolReply)
  deriving DecidableEq

/-- How far the loop behind a stream has got: it greets, then rests until the next beat is due, then
writes that beat; the moment is that of the beat after. -/
inductive LoopPhase where
  | greeting
  | resting (next : Nanos)
  | beating (next : Nanos)
  deriving DecidableEq, Repr

/-- Something that waits. -/
inductive Task where
  /-- A frame on its way into a transport. -/
  | write
  /-- A message on its way to a session. -/
  | push
  | closed (t : TransportId)
  | disconnected (t : TransportId)
  | command (reply : CommandReply)
  /-- Keeps a stream alive and tidies up behind it. -/
  | pushLoop (t : TransportId) (phase : LoopPhase)
  /-- Removes idle sessions at every interval. -/
  | sweeper (timeout interval next : Nanos)
  deriving DecidableEq

/-- Whether someone outside waits for a task and may give it up. The bridge's own loops run until
they have done their work. -/
def Task.isCall : Task → Bool
  | .pushLoop .. | .sweeper .. => false
  | _ => true

/-- What a task leaves behind. -/
inductive Answer where
  | write (r : Transport.WriteResult)
  | push (r : Transport.WriteResult)
  | closed
  | disconnected
  | ack (r : Except CommandError Broker.Ack)
  | tool (r : Except ToolError Tool.Result)
  | message (m : Option Rpc.Message)
  | response (r : Http.Response)

/-- The way to the editor. -/
inductive PushPath where
  /-- The transports bound to sessions. -/
  | streams
  | loopback (l : Loopback)

/-- The state of a bridge. -/
structure Hub where
  config : Config
  /-- The id to give to the n-th session. -/
  sessionId : Nat → String
  /-- The wall clock at the start, in nanoseconds since the epoch. -/
  epoch : Int
  /-- The time since the start. -/
  now : Nanos
  sessions : Sessions
  snapshots : Snapshot.Store
  broker : Broker
  tools : Tool.Registry
  path : PushPath
  transports : Table TransportId Transport
  tasks : Table TaskId Task
  answers : List (TaskId × Answer)
  nextTask : TaskId
  nextTransport : TransportId
  /-- The number of session ids given out. -/
  sessionsNamed : Nat

namespace Hub

/-- The start of the wall clock: the first of January 2024. -/
def defaultEpoch : Int := 1704067200000000000

/-- A bridge with the built-in tools on which nothing has happened. -/
def new (config : Config) (sessionId : Nat → String) : Hub where
  config := config
  sessionId := sessionId
  epoch := defaultEpoch
  now := 0
  sessions := []
  snapshots := .empty config.snapshotStaleAfter
  broker := .empty config.commandTimeout
  tools := .standard
  path := .streams
  transports := []
  tasks := []
  answers := []
  nextTask := 0
  nextTransport := 0
  sessionsNamed := 0

/-- The wall clock. -/
def wall (h : Hub) : Timestamp := .ofNanos (h.epoch + h.now)

/-- The state of a transport. -/
def transport? (h : Hub) (t : TransportId) : Option Transport := h.transports.get? t

/-- Changes the state of a transport. -/
def putTransport (h : Hub) (t : TransportId) (state : Transport) : Hub :=
  { h with transports := h.transports.set t state }

/-- Whether a transport is closed. -/
def isClosed (h : Hub) (t : TransportId) : Bool := ((h.transport? t).map (·.closed)).getD true

/-- Whether a transport has a reader. -/
def isReceiving (h : Hub) (t : TransportId) : Bool :=
  ((h.transport? t).map (·.receiving)).getD false

/-- Closes a transport. -/
def closeTransport (h : Hub) (t : TransportId) : Bool × Hub :=
  match h.transport? t with
  | some state =>
    let (r, state) := state.close
    (r, h.putTransport t state)
  | none => (false, h)

/-- Closes a transport if there is one. -/
def closeIfAny (h : Hub) (t : Option TransportId) : Hub :=
  match t with
  | some t => (h.closeTransport t).2
  | none => h

/-! ## Sessions and what hangs on them -/

/-- Gives a session a transport. The one it had before is closed, unless it is the same. -/
def bindTransport (h : Hub) (session : String) (t : TransportId) : Bool × Hub :=
  match h.sessions.get? session with
  | none => (false, h)
  | some s =>
    let h := if s.transport = some t then h else h.closeIfAny s.transport
    (true, { h with
      sessions := h.sessions.set session { s with transport := some t, lastSeen := h.now } })

/-- Ends a session: its transport is closed and its snapshot evicted. -/
def endSession (h : Hub) (session : String) : Bool × Hub :=
  match h.sessions.get? session with
  | none => (false, h)
  | some s =>
    let h := { h with sessions := h.sessions.erase session }
    let h := h.closeIfAny s.transport
    (true, { h with snapshots := (h.snapshots.remove session).2 })

/-- Ends every session that has been idle for longer than a span, and counts them. -/
def sweep (h : Hub) (timeout : Nanos) : Nat × Hub :=
  let idle := h.sessions.idle timeout h.now
  (idle.length, idle.foldl (fun h session => (h.endSession session).2) h)

/-- Whether a message can be pushed to a session. -/
def isReachable (h : Hub) (session : String) : Bool :=
  match h.path with
  | .streams => ((h.sessions.transport? session).map fun t => !h.isClosed t).getD false
  | .loopback l => l.settings.connected

/-! ## Tasks -/

/-- Makes room for a task. -/
def spawn (h : Hub) (task : Task) : TaskId × Hub :=
  (h.nextTask, { h with tasks := h.tasks.set h.nextTask task, nextTask := h.nextTask + 1 })

/-- Ends a task with an answer. -/
def finish (h : Hub) (id : TaskId) (a : Answer) : Hub :=
  { h with tasks := h.tasks.erase id, answers := h.answers ++ [(id, a)] }

/-- Ends a task without an answer. -/
def dismiss (h : Hub) (id : TaskId) : Hub := { h with tasks := h.tasks.erase id }

/-- A task that has its answer from the start. -/
def answered (h : Hub) (a : Answer) : TaskId × Hub :=
  (h.nextTask, { h with answers := h.answers ++ [(h.nextTask, a)], nextTask := h.nextTask + 1 })

/-- Takes the answers that have been left behind. -/
def takeAnswers (h : Hub) : List (TaskId × Answer) × Hub := (h.answers, { h with answers := [] })

/-- The message that answers a tool call. -/
def toolMessage (id : Json) : Except ToolError Tool.Result → Rpc.Message
  | .ok r => .response id r.toJson.sorted
  | .error e => .errorReply id e.toRpc

/-- The answer to a tool call. -/
def toolAnswer (reply : ToolReply) (r : Except ToolError Tool.Result) : Answer :=
  match reply with
  | .plain => .tool r
  | .message id => .message (some (toolMessage id r))
  | .response id => .response (.message 200 (toolMessage id r))

/-- The answer to what waited for a command. -/
def commandAnswer (reply : CommandReply) (r : Except CommandError Broker.Ack) : Answer :=
  match reply with
  | .ack => .ack r
  | .tool command reply => toolAnswer reply (Tool.ofCommand command r)

end Hub

end EditorBridge
