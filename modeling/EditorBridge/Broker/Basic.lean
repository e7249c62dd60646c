import EditorBridge.Broker.Ack
import EditorBridge.Rpc.Message
import EditorBridge.Failure
import EditorBridge.Table
import EditorBridge.Text.Blank
/-!
# The command broker

Commands go out to an editor and come back acknowledged. A command is registered
before it is pushed, so that an early acknowledgement finds it; its entry is
taken out by whichever comes first of the acknowledgement, the end of its time,
a failure of the push, and its caller going away.

Each call is a small machine of its own: it is pushing, then waits for its
acknowledgement until a deadline. An accepted acknowledgement lies in the call's
mailbox until the call looks there.
-/

namespace EditorBridge

/-- Who waits for a command. -/
abbrev CallId := Nat

namespace Broker

/-- The method that carries commands to the editor. -/
def noticeMethod : String := "bridge/command"

/-- What a caller wants of an editor. A timeout of zero stands for the default. -/
structure Order where
  session : String
  command : String
  args : Json
  timeout : Nanos
  deriving DecidableEq

/-- Where the answer to a call arrives. -/
inductive Mailbox where
  | empty
  | delivered (a : Ack)
  /-- The entry was replaced without an answer. -/
  | lost
  deriving DecidableEq

/-- How far a call has got. -/
inductive Phase where
  | pushing
  | awaiting (deadline : Nanos)
  deriving DecidableEq, Repr

/-- A call in progress. -/
structure Call where
  commandId : String
  session : String
  command : String
  timeout : Nanos
  phase : Phase
  mailbox : Mailbox
  deriving DecidableEq

/-- An entry that waits for its acknowledgement. -/
structure Pending where
  session : String
  command : String
  call : CallId
  deriving DecidableEq, Repr

end Broker

/-- The commands that are out, by command id, and the calls in progress. -/
structure Broker where
  defaultTimeout : Nanos
  sequence : UInt64
  pending : Table String Broker.Pending
  calls : Table CallId Broker.Call
  deriving DecidableEq

namespace Broker

/-- A broker without commands. -/
def empty (defaultTimeout : Nanos) : Broker := ⟨defaultTimeout, 0, [], []⟩

/-- The number of commands that wait for an acknowledgement. -/
def outstanding (b : Broker) : Nat := b.pending.length

/-- The id of a command: the wall clock in nanoseconds, zero if it needs more than 64 bits, and the
number of the command. -/
def commandId (wall : Timestamp) (number : UInt64) : String :=
  "cmd-" ++ toString (wall.nanos64?.getD 0) ++ "-" ++ toString number.toNat

/-- The notification that carries a command. -/
def notification (id : String) (o : Order) : Rpc.Message :=
  .notification noticeMethod
    (some (.obj [("args", o.args), ("command", .str o.command), ("commandId", .str id)]))

/-- Whether the push of a call is under way. -/
def isPushing (b : Broker) (call : CallId) : Bool :=
  (b.calls.get? call).any fun c => c.phase = .pushing

/-- Puts a message into the mailbox of a call. -/
def post (b : Broker) (call : CallId) (m : Mailbox) : Broker :=
  { b with calls := b.calls.modify call fun c => { c with mailbox := m } }

/-- Takes out an entry. The call that waits for it, if it is still there, loses its answer. -/
def discard (b : Broker) (id : String) : Broker :=
  match b.pending.get? id with
  | some p => { b.post p.call .lost with pending := b.pending.erase id }
  | none => b

/-- Registers an entry; one that had the same id is discarded. -/
def register (b : Broker) (id : String) (p : Pending) : Broker :=
  { b.discard id with pending := b.pending.set id p }

/-- How long an order lets its call wait, where a broker waits some time by default. -/
def Order.limit (o : Order) (default : Nanos) : Nanos := if o.timeout = 0 then default else o.timeout

/-- The call that an order starts under an id. -/
def Order.toCall (o : Order) (id : String) (timeout : Nanos) : Call :=
  ⟨id, o.session, o.command, timeout, .pushing, .empty⟩

/-- Takes in a call under the next number, and its entry before it. -/
def enroll (b : Broker) (call : CallId) (o : Order) (wall : Timestamp) : Broker :=
  let number := b.sequence + 1
  let id := commandId wall number
  let next := { b with sequence := number }.register id ⟨o.session, o.command, call⟩
  { next with calls := next.calls.set call (o.toCall id (o.limit b.defaultTimeout)) }

/-- Starts a call: it is refused, or enrolled and its notification has to be pushed. -/
def start (b : Broker) (call : CallId) (o : Order) (reachable : Bool) (wall : Timestamp) :
    Except CommandError Rpc.Message × Broker :=
  if Text.blank o.session ∨ Text.blank o.command then (.error .invalidRequest, b)
  else if !reachable then (.error (.transportUnavailable o.session), b)
  else (.ok (notification (commandId wall (b.sequence + 1)) o), b.enroll call o wall)

/-- Ends a call. Its entry goes with it, if it is still there. -/
def finish (b : Broker) (call : CallId) : Broker :=
  match b.calls.get? call with
  | none => b
  | some c => { b with calls := b.calls.erase call }.discard c.commandId

/-- The push of a call has ended: after a failure the call is over, otherwise it waits. -/
def pushed (b : Broker) (call : CallId) (delivered : Bool) (now : Nanos) :
    Option (Except CommandError Ack) × Broker :=
  match b.calls.get? call with
  | none => (none, b)
  | some c =>
    if delivered then
      let waiting := { c with phase := .awaiting (now + c.timeout) }
      (none, { b with calls := b.calls.set call waiting })
    else (some (.error (.transportUnavailable c.session)), b.finish call)

/-- Takes out the entry that an acknowledgement from a session is for, and tells which call waits
for it. Only the session the command went to may acknowledge it. -/
def claim (b : Broker) (session id : String) : Except CommandError CallId × Broker :=
  match b.pending.get? id with
  | none => (.error (.unknownCommand id), b)
  | some p =>
    if p.session = session then (.ok p.call, { b with pending := b.pending.erase id })
    else (.error (.sessionMismatch id), b)

/-- Takes an acknowledgement from a session to the call that waits for it. -/
def ack (b : Broker) (session : String) (a : Ack) (wall : Timestamp) :
    Except CommandError Unit × Broker :=
  match b.claim session a.commandId with
  | (.error e, b) => (.error e, b)
  | (.ok call, b) => (.ok (), b.post call (.delivered (a.stamped wall)))

/-- Looks after a waiting call: an answer in its mailbox ends it, and so does its deadline. If at
the deadline the entry is gone, the answer is on its way. -/
def poll (b : Broker) (call : CallId) (now : Nanos) : Option (Except CommandError Ack) × Broker :=
  match b.calls.get? call with
  | none => (none, b)
  | some c =>
    match c.phase, c.mailbox with
    | .pushing, _ => (none, b)
    | .awaiting _, .delivered a => (some (.ok a), b.finish call)
    | .awaiting _, .lost => (some (.error (.unknownCommand c.commandId)), b.finish call)
    | .awaiting deadline, .empty =>
      if deadline ≤ now ∧ b.pending.has c.commandId then
        (some (.error (.ackTimeout c.timeout)), b.finish call)
      else (none, b)

/-- The caller of a call goes away. -/
def abandon (b : Broker) (call : CallId) : Broker := b.finish call

end Broker

end EditorBridge
