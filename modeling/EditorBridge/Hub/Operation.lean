import EditorBridge.Hub.Schedule
/-!
# Operations on sessions

Whoever holds the sessions can work on them directly, past the network. A run of
a program is then made of such operations, of events and of moves, in any order.
-/

namespace EditorBridge

/-- An operation on the sessions, or on the transports to bind them to. -/
inductive Operation where
  | create (session : String)
  | touch (session : String)
  | setVersion (session version : String)
  | negotiate (session : String) (requested : Option String)
  | confirm (session : String)
  | openTransport (session : String) (buffer : Nat) (writeTimeout : Nanos)
  | bind (session : String) (t : TransportId)
  | unbind (session : String) (t : TransportId)
  | push (session : String) (m : Rpc.Message)
  | remove (session : String)
  | sweep (timeout : Nanos)

/-- Something that is done: an operation, or an action of a schedule. -/
inductive Deed where
  | operation (o : Operation)
  | action (a : Hub.Action)

namespace Hub

/-- The bridge after an operation. -/
def operate (h : Hub) : Operation → Hub
  | .create session => { h with sessions := h.sessions.create session h.now h.wall }
  | .touch session => { h with sessions := (h.sessions.touch session h.now).2 }
  | .setVersion session version =>
    { h with sessions := (h.sessions.setVersion session version).2 }
  | .negotiate session requested =>
    { h with sessions := (h.sessions.negotiate session requested).2 }
  | .confirm session => { h with sessions := (h.sessions.confirm session).2 }
  | .openTransport session buffer writeTimeout => (h.openTransport session buffer writeTimeout).2
  | .bind session t => (h.bindTransport session t).2
  | .unbind session t => { h with sessions := (h.sessions.clearTransport session t).2 }
  | .push session m => (h.push session m).2
  | .remove session => (h.endSession session).2
  | .sweep timeout => (h.sweep timeout).2

/-- The bridge after a deed. -/
def perform (h : Hub) : Deed → Hub
  | .operation o => h.operate o
  | .action a => h.act a

/-- The bridge after a run. -/
def performAll (h : Hub) (deeds : List Deed) : Hub := deeds.foldl perform h

end Hub

end EditorBridge
