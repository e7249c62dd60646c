import EditorBridge.Hub.Basic
/-!
# How tasks run

A write that ends, a beat that is due, a deadline that passes: each lets one
task take a step. `settle` lets all of them run until each one waits for
something that has not happened yet. A jump of the clock is one move, after
which everything due runs at the new time.
-/

namespace EditorBridge.Hub

/-! ## Writes -/

/-- Ends the loop behind a stream: the transport is closed, and unbound if it is still bound. -/
def endLoop (h : Hub) (id : TaskId) (t : TransportId) : Hub :=
  let session := ((h.transport? t).map (·.session)).getD ""
  let h := (h.closeTransport t).2
  let h := { h with sessions := (h.sessions.clearTransport session t).2 }
  h.dismiss id

/-- Tells a task how its write ended. A loop without an interval dies after its greeting and leaves
its transport as it is. -/
def deliver (h : Hub) (id : TaskId) (r : Transport.WriteResult) : Hub :=
  match h.tasks.get? id with
  | some .write => h.finish id (.write r)
  | some .push => h.finish id (.push r)
  | some (.command reply) =>
    let (ended, broker) := h.broker.pushed id r.toBool h.now
    let h := { h with broker := broker }
    match ended with
    | some r => h.finish id (commandAnswer reply r)
    | none => h
  | some (.pushLoop t .greeting) =>
    let interval := h.config.keepaliveInterval
    if interval = 0 then h.dismiss id
    else { h with tasks := h.tasks.set id (.pushLoop t (.resting (h.now + interval))) }
  | some (.pushLoop t (.beating next)) =>
    match r with
    | .ok () => { h with tasks := h.tasks.set id (.pushLoop t (.resting next)) }
    | .error _ => h.endLoop id t
  | _ => h

/-- Tells tasks how their writes ended. -/
def deliverAll (h : Hub) (endings : Transport.Endings) : Hub :=
  endings.foldl (fun h (id, r) => h.deliver id r) h

/-- Writes a frame to a transport on behalf of a task. -/
def writeTo (h : Hub) (id : TaskId) (t : TransportId) (frame : String) : Hub :=
  match h.transport? t with
  | some state =>
    let (state, endings) := state.write h.now id frame
    (h.putTransport t state).deliverAll endings
  | none => h.deliver id (.error .closed)

/-- Lets happen on a transport what can happen there now. -/
def settleTransport (h : Hub) (t : TransportId) (state : Transport) : Hub :=
  let (state, endings) := state.settle h.now
  (h.putTransport t state).deliverAll endings

/-- The frame that carries a message. -/
def frameOf (m : Rpc.Message) : String := Sse.event Sse.messageEvent m.wire

/-- Pushes a message to a session over its transport on behalf of a task. -/
def pushOver (h : Hub) (id : TaskId) (session : String) (m : Rpc.Message) : Hub :=
  match h.sessions.transport? session with
  | some t => h.writeTo id t (frameOf m)
  | none => h.deliver id (.error .closed)

/-! ## Commands -/

/-- Sends a command to an editor on behalf of a task that waits for its outcome. -/
def sendCommand (h : Hub) (id : TaskId) (reply : CommandReply) (o : Broker.Order) : Hub :=
  let (started, broker) := h.broker.start id o (h.isReachable o.session) h.wall
  let h := { h with broker := broker }
  match started with
  | .error e => h.finish id (commandAnswer reply (.error e))
  | .ok m =>
    match h.path with
    | .streams => h.pushOver id o.session m
    | .loopback l => { h with path := .loopback (l.begin id o.session m h.now) }

/-- The arrival of a push on the loopback: it may be acknowledged, and then it ends. -/
def arrive (h : Hub) (l : Loopback) (id : CallId) (p : Loopback.Push) : Hub :=
  let l := { l with underway := l.underway.erase id }
  let h :=
    match p.ack? with
    | none => { h with path := .loopback l }
    | some (.error e) => { h with path := .loopback (l.record (.error e)) }
    | some (.ok a) =>
      let (r, broker) := h.broker.ack p.session a h.wall
      { h with broker := broker, path := .loopback (l.record (.ok r)) }
  h.deliver id (if p.settings.failPush then .error .closed else .ok ())

/-! ## Steps of tasks -/

/-- The step that a task can take now, if it can take one. -/
def poll? (h : Hub) (id : TaskId) (task : Task) : Option Hub :=
  match task with
  | .write | .push => none
  | .closed t => if h.isClosed t then some (h.finish id .closed) else none
  | .disconnected t => if h.isReceiving t then none else some (h.finish id .disconnected)
  | .command reply =>
    match h.broker.poll id h.now with
    | (some r, broker) => some ({ h with broker := broker }.finish id (commandAnswer reply r))
    | (none, _) => none
  | .pushLoop t (.resting next) =>
    if h.isClosed t || !h.isReceiving t then some (h.endLoop id t)
    else if next ≤ h.now then
      let beating := Task.pushLoop t (.beating (next + h.config.keepaliveInterval))
      some ({ h with tasks := h.tasks.set id beating }.writeTo id t (Sse.comment "keep-alive"))
    else none
  | .pushLoop _ _ => none
  | .sweeper timeout interval next =>
    if next ≤ h.now then
      let h := (h.sweep timeout).2
      some { h with tasks := h.tasks.set id (.sweeper timeout interval (next + interval)) }
    else none

/-- The arrival of the next push on the loopback, if one is due. -/
def arrival? (h : Hub) : Option Hub :=
  match h.path with
  | .streams => none
  | .loopback l => (l.arrived? h.now).map fun (id, p) => h.arrive l id p

/-- One step of whatever can move: a transport, a push on the loopback, or a task, in the order in
which they came to be. -/
def step? (h : Hub) : Option Hub :=
  match h.transports.find? fun (_, state) => state.restless h.now with
  | some (t, state) => some (h.settleTransport t state)
  | none =>
    match h.arrival? with
    | some h => some h
    | none => h.tasks.findSome? fun (id, task) => h.poll? id task

/-- The number of ticks of an interval that are due at `now`, the next one being due at `next`. -/
def dueTicks (now next interval : Nanos) : Nat :=
  if now < next then 0 else (now - next) / interval + 1

/-- A bound for the steps of a task. A beat that is due takes a step, and its frame may take two. -/
def taskWork (h : Hub) : Task → Nat
  | .pushLoop _ (.resting next) | .pushLoop _ (.beating next) =>
    3 * dueTicks h.now next h.config.keepaliveInterval + 1
  | .sweeper _ interval next => dueTicks h.now next interval
  | _ => 1

/-- A bound for the steps of a transport: a writer gets its turn, and its turn ends. -/
def transportWork (state : Transport) : Nat := 2 * state.line.length + state.turn.toList.length

/-- A bound for the pushes that arrive on the loopback. -/
def pathWork : PushPath → Nat
  | .streams => 0
  | .loopback l => l.underway.length

/-- A bound for the steps that can be taken before everything waits. -/
def work (h : Hub) : Nat :=
  h.tasks.foldl (fun n (_, task) => n + h.taskWork task) 0 +
    h.transports.foldl (fun n (_, state) => n + transportWork state) 0 + pathWork h.path

/-- At most so many steps. -/
def runFor : Nat → Hub → Hub
  | 0, h => h
  | n + 1, h =>
    match h.step? with
    | some h => runFor n h
    | none => h

/-- Runs everything until it waits. -/
def settle (h : Hub) : Hub := runFor h.work h

/-- Everything waits. -/
def Settled (h : Hub) : Prop := h.step? = none

/-- Moves the clock in one jump and runs what is due. -/
def advance (h : Hub) (d : Nanos) : Hub := settle { h with now := h.now + d }

/-! ## Tasks from outside -/

/-- Waits for a command. -/
def dispatch (h : Hub) (reply : CommandReply) (o : Broker.Order) : TaskId × Hub :=
  let (id, h) := h.spawn (.command reply)
  (id, h.sendCommand id reply o)

/-- Waits for a frame to be taken by a transport. -/
def send (h : Hub) (t : TransportId) (frame : String) : TaskId × Hub :=
  let (id, h) := h.spawn .write
  (id, h.writeTo id t frame)

/-- Waits for a message to be taken by a transport. -/
def sendRpc (h : Hub) (t : TransportId) (m : Rpc.Message) : TaskId × Hub :=
  let (id, h) := h.spawn .push
  (id, h.writeTo id t (frameOf m))

/-- Waits for a message to be pushed to a session. -/
def push (h : Hub) (session : String) (m : Rpc.Message) : TaskId × Hub :=
  let (id, h) := h.spawn .push
  (id, h.pushOver id session m)

/-- Starts sweeps, the first one now. Without an interval there are none. -/
def startSweeps (h : Hub) (timeout interval : Nanos) : Hub :=
  if interval = 0 then h else (h.spawn (.sweeper timeout interval h.now)).2

/-- Gives up a call: whether it was still waiting. What it had begun is undone. -/
def abandon (h : Hub) (id : TaskId) : Bool × Hub :=
  if (h.tasks.get? id).any Task.isCall then
    let h := h.dismiss id
    let path :=
      match h.path with
      | .streams => .streams
      | .loopback l => .loopback { l with underway := l.underway.erase id }
    (true, { h with
      broker := h.broker.abandon id
      path := path
      transports := h.transports.map fun (t, state) => (t, state.abandon id) })
  else (false, h)

/-- Opens a transport. -/
def openTransport (h : Hub) (session : String) (buffer : Nat) (writeTimeout : Nanos) :
    TransportId × Hub :=
  let t := h.nextTransport
  let h := h.putTransport t (.opened session buffer writeTimeout)
  (t, { h with nextTransport := t + 1 })

/-- Reads frames from a transport. -/
def read (h : Hub) (t : TransportId) (max : Nat) : List String × Hub :=
  match h.transport? t with
  | some state =>
    let (frames, state) := state.read max
    (frames, h.putTransport t state)
  | none => ([], h)

/-- The reader of a transport goes away: whether there was one. -/
def dropReader (h : Hub) (t : TransportId) : Bool × Hub :=
  match h.transport? t with
  | some state =>
    let (r, state) := state.dropReader
    (r, h.putTransport t state)
  | none => (false, h)

/-- Reads what a stream has to give, and whether it has ended. A stream whose transport is closed
ends at once, and its unread frames are lost. -/
def readStream (h : Hub) (t : TransportId) : List String × Bool × Hub :=
  if h.isClosed t || !h.isReceiving t then ([], true, (h.dropReader t).2)
  else
    match h.transport? t with
    | some state =>
      let (frames, h) := h.read t state.channel.length
      (frames, false, h)
    | none => ([], true, h)

end EditorBridge.Hub
