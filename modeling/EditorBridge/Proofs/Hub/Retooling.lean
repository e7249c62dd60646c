import EditorBridge.Proofs.Hub.Schedule
/-!
# Bridges with other tools

Only two things look at the tools of a bridge: their list, and the call of one.
Everything else goes the same way whatever the tools are, and leaves them where
they are: to change the tools and then do it is to do it and then change them.
-/

namespace EditorBridge.Hub

open Http (Request)

/-- A bridge with other tools. Reducible, so that what is read off such a bridge is read off the
bridge itself. -/
abbrev withTools (h : Hub) (tools : Tool.Registry) : Hub := { h with tools := tools }

variable (h : Hub) (tools : Tool.Registry)

/-! ## What is read -/

-- Proved by rewriting and not by `rfl`: so they are used with the congruence of `if`, which takes the
-- decision procedure along with the condition.

theorem withTools_isClosed (t : TransportId) :
    (h.withTools tools).isClosed t = h.isClosed t := by
  simp only [isClosed, transport?]

theorem withTools_isReceiving (t : TransportId) :
    (h.withTools tools).isReceiving t = h.isReceiving t := by
  simp only [isReceiving, transport?]

theorem withTools_transport? (t : TransportId) :
    (h.withTools tools).transport? t = h.transport? t := by
  simp only [transport?]

theorem withTools_wall : (h.withTools tools).wall = h.wall := by
  simp only [wall]

theorem withTools_services : (h.withTools tools).services = h.services := by
  simp only [services, withTools_wall]

theorem withTools_readResource (session : Option String) (q : Rpc.Request) :
    (h.withTools tools).readResource session q = h.readResource session q := by
  simp only [readResource, withTools_wall]

/-! ## Sessions and transports -/

theorem withTools_openTransport (session : String) (buffer : Nat) (writeTimeout : Nanos) :
    (h.withTools tools).openTransport session buffer writeTimeout =
      ((h.openTransport session buffer writeTimeout).1,
        (h.openTransport session buffer writeTimeout).2.withTools tools) := rfl

theorem withTools_spawn (task : Task) : (h.withTools tools).spawn task =
    ((h.spawn task).1, (h.spawn task).2.withTools tools) := rfl

theorem withTools_answered (a : Answer) : (h.withTools tools).answered a =
    ((h.answered a).1, (h.answered a).2.withTools tools) := rfl

theorem withTools_bindTransport (session : String) (t : TransportId) :
    (h.withTools tools).bindTransport session t =
      ((h.bindTransport session t).1, (h.bindTransport session t).2.withTools tools) := by
  simp only [bindTransport, closeIfAny_eq]
  cases h.sessions.get? session with
  | none => rfl
  | some s =>
    simp only
    split <;> rfl

theorem withTools_endSession (session : String) : (h.withTools tools).endSession session =
    ((h.endSession session).1, (h.endSession session).2.withTools tools) := by
  simp only [endSession, closeIfAny_eq]
  cases h.sessions.get? session <;> rfl

theorem withTools_sweep (timeout : Nanos) : (h.withTools tools).sweep timeout =
    ((h.sweep timeout).1, (h.sweep timeout).2.withTools tools) := by
  have ends (idle : List String) (h : Hub) :
      idle.foldl (fun h session => (h.endSession session).2) (h.withTools tools) =
        (idle.foldl (fun h session => (h.endSession session).2) h).withTools tools := by
    induction idle generalizing h with
    | nil => rfl
    | cons session idle ih => simp only [List.foldl_cons, withTools_endSession, ih]
  simp only [sweep, ends]

/-! ## Steps of tasks -/

theorem withTools_endLoop (id : TaskId) (t : TransportId) :
    (h.withTools tools).endLoop id t = (h.endLoop id t).withTools tools := by
  simp only [endLoop_eq]
  rfl

theorem withTools_deliver (id : TaskId) (r : Transport.WriteResult) :
    (h.withTools tools).deliver id r = (h.deliver id r).withTools tools := by
  simp only [deliver, withTools_endLoop]
  split
  · rfl
  · rfl
  · split <;> rfl
  · split <;> rfl
  · split <;> rfl
  · rfl

theorem withTools_deliverAll (endings : Transport.Endings) :
    (h.withTools tools).deliverAll endings = (h.deliverAll endings).withTools tools := by
  induction endings generalizing h with
  | nil => rfl
  | cons e endings ih =>
    simp only [deliverAll, List.foldl_cons, withTools_deliver] at ih ⊢
    exact ih _

theorem withTools_settleTransport (t : TransportId) (state : Transport) :
    (h.withTools tools).settleTransport t state =
      (h.settleTransport t state).withTools tools :=
  withTools_deliverAll (h.putTransport t (state.settle h.now).1) tools _

theorem withTools_writeTo (id : TaskId) (t : TransportId) (frame : String) :
    (h.withTools tools).writeTo id t frame = (h.writeTo id t frame).withTools tools := by
  simp only [writeTo, withTools_transport?]
  cases h.transport? t with
  | none => exact withTools_deliver h tools ..
  | some state =>
    exact withTools_deliverAll (h.putTransport t (state.write h.now id frame).1) tools _

theorem withTools_pushOver (id : TaskId) (session : String) (m : Rpc.Message) :
    (h.withTools tools).pushOver id session m = (h.pushOver id session m).withTools tools := by
  simp only [pushOver]
  cases h.sessions.transport? session with
  | none => exact withTools_deliver h tools ..
  | some t => exact withTools_writeTo h tools ..

theorem withTools_sendCommand (id : TaskId) (reply : CommandReply) (o : Broker.Order) :
    (h.withTools tools).sendCommand id reply o =
      (h.sendCommand id reply o).withTools tools := by
  have reachable : (h.withTools tools).isReachable o.session = h.isReachable o.session := rfl
  simp only [sendCommand, reachable, withTools_wall]
  obtain ⟨started, broker⟩ := h.broker.start id o (h.isReachable o.session) h.wall
  cases started with
  | error e => rfl
  | ok m =>
    simp only
    split
    · exact withTools_pushOver { h with broker := broker } tools ..
    · rfl

theorem withTools_dispatch (reply : CommandReply) (o : Broker.Order) :
    (h.withTools tools).dispatch reply o =
      ((h.dispatch reply o).1, (h.dispatch reply o).2.withTools tools) :=
  congrArg (h.nextTask, ·) (withTools_sendCommand (h.spawn (.command reply)).2 tools ..)

theorem withTools_arrive (l : Loopback) (id : CallId) (p : Loopback.Push) :
    (h.withTools tools).arrive l id p = (h.arrive l id p).withTools tools := by
  simp only [arrive, withTools_wall]
  split
  · exact withTools_deliver { h with path := .loopback _ } tools ..
  · exact withTools_deliver { h with path := .loopback _ } tools ..
  · exact withTools_deliver { h with broker := _, path := .loopback _ } tools ..

theorem withTools_arrival? :
    (h.withTools tools).arrival? = h.arrival?.map (·.withTools tools) := by
  simp only [arrival?]
  cases h.path with
  | streams => rfl
  | loopback l => simp only [withTools_arrive, Option.map_map, Function.comp_def]

theorem withTools_poll? (id : TaskId) (task : Task) :
    (h.withTools tools).poll? id task = (h.poll? id task).map (·.withTools tools) := by
  cases task with
  | write | push => rfl
  | closed t | disconnected t =>
    simp only [poll?, withTools_isClosed, withTools_isReceiving]
    split <;> rfl
  | command reply =>
    simp only [poll?]
    split <;> rfl
  | pushLoop t phase =>
    cases phase with
    | greeting | beating next => rfl
    | resting next =>
      simp only [poll?, withTools_isClosed, withTools_isReceiving, withTools_endLoop]
      split
      · rfl
      · split
        · simp only [Option.map_some]
          exact congrArg some (withTools_writeTo { h with tasks := h.tasks.set id _ } tools ..)
        · rfl
  | sweeper timeout interval next =>
    simp only [poll?, withTools_sweep]
    split <;> rfl

theorem withTools_move? (m : Mover) :
    (h.withTools tools).move? m = (h.move? m).map (·.withTools tools) := by
  cases m with
  | transport t =>
    simp only [move?, withTools_transport?, withTools_settleTransport]
    cases h.transport? t with
    | none => rfl
    | some state =>
      simp only [Option.bind_some]
      split <;> rfl
  | loopback => exact withTools_arrival? h tools
  | task id =>
    simp only [move?]
    cases h.tasks.get? id with
    | none => rfl
    | some task => exact withTools_poll? h tools id task

theorem withTools_abandon (id : TaskId) : (h.withTools tools).abandon id =
    ((h.abandon id).1, (h.abandon id).2.withTools tools) := by
  simp only [abandon]
  split <;> rfl

theorem withTools_dropReader (t : TransportId) : (h.withTools tools).dropReader t =
    ((h.dropReader t).1, (h.dropReader t).2.withTools tools) := by
  simp only [dropReader, withTools_transport?]
  split <;> rfl

theorem withTools_read (t : TransportId) (max : Nat) : (h.withTools tools).read t max =
    ((h.read t max).1, (h.read t max).2.withTools tools) := by
  simp only [read, withTools_transport?]
  split <;> rfl

theorem withTools_readStream (t : TransportId) : (h.withTools tools).readStream t =
    ((h.readStream t).1, (h.readStream t).2.1, (h.readStream t).2.2.withTools tools) := by
  simp only [readStream, withTools_isClosed, withTools_isReceiving, withTools_dropReader,
    withTools_transport?, withTools_read]
  split
  · rfl
  · split <;> rfl

theorem withTools_startSweeps (timeout interval : Nanos) :
    (h.withTools tools).startSweeps timeout interval =
      (h.startSweeps timeout interval).withTools tools := by
  simp only [startSweeps]
  split <;> rfl

/-! ## Requests -/

theorem withTools_namedSession (r : Request) : (h.withTools tools).namedSession r =
    ((h.namedSession r).1, (h.namedSession r).2.withTools tools) := by
  simp only [namedSession]
  split
  · rfl
  · split <;> rfl

theorem withTools_callerSession (r : Request) : (h.withTools tools).callerSession r =
    ((h.callerSession r).1, (h.callerSession r).2.withTools tools) := by
  simp only [callerSession, withTools_namedSession]
  obtain ⟨o, h'⟩ := h.namedSession r
  cases o with
  | error e => rfl
  | ok session =>
    simp only
    split <;> rfl

theorem withTools_handshakeSession (r : Request) : (h.withTools tools).handshakeSession r =
    ((h.handshakeSession r).1, (h.handshakeSession r).2.withTools tools) := by
  simp only [handshakeSession]
  cases r.value? Http.sessionHeader with
  | none => rfl
  | some session => cases hs : h.sessions.has session <;> simp only [hs] <;> rfl

theorem withTools_startStream (session : String) : (h.withTools tools).startStream session =
    ((h.startStream session).1, (h.startStream session).2.withTools tools) := by
  simp only [startStream, withTools_openTransport, withTools_bindTransport, withTools_spawn,
    withTools_writeTo, withTools_answered]

theorem withTools_subscribe (r : Request) : (h.withTools tools).subscribe r =
    ((h.subscribe r).1, (h.subscribe r).2.withTools tools) := by
  simp only [subscribe, withTools_namedSession]
  split
  · rfl
  · obtain ⟨o, h'⟩ := h.namedSession r
    cases o with
    | error e => rfl
    | ok session =>
      simp only [withTools_startStream]
      split
      · rfl
      · split <;> rfl

theorem withTools_terminate (r : Request) : (h.withTools tools).terminate r =
    ((h.terminate r).1, (h.terminate r).2.withTools tools) := by
  simp only [terminate, withTools_endSession]
  split
  · rfl
  · next session _ =>
    obtain ⟨ended, h'⟩ := h.endSession session
    cases ended <;> rfl

theorem withTools_handshake (session : Option String) (q : Rpc.Request) :
    (h.withTools tools).handshake session q =
      ((h.handshake session q).1, (h.handshake session q).2.withTools tools) := by
  simp only [handshake]
  split
  · rfl
  · split <;> rfl

theorem withTools_notice (session : Option String) (method : String) :
    (h.withTools tools).notice session method =
      (h.notice session method).withTools tools := by
  unfold notice
  split <;> rfl

end EditorBridge.Hub
