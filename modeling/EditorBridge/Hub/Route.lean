import EditorBridge.Hub.Method
/-!
# The routes

A POST carries one message, a GET opens the stream of a session, a DELETE ends
a session, and the health of the bridge can be asked for. A request other than
a handshake has to name a live session and must not contradict its version.
-/

namespace EditorBridge.Hub

open Http (Request Response)

/-- The status of a session's refusal. -/
def refusalStatus : SessionRefusal → Nat
  | .notFound _ => 404
  | _ => 400

/-- The refusal of a request by a session. -/
def refuse (id : Json) (e : SessionRefusal) : Response := .refusal (refusalStatus e) id e.toRpc

/-- The session that a request names, which counts as seen from then on. -/
def namedSession (h : Hub) (r : Request) : Except SessionRefusal String × Hub :=
  match r.value? Http.sessionHeader with
  | none => (.error .missingSessionId, h)
  | some session =>
    match h.sessions.touch session h.now with
    | (true, sessions) => (.ok session, { h with sessions := sessions })
    | (false, _) => (.error (.notFound session), h)

/-- The session that a request belongs to. -/
def callerSession (h : Hub) (r : Request) : Except SessionRefusal String × Hub :=
  match h.namedSession r with
  | (.error e, h) => (.error e, h)
  | (.ok session, h) =>
    match h.sessions.checkVersion session (r.value? Http.versionHeader) with
    | .ok () => (.ok session, h)
    | .error e => (.error e, h)

/-- The session of a handshake: the live one that the request names, or a new one. -/
def handshakeSession (h : Hub) (r : Request) : String × Hub :=
  let (session, h) :=
    match r.value? Http.sessionHeader with
    | some session => if h.sessions.has session then (some session, h) else (none, h)
    | none => (none, h)
  let (session, h) :=
    match session with
    | some session => (session, h)
    | none => (h.sessionId (h.sessionsNamed + 1), { h with sessionsNamed := h.sessionsNamed + 1 })
  (session, { h with sessions := h.sessions.create session h.now h.wall })

/-- The response to a request whose handling is over. -/
def responseOf : Option Rpc.Message → Response
  | some m => .message 200 m
  | none => .plain 202

/-- Answers a handshake. -/
def postHandshake (h : Hub) (r : Request) (q : Rpc.Request) : TaskId × Hub :=
  let unsupported := (r.value? Http.versionHeader).filter fun v => !isSupportedVersion v
  match unsupported with
  | some v => h.answered (.response (refuse q.replyId (.unsupportedProtocolVersion v)))
  | none =>
    let (session, h) := h.handshakeSession r
    match h.handling (some session) q with
    | (.now (some m), h) =>
      h.answered (.response { Response.message 200 m with session := some session })
    | (_, h) => h.answered (.response (.plain 202))

/-- Answers a request other than a handshake. -/
def postCall (h : Hub) (r : Request) (q : Rpc.Request) : TaskId × Hub :=
  match h.callerSession r with
  | (.error e, h) => h.answered (.response (refuse q.replyId e))
  | (.ok session, h) =>
    match h.handling (some session) q with
    | (.now m, h) => h.answered (.response (responseOf m))
    | (.tool id name args, h) =>
      h.execute (.response id) name args (h.toolContext (some session))

/-- Answers a POST. -/
def post (h : Hub) (r : Request) : TaskId × Hub :=
  if h.config.maxBodyBytes < r.body.length then
    h.answered (.response ⟨413, some "text/plain; charset=utf-8", none, none,
      .text "payload reached size limit"⟩)
  else
    match Rpc.Frame.parse r.body with
    | .rejected m => h.answered (.response (.message 400 m))
    | .oneWay =>
      match h.callerSession r with
      | (.ok _, h) => h.answered (.response (.plain 202))
      | (.error e, h) => h.answered (.response (refuse .null e))
    | .request q => if q.isHandshake then h.postHandshake r q else h.postCall r q

/-- Opens a stream for a session and starts the loop behind it. -/
def startStream (h : Hub) (session : String) : TaskId × Hub :=
  let (t, h) := h.openTransport session h.config.sseBuffer h.config.sseWriteTimeout
  let (_, h) := h.bindTransport session t
  let (loop, h) := h.spawn (.pushLoop t .greeting)
  let h := h.writeTo loop t (Sse.comment "connected")
  h.answered (.response ⟨200, some "text/event-stream", some "no-cache", some session, .stream t⟩)

/-- Answers a GET. -/
def subscribe (h : Hub) (r : Request) : TaskId × Hub :=
  if !r.acceptsStream then
    h.answered (.response ⟨406, none, none, none, .text "Accept must include text/event-stream"⟩)
  else
    match h.namedSession r with
    | (.error e, h) => h.answered (.response (refuse .null e))
    | (.ok session, h) =>
      if (h.sessions.version? session).isNone then
        let e := Rpc.Error.invalidRequest (SessionRefusal.notNegotiated session).message
        h.answered (.response (.refusal 400 .null e))
      else
        match h.sessions.checkVersion session (r.value? Http.versionHeader) with
        | .error e => h.answered (.response (refuse .null e))
        | .ok () => h.startStream session

/-- Answers a DELETE. -/
def terminate (h : Hub) (r : Request) : TaskId × Hub :=
  match r.value? Http.sessionHeader with
  | none => h.answered (.response (refuse .null .missingSessionId))
  | some session =>
    match h.endSession session with
    | (true, h) => h.answered (.response (.plain 204))
    | (false, h) => h.answered (.response (refuse .null (.notFound session)))

/-- The health of the bridge. -/
def health (h : Hub) : Json :=
  .object [("status", .str "ok"), ("service", .str serverName), ("version", .str serverVersion),
    ("sessions", .int h.sessions.length), ("pendingCommands", .int h.broker.outstanding),
    ("snapshots", .int h.snapshots.size), ("timestamp", .str h.wall.textWithOffset)]

/-- Waits for the response to a request. -/
def request (h : Hub) (r : Request) : TaskId × Hub :=
  match r.method, r.route with
  | "POST", "/mcp" => h.post r
  | "GET", "/mcp" => h.subscribe r
  | "DELETE", "/mcp" => h.terminate r
  | "GET", "/health" => h.answered (.response (.json 200 h.health))
  | _, _ => h.answered (.response (.plain 404))

/-! ## Runs -/

/-- Something that happens to a bridge from outside. -/
inductive Event where
  | request (r : Request)
  | advance (d : Nanos)
  | read (t : TransportId)
  | disconnect (t : TransportId)
  | abandon (id : TaskId)
  | startSweeps (timeout interval : Nanos)

/-- What an event does by itself. -/
def happen (h : Hub) : Event → Hub
  | .request r => (h.request r).2
  | .advance d => { h with now := h.now + d }
  | .read t => (h.readStream t).2.2
  | .disconnect t => (h.dropReader t).2
  | .abandon id => (h.abandon id).2
  | .startSweeps timeout interval => h.startSweeps timeout interval

/-- The bridge after an event, when everything waits again. -/
def after (h : Hub) (e : Event) : Hub := (h.happen e).settle

/-- The bridge after a run. -/
def run (h : Hub) (events : List Event) : Hub := events.foldl after h

end EditorBridge.Hub
