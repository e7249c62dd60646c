import EditorBridge.Failure
import EditorBridge.Rpc.Handshake
import EditorBridge.Table
import EditorBridge.Time.Timestamp
/-!
# Sessions

A session begins with a handshake that fixes its protocol version, becomes
initialized when its client says so, and may have one transport for what the
bridge sends on its own. Its last-seen time decides when it is idle.
-/

namespace EditorBridge

/-- Which transport. -/
abbrev TransportId := Nat

/-- The state of a session. -/
structure Session where
  createdAt : Timestamp
  lastSeen : Nanos
  initialized : Bool
  version : Option String
  transport : Option TransportId
  deriving DecidableEq, Repr

/-- The live sessions by id. -/
abbrev Sessions := Table String Session

namespace Sessions

/-- Creates a session, or refreshes one that lives. -/
def create (s : Sessions) (id : String) (now : Nanos) (wall : Timestamp) : Sessions :=
  match s.get? id with
  | some session => s.set id { session with lastSeen := now }
  | none => s.set id ⟨wall, now, false, none, none⟩

/-- Changes a session that lives: whether it does, and the sessions after it. -/
def update (s : Sessions) (id : String) (f : Session → Session) : Bool × Sessions :=
  (s.has id, s.modify id f)

/-- Marks a session as seen now. -/
def touch (s : Sessions) (id : String) (now : Nanos) : Bool × Sessions :=
  s.update id fun session => { session with lastSeen := now }

/-- Fixes the version of a session. -/
def setVersion (s : Sessions) (id version : String) : Bool × Sessions :=
  s.update id fun session => { session with version := some version }

/-- The version of a session. -/
def version? (s : Sessions) (id : String) : Option String := (s.get? id).bind (·.version)

/-- The version that a client's wish leads to: the wish if it is supported, and otherwise the
preferred one. -/
def agreed (requested : Option String) : String :=
  match requested with
  | some v => if isSupportedVersion v then v else preferredVersion
  | none => preferredVersion

/-- Fixes the version of a session by its client's wish. -/
def negotiate (s : Sessions) (id : String) (requested : Option String) : Option String × Sessions :=
  match s.setVersion id (agreed requested) with
  | (true, s) => (some (agreed requested), s)
  | (false, _) => (none, s)

/-- Checks the version that a request names: once a version is fixed it may be left out but not be
another one, before that it has to be there and be supported. -/
def checkVersion (s : Sessions) (id : String) (header : Option String) :
    Except SessionRefusal Unit :=
  match s.get? id with
  | none => .error (.notFound id)
  | some session =>
    match session.version, header with
    | some _, none => .ok ()
    | some negotiated, some received =>
      if negotiated = received then .ok ()
      else .error (.protocolVersionMismatch negotiated received)
    | none, none => .error .missingProtocolVersion
    | none, some received =>
      if isSupportedVersion received then .ok ()
      else .error (.unsupportedProtocolVersion received)

/-- Marks a session as initialized. -/
def confirm (s : Sessions) (id : String) : Bool × Sessions :=
  s.update id fun session => { session with initialized := true }

/-- Whether a session is initialized. -/
def isInitialized (s : Sessions) (id : String) : Bool :=
  ((s.get? id).map (·.initialized)).getD false

/-- The transport of a session. -/
def transport? (s : Sessions) (id : String) : Option TransportId :=
  (s.get? id).bind (·.transport)

/-- Takes a transport away from a session, if it is the one it has. -/
def clearTransport (s : Sessions) (id : String) (t : TransportId) : Bool × Sessions :=
  if s.transport? id = some t then s.update id fun session => { session with transport := none }
  else (false, s)

/-- The sessions that have been idle for longer than a span. -/
def idle (s : Sessions) (timeout now : Nanos) : List String :=
  (s.filter fun (_, session) => timeout < now - session.lastSeen).map (·.1)

/-- A session as it is reported. -/
def info (id : String) (session : Session) (now : Nanos) : Json :=
  .object [("id", .str id), ("createdAt", .str session.createdAt.text),
    ("idleMs", .int (Nanos.millis (now - session.lastSeen))),
    ("initialized", .bool session.initialized),
    ("protocolVersion", Json.orNull (session.version.map .str)),
    ("hasTransport", .bool session.transport.isSome)]

end Sessions

end EditorBridge
