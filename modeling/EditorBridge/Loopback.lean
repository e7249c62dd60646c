import EditorBridge.Broker.Basic
/-!
# The loopback

A push path without an editor. It records what is pushed and ends each push as
it has been told to: at once or after a delay, well or badly, with or without
acknowledging the command itself.
-/

namespace EditorBridge

/-- How pushes end. -/
structure Loopback.Settings where
  connected : Bool
  failPush : Bool
  delay : Nanos
  /-- The acknowledgement to give, less the id of the command. -/
  autoAck : Option Json
  deriving DecidableEq

/-- A push on its way. -/
structure Loopback.Push where
  session : String
  commandId : String
  arrival : Nanos
  settings : Loopback.Settings
  deriving DecidableEq

/-- The state of a loopback: how it is set, what was pushed, what became of its own
acknowledgements, and the pushes on their way by call. -/
structure Loopback where
  settings : Loopback.Settings
  pushed : List (String × String)
  autoResults : List (Except String (Except CommandError Unit))
  underway : Table CallId Loopback.Push

namespace Loopback

/-- A loopback on which nothing has happened. -/
def new (connected : Bool) (autoAck : Option Json) : Loopback :=
  ⟨⟨connected, false, 0, autoAck⟩, [], [], []⟩

/-- The id of the command that a notification carries. -/
def commandIdOf (m : Rpc.Message) : String :=
  ((m.params.bind (·.get? "commandId")).bind Json.str?).getD ""

/-- Starts a push. -/
def begin (l : Loopback) (call : CallId) (session : String) (m : Rpc.Message) (now : Nanos) :
    Loopback :=
  { l with
    pushed := l.pushed ++ [(session, m.wire)]
    underway := l.underway.set call ⟨session, commandIdOf m, now + l.settings.delay, l.settings⟩ }

/-- Takes note of what became of an acknowledgement. -/
def record (l : Loopback) (r : Except String (Except CommandError Unit)) : Loopback :=
  { l with autoResults := l.autoResults ++ [r] }

/-- The earlier of two arrivals; of two at the same time the first. -/
def earlier (a b : CallId × Push) : CallId × Push := if b.2.arrival < a.2.arrival then b else a

/-- The push that arrives next, if its time has come. -/
def arrived? (l : Loopback) (now : Nanos) : Option (CallId × Push) :=
  match l.underway.filter fun (_, p) => p.arrival ≤ now with
  | [] => none
  | p :: rest => some (rest.foldl earlier p)

/-- The acknowledgement that a push gives by itself. -/
def Push.ack? (p : Push) : Option (Except String Broker.Ack) :=
  p.settings.autoAck.map fun j =>
    let members :=
      match j with
      | .obj members => members
      | _ => []
    let named := Json.Members.insert "commandId" (.str p.commandId) members
    (Broker.Ack.decode (.obj named)).mapError Json.Mismatch.message

end Loopback

end EditorBridge
