import EditorBridge.Failure
/-!
# Transports

The sending side of an event stream: a channel of frames with a fixed capacity
and a reader at its other end. Writers take turns. The one whose turn it is puts
its frame into the channel, if need be after waiting for room, but no longer
than a fixed span; the others wait in line, first come first served, and their
span starts with their turn. A write that runs out of time or finds no reader
breaks: it gives up its turn and then closes the transport, which stays closed.
-/

namespace EditorBridge

/-- Who waits for a write. -/
abbrev WriterId := Nat

/-- The writer whose turn it is, waiting for room until a moment. -/
structure Turn where
  writer : WriterId
  frame : String
  deadline : Nanos
  deriving DecidableEq, Repr

/-- The state of a transport. -/
structure Transport where
  session : String
  capacity : Nat
  writeTimeout : Nanos
  closed : Bool
  /-- Whether there is a reader. -/
  receiving : Bool
  /-- The frames that wait to be read. -/
  channel : List String
  turn : Option Turn
  /-- The writers in line with their frames. -/
  line : List (WriterId × String)
  /-- Every frame that was ever put into the channel, with its writer. -/
  sent : List (WriterId × String)
  deriving DecidableEq, Repr

namespace Transport

/-- How a write ended. -/
abbrev WriteResult := Except WriteError Unit

/-- Writers whose writes have ended. -/
abbrev Endings := List (WriterId × WriteResult)

/-- A new transport. A channel has room for at least one frame. -/
def opened (session : String) (buffer : Nat) (writeTimeout : Nanos) : Transport where
  session := session
  capacity := max buffer 1
  writeTimeout := writeTimeout
  closed := false
  receiving := true
  channel := []
  turn := none
  line := []
  sent := []

/-- Closes a transport: whether this made the difference. -/
def close (t : Transport) : Bool × Transport := (!t.closed, { t with closed := true })

/-- Whether another frame fits into the channel. -/
def hasRoom (t : Transport) : Bool := t.channel.length < t.capacity

/-- The failure of a write that finds no reader. -/
def readerGone : WriteError := .connectionLost "SSE stream receiver dropped"

/-- Whether a write has found no reader or has run out of time. -/
def breaks : WriteResult → Bool
  | .ok () | .error .closed => false
  | .error (.connectionLost _) | .error (.writeTimeout _) => true

/-- The turn is given up. -/
def release (t : Transport) : Transport := { t with turn := none }

/-- What a write does when it has ended and has no turn any more: if it broke, it closes the
transport. -/
def leave (t : Transport) (r : WriteResult) : Transport := if breaks r then t.close.2 else t

/-- Puts the frame of a writer into the channel. -/
def put (t : Transport) (writer : WriterId) (frame : String) : Transport :=
  { t with channel := t.channel ++ [frame], sent := t.sent ++ [(writer, frame)] }

/-- Gives the writers in line their turns one after the other, until one has to wait. -/
def giveTurns (now : Nanos) : List (WriterId × String) → Transport → Transport × Endings
  | [], t => ({ t with line := [] }, [])
  | (writer, frame) :: rest, t =>
    let next (t : Transport) (r : WriteResult) : Transport × Endings :=
      let (t, endings) := giveTurns now rest (t.leave r)
      (t, (writer, r) :: endings)
    if t.closed then next t (.error .closed)
    else if !t.receiving then next t (.error readerGone)
    else if t.hasRoom then next (t.put writer frame) (.ok ())
    else if t.writeTimeout = 0 then next t (.error (.writeTimeout 0))
    else ({ t with turn := some ⟨writer, frame, now + t.writeTimeout⟩, line := rest }, [])

/-- Ends the write whose turn it is with a result: it gives up its turn, closes the transport if it
broke, and then the line gets its turns. -/
def endTurn (now : Nanos) (writer : WriterId) (r : WriteResult) (t : Transport) :
    Transport × Endings :=
  let (t, endings) := giveTurns now t.line (t.release.leave r)
  (t, (writer, r) :: endings)

/-- Lets everything happen that can happen now. A frame that fits goes in even if the time is up
or the transport has been closed meanwhile. -/
def settle (now : Nanos) (t : Transport) : Transport × Endings :=
  match t.turn with
  | none => giveTurns now t.line t
  | some turn =>
    if !t.receiving then endTurn now turn.writer (.error readerGone) t
    else if t.hasRoom then endTurn now turn.writer (.ok ()) (t.put turn.writer turn.frame)
    else if turn.deadline ≤ now then
      endTurn now turn.writer (.error (.writeTimeout t.writeTimeout)) t
    else (t, [])

/-- Starts a write. On a closed transport it fails at once. -/
def write (now : Nanos) (writer : WriterId) (frame : String) (t : Transport) :
    Transport × Endings :=
  if t.closed then (t, [(writer, .error .closed)])
  else settle now { t with line := t.line ++ [(writer, frame)] }

/-- Whether a write has started and not ended. -/
def isWaiting (t : Transport) (writer : WriterId) : Bool :=
  t.turn.any (·.writer = writer) || t.line.any (·.1 = writer)

/-- Gives up a write that has not ended. -/
def abandon (writer : WriterId) (t : Transport) : Transport :=
  { t with
    turn := t.turn.filter (·.writer ≠ writer)
    line := t.line.filter (·.1 ≠ writer) }

/-- Reads the frames that are in the channel, at most `max` of them. -/
def read (max : Nat) (t : Transport) : List String × Transport :=
  (t.channel.take max, { t with channel := t.channel.drop max })

/-- The reader goes away, and unread frames with it: whether there was one. -/
def dropReader (t : Transport) : Bool × Transport :=
  (t.receiving, { t with receiving := false, channel := [] })

/-- Whether something can happen now. -/
def restless (now : Nanos) (t : Transport) : Bool :=
  match t.turn with
  | none => !t.line.isEmpty
  | some turn => !t.receiving || t.hasRoom || turn.deadline ≤ now

end Transport

end EditorBridge
