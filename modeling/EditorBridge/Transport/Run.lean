import EditorBridge.Transport.Basic
/-!
# Runs of a transport

Whatever happens to a transport happens one event after the other, and after
each everything that can move has moved. A record of a run tells in order what
was seen of it from outside: which writes started with which frames, how they
ended, what was read, and what a close was told. A property of every run holds
for every interleaving of writers, readers and the clock.
-/

namespace EditorBridge.Transport

/-- Something that happens to a transport. -/
inductive Event where
  /-- The next writer starts with a frame. Writers are numbered from zero. -/
  | write (frame : String)
  /-- A write is given up. -/
  | abandon (writer : WriterId)
  | read (max : Nat)
  | dropReader
  | close
  | advance (d : Nanos)
  deriving DecidableEq, Repr

/-- Something that was seen of a transport. -/
inductive Entry where
  | started (writer : WriterId) (frame : String)
  | ended (writer : WriterId) (r : WriteResult)
  | abandoned (writer : WriterId)
  /-- A frame came to the reader. -/
  | read (frame : String)
  /-- A frame went away with the reader. -/
  | lost (frame : String)
  /-- A close, and whether it made the difference. -/
  | close (r : Bool)

/-- A transport in a run, with the clock, the number of writers so far and the record. -/
structure Run where
  transport : Transport
  now : Nanos
  writers : Nat
  record : List Entry
  /-- The writes that broke and have given up their turn, but have yet to close the transport. -/
  leaving : Endings

namespace Run

/-- The start of a run. -/
def start (t : Transport) : Run := ⟨t, 0, 0, [], []⟩

/-- Adds to the record. -/
def note (r : Run) (entries : List Entry) : Run := { r with record := r.record ++ entries }

/-- A run after its transport has moved and writes have ended. -/
def moved (r : Run) (m : Transport × Endings) : Run :=
  { r with transport := m.1 }.note (m.2.map fun (writer, result) => .ended writer result)

/-- The event itself. -/
def happen (r : Run) : Event → Run
  | .write frame =>
    let started := { r with writers := r.writers + 1 }.note [.started r.writers frame]
    started.moved (r.transport.write r.now r.writers frame)
  | .abandon writer =>
    if r.transport.isWaiting writer then
      { r with transport := r.transport.abandon writer }.note [.abandoned writer]
    else r
  | .read max =>
    let (frames, t) := r.transport.read max
    { r with transport := t }.note (frames.map .read)
  | .dropReader =>
    { r with transport := r.transport.dropReader.2 }.note (r.transport.channel.map .lost)
  | .close =>
    let (made, t) := r.transport.close
    { r with transport := t }.note [.close made]
  | .advance d => { r with now := r.now + d }

/-- Everything that can move moves. -/
def settle (r : Run) : Run := r.moved (r.transport.settle r.now)

/-- A run after one more event. -/
def step (r : Run) (e : Event) : Run := (r.happen e).settle

end Run

/-- The run that events lead to. -/
def run (t : Transport) (events : List Event) : Run := events.foldl Run.step (.start t)

end EditorBridge.Transport
