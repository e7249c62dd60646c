import EditorBridge.Transport.Run
/-!
# Schedules of a transport

`run` lets every writer that can move do so before the next event comes. A
schedule leaves the order open: events and the steps of single writers follow
each other in any way, so that a transport may be closed, read or left by its
reader between any two of them. A write that breaks takes two steps: it gives up
its turn, and then it closes the transport. It waits for nothing in between, so
where one writer runs at a time the schedule is prompt; where writers run beside
each other, the next in line may get its turn in between. What holds after every
schedule holds however the writers are woken; every run is one of the schedules.
-/

namespace EditorBridge.Transport

/-- The next step of a writer, with the write that ends by it, if a writer can move: the one whose
turn it is gives it up, or the first in line gets its turn and may give it up at once. -/
def poll? (now : Nanos) (t : Transport) : Option (Transport × Option (WriterId × WriteResult)) :=
  match t.turn, t.line with
  | some ⟨writer, frame, deadline⟩, _ =>
    if !t.receiving then some (t.release, some (writer, .error readerGone))
    else if t.hasRoom then some ((t.put writer frame).release, some (writer, .ok ()))
    else if deadline ≤ now then
      some (t.release, some (writer, .error (.writeTimeout t.writeTimeout)))
    else none
  | none, [] => none
  | none, (writer, frame) :: rest =>
    if t.closed then some ({ t with line := rest }, some (writer, .error .closed))
    else if !t.receiving then some ({ t with line := rest }, some (writer, .error readerGone))
    else if t.hasRoom then some ({ t.put writer frame with line := rest }, some (writer, .ok ()))
    else if t.writeTimeout = 0 then
      some ({ t with line := rest }, some (writer, .error (.writeTimeout 0)))
    else some ({ t with turn := some ⟨writer, frame, now + t.writeTimeout⟩, line := rest }, none)

/-- An event, or a step of one writer. -/
inductive Action where
  | event (e : Event)
  /-- The writer that can move does so, until it waits or has given up its turn. -/
  | move
  /-- A writer whose write broke closes the transport, and its write ends. -/
  | shut (writer : WriterId)
  deriving DecidableEq, Repr

namespace Run

/-- The next writer starts and gets in line. -/
def queue (r : Run) (frame : String) : Run :=
  { r with
    writers := r.writers + 1
    transport := { r.transport with line := r.transport.line ++ [(r.writers, frame)] } }.note
      [.started r.writers frame]

/-- The event itself, while all writers who wait stay where they are. -/
def meet (r : Run) : Event → Run
  | .write frame =>
    if r.transport.closed then
      ({ r with writers := r.writers + 1 }.note [.started r.writers frame]).moved
        (r.transport, [(r.writers, .error .closed)])
    else r.queue frame
  | e => r.happen e

/-- A run after a step of a writer. A write that broke has yet to close the transport. -/
def proceed (r : Run) : Transport × Option (WriterId × WriteResult) → Run
  | (t, none) => { r with transport := t }
  | (t, some (writer, result)) =>
    if breaks result then { r with transport := t, leaving := r.leaving ++ [(writer, result)] }
    else r.moved (t, [(writer, result)])

/-- A run after an action. Without a writer that can take it, a step does nothing. -/
def act (r : Run) : Action → Run
  | .event e => r.meet e
  | .move => ((r.transport.poll? r.now).map r.proceed).getD r
  | .shut writer =>
    match r.leaving.find? (·.1 = writer) with
    | none => r
    | some ending =>
      { r with leaving := r.leaving.filter (·.1 ≠ writer) }.moved (r.transport.close.2, [ending])

/-- A run after actions. -/
def acts (r : Run) (actions : List Action) : Run := actions.foldl act r

/-- Nobody moves while a write that broke has yet to close the transport. -/
def Prompt (r : Run) : List Action → Prop
  | [] => True
  | a :: actions => (a = .move → r.leaving = []) ∧ (r.act a).Prompt actions

/-- By this action the first in line gets its turn. -/
def Gives (r : Run) (a : Action) : Prop :=
  a = .move ∧ r.transport.closed = false ∧ r.transport.turn = none ∧ r.transport.line ≠ []

instance (r : Run) (a : Action) : Decidable (r.Gives a) :=
  inferInstanceAs (Decidable (_ ∧ _ ∧ _ ∧ _))

end Run

/-! ## What was seen -/

namespace Entry

/-- The write that was started. -/
def start? : Entry → Option (WriterId × String)
  | started writer frame => some (writer, frame)
  | _ => none

/-- How a write came to its end: with a result, or with none if it was given up. -/
def fate? (writer : WriterId) : Entry → Option (Option WriteResult)
  | ended other result => if other = writer then some (some result) else none
  | abandoned other => if other = writer then some none else none
  | _ => none

/-- The frame that came to the reader. -/
def read? : Entry → Option String
  | read frame => some frame
  | _ => none

/-- The frame that went away with the reader. -/
def lost? : Entry → Option String
  | lost frame => some frame
  | _ => none

end Entry

namespace Run

/-- The writes that were started, in their order. -/
def starts (r : Run) : List (WriterId × String) := r.record.filterMap Entry.start?

/-- Every end that a write came to. -/
def fates (r : Run) (writer : WriterId) : List (Option WriteResult) :=
  r.record.filterMap (Entry.fate? writer)

/-- The frames that came to the reader. -/
def reads (r : Run) : List String := r.record.filterMap Entry.read?

/-- The frames that went away with the reader. -/
def losses (r : Run) : List String := r.record.filterMap Entry.lost?

/-- Whether a write succeeded. -/
def succeeded (r : Run) (writer : WriterId) : Bool := (r.fates writer).any fun
  | some (.ok ()) => true
  | _ => false

/-- Whether a write failed or was given up. -/
def miscarried (r : Run) (writer : WriterId) : Bool := (r.fates writer).any fun
  | some (.ok ()) => false
  | _ => true

end Run

/-- The run that a schedule leads to. -/
def exec (t : Transport) (actions : List Action) : Run := (Run.start t).acts actions

end EditorBridge.Transport
