import EditorBridge.Hub.Schedule
import EditorBridge.Proofs.Broker.Step
import EditorBridge.Proofs.Hub.Ending
import EditorBridge.Proofs.Sessions
import EditorBridge.Proofs.Transport
import EditorBridge.Proofs.Tool
import Mathlib.Tactic.SplitIfs
/-!
# The small steps of a bridge

What an event or a move does to the whole bridge falls into small steps, each
of which touches one thing: a session is seen, a command is called, a transport
moves, a task is told how its write ended. `act_steps` takes every action of a
schedule apart once; what holds in every schedule is then a case analysis over
the steps, and does not look at the routes, the tools or the tasks again.

Between the steps some writes have ended whose tasks have not been told.
-/

namespace EditorBridge.Hub

open Transport (Endings)

/-- A bridge in the middle of an action, with the writes that have ended and whose tasks have yet to
be told. -/
structure Moment where
  hub : Hub
  untold : Endings

/-- The frame of a command that is called now: a notification of the command under its id. -/
def commandFrame (h : Hub) (o : Broker.Order) : String :=
  Sse.event "message" (Json.compact (.obj [("jsonrpc", .str "2.0"),
    ("method", .str "bridge/command"),
    ("params", .obj [("args", o.args), ("command", .str o.command),
      ("commandId", .str (Broker.commandId h.wall (h.broker.sequence + 1)))])]))

theorem commandFrame_eq (h : Hub) (o : Broker.Order) : h.commandFrame o =
    frameOf (Broker.notification (Broker.commandId h.wall (h.broker.sequence + 1)) o) := rfl

/-- A command has been called: its task waits, its call is enrolled, and its frame is last in the
line of a transport. -/
def begun (h : Hub) (reply : CommandReply) (o : Broker.Order) (t : TransportId)
    (state : Transport) : Hub :=
  { (h.spawn (.command reply)).2 with
    broker := h.broker.enroll h.nextTask o h.wall
    transports := h.transports.set t
      { state with line := state.line ++ [(h.nextTask, h.commandFrame o)] } }

/-- A command has been refused. -/
def refused (h : Hub) (reply : CommandReply) (e : CommandError) : Hub :=
  (h.spawn (.command reply)).2.finish h.nextTask (commandAnswer reply (.error e))

/-- What a schedule tells of a step: a snapshot was refreshed, an acknowledgement was accepted, or a
call was given up. -/
inductive Mark where
  | refreshed (x : Refresh)
  | acked (x : Broker.Claimed)
  | abandoned (id : TaskId)

/-- The refresh that a mark tells of. -/
def Mark.refresh? : Mark → Option Refresh
  | refreshed x => some x
  | _ => none

namespace Moment

/-- A small step, with its marks. -/
inductive Step : Moment → List Mark → Moment → Prop
  -- A request is looked at and answered.
  | touched {h : Hub} {es : Endings} (sessions : Sessions) (n : Nat) :
      Sessions.Looked h.sessionId h.now h.sessions h.sessionsNamed sessions n →
      Step ⟨h, es⟩ [] ⟨{ h with sessions := sessions, sessionsNamed := n }, es⟩
  | stored {h : Hub} {es : Endings} {x : Refresh} : x.wall = h.wall →
      h.sessions.isInitialized x.session = true → x.Accepted h.snapshots →
      Step ⟨h, es⟩ [.refreshed x] ⟨{ h with snapshots := h.snapshots.apply x.event }, es⟩
  | acked {h : Hub} {es : Endings} {x : Broker.Claimed} : x.wall = h.wall →
      (h.broker.ack x.session x.ack x.wall).1 = .ok () →
      Step ⟨h, es⟩ [.acked x] ⟨{ h with broker := (h.broker.ack x.session x.ack x.wall).2 }, es⟩
  | answered {h : Hub} {es : Endings} {a : Answer} : a.stream? = none →
      Step ⟨h, es⟩ [] ⟨(h.answered a).2, es⟩
  | ended {h : Hub} {es : Endings} (session : String) :
      Step ⟨h, es⟩ [] ⟨(h.endSession session).2, es⟩
  | subscribed {h : Hub} {es : Endings} {session : String} {s : Session} :
      h.sessions.get? session = some s → Step ⟨h, es⟩ [] ⟨(h.startStream session).2, es⟩
  -- A command is called.
  | refused {h : Hub} {es : Endings} (reply : CommandReply) (e : CommandError) :
      Step ⟨h, es⟩ [] ⟨h.refused reply e, es⟩
  | called {h : Hub} {es : Endings} (reply : CommandReply) (o : Broker.Order) {t : TransportId}
      {state : Transport} : h.sessions.transport? o.session = some t →
      h.transport? t = some state → state.closed = false →
      Step ⟨h, es⟩ [] ⟨h.begun reply o t state, es⟩
  -- A client does something else.
  | read {h : Hub} {es : Endings} {t : TransportId} {state : Transport} (n : Nat) :
      h.transport? t = some state → Step ⟨h, es⟩ [] ⟨h.putTransport t (state.read n).2, es⟩
  | deserted {h : Hub} {es : Endings} {t : TransportId} {state : Transport} :
      h.transport? t = some state → Step ⟨h, es⟩ [] ⟨h.putTransport t state.dropReader.2, es⟩
  | abandoned {h : Hub} {es : Endings} {id : TaskId} {task : Task} :
      h.tasks.get? id = some task → task.isCall = true →
      Step ⟨h, es⟩ [.abandoned id] ⟨(h.abandon id).2, es⟩
  -- Time passes.
  | ticked {h : Hub} {es : Endings} (d : Nanos) : Step ⟨h, es⟩ [] ⟨{ h with now := h.now + d }, es⟩
  | sweeping {h : Hub} {es : Endings} (timeout : Nanos) {interval : Nanos} : interval ≠ 0 →
      Step ⟨h, es⟩ [] ⟨(h.spawn (.sweeper timeout interval h.now)).2, es⟩
  /-- A sweep that was due is over. -/
  | rested {h : Hub} {es : Endings} {id : TaskId} {timeout interval next : Nanos} :
      h.tasks.get? id = some (.sweeper timeout interval next) → next ≤ h.now →
      (∀ s x, h.sessions.get? s = some x → h.now ≤ x.lastSeen + timeout) →
      Step ⟨h, es⟩ [] ⟨{ h with
        tasks := h.tasks.set id (.sweeper timeout interval (next + interval)) }, es⟩
  -- A transport moves, or a task does.
  | moved {h : Hub} {es : Endings} {t : TransportId} {state : Transport} :
      h.transport? t = some state →
      Step ⟨h, es⟩ [] ⟨h.putTransport t (state.settle h.now).1, es ++ (state.settle h.now).2⟩
  | beat {h : Hub} {es : Endings} {id : TaskId} {t : TransportId} {next : Nanos}
      {state : Transport} : h.tasks.get? id = some (.pushLoop t (.resting next)) →
      h.transport? t = some state → state.closed = false →
      Step ⟨h, es⟩ [] ⟨{ h with
        tasks := h.tasks.set id (.pushLoop t (.beating (next + h.config.keepaliveInterval)))
        transports := h.transports.set t
          { state with line := state.line ++ [(id, Sse.comment "keep-alive")] } }, es⟩
  | loopEnded {h : Hub} {es : Endings} {id : TaskId} {t : TransportId} {next : Nanos} :
      h.tasks.get? id = some (.pushLoop t (.resting next)) → Step ⟨h, es⟩ [] ⟨h.endLoop id t, es⟩
  | watched {h : Hub} {es : Endings} {id : TaskId} {task : Task} {a : Answer} :
      h.tasks.get? id = some task → (∃ t, task = .closed t ∨ task = .disconnected t) →
      a.stream? = none → Step ⟨h, es⟩ [] ⟨h.finish id a, es⟩
  | polled {h : Hub} {es : Endings} {id : TaskId} {reply : CommandReply}
      {r : Except CommandError Broker.Ack} : h.tasks.get? id = some (.command reply) →
      (h.broker.poll id h.now).1 = some r →
      Step ⟨h, es⟩ [] ⟨{ h with broker := (h.broker.poll id h.now).2 }.finish id
        (commandAnswer reply r), es⟩
  -- A task is told how its write ended.
  | unheard {h : Hub} {es : Endings} {id : TaskId} (r : Transport.WriteResult) :
      (∀ reply, h.tasks.get? id ≠ some (.command reply)) →
      (∀ t phase, h.tasks.get? id = some (.pushLoop t phase) → ∃ next, phase = .resting next) →
      Step ⟨h, (id, r) :: es⟩ [] ⟨h, es⟩
  | wrote {h : Hub} {es : Endings} {id : TaskId} {task : Task} {a : Answer}
      (r : Transport.WriteResult) : h.tasks.get? id = some task → task = .write ∨ task = .push →
      a.stream? = none → Step ⟨h, (id, r) :: es⟩ [] ⟨h.finish id a, es⟩
  | pushed {h : Hub} {es : Endings} {id : TaskId} {reply : CommandReply}
      {r : Transport.WriteResult} : h.tasks.get? id = some (.command reply) →
      (h.broker.pushed id r.toBool h.now).1 = none →
      Step ⟨h, (id, r) :: es⟩ [] ⟨{ h with broker := (h.broker.pushed id r.toBool h.now).2 }, es⟩
  | failed {h : Hub} {es : Endings} {id : TaskId} {reply : CommandReply}
      {r : Transport.WriteResult} {x : Except CommandError Broker.Ack} :
      h.tasks.get? id = some (.command reply) →
      (h.broker.pushed id r.toBool h.now).1 = some x →
      Step ⟨h, (id, r) :: es⟩ [] ⟨{ h with
        broker := (h.broker.pushed id r.toBool h.now).2 }.finish id (commandAnswer reply x), es⟩
  | greeted {h : Hub} {es : Endings} {id : TaskId} {t : TransportId}
      (r : Transport.WriteResult) : h.tasks.get? id = some (.pushLoop t .greeting) →
      h.config.keepaliveInterval ≠ 0 →
      Step ⟨h, (id, r) :: es⟩ [] ⟨{ h with
        tasks := h.tasks.set id (.pushLoop t (.resting (h.now + h.config.keepaliveInterval))) }, es⟩
  | silenced {h : Hub} {es : Endings} {id : TaskId} {t : TransportId}
      (r : Transport.WriteResult) : h.tasks.get? id = some (.pushLoop t .greeting) →
      h.config.keepaliveInterval = 0 → Step ⟨h, (id, r) :: es⟩ [] ⟨h.dismiss id, es⟩
  | beaten {h : Hub} {es : Endings} {id : TaskId} {t : TransportId} {next : Nanos} :
      h.tasks.get? id = some (.pushLoop t (.beating next)) →
      Step ⟨h, (id, .ok ()) :: es⟩ []
        ⟨{ h with tasks := h.tasks.set id (.pushLoop t (.resting next)) }, es⟩
  | broken {h : Hub} {es : Endings} {id : TaskId} {t : TransportId} {next : Nanos}
      {e : WriteError} : h.tasks.get? id = some (.pushLoop t (.beating next)) →
      Step ⟨h, (id, .error e) :: es⟩ [] ⟨h.endLoop id t, es⟩

/-- Steps in a row, with their marks. -/
inductive Steps : Moment → List Mark → Moment → Prop
  | refl {m : Moment} : Steps m [] m
  | step {m m' m'' : Moment} {log log' : List Mark} : Step m log m' →
      Steps m' log' m'' → Steps m (log ++ log') m''

theorem Steps.trans {m m' m'' : Moment} {log log' : List Mark} (h : Steps m log m')
    (h' : Steps m' log' m'') : Steps m (log ++ log') m'' := by
  induction h with
  | refl => exact h'
  | step hs _ ih =>
    rw [List.append_assoc]
    exact .step hs (ih h')

theorem Step.one {m m' : Moment} {log : List Mark} (h : Step m log m') :
    Steps m log m' := by
  simpa using Steps.step h .refl

/-- A step without marks, and what comes after. -/
theorem Step.then {m m' m'' : Moment} {log : List Mark} (h : Step m [] m')
    (h' : Steps m' log m'') : Steps m log m'' := .step h h'

end Moment

open Moment (Step Steps)

/-! ## Writes -/

theorem deliver_step (h : Hub) (id : TaskId) (r : Transport.WriteResult) (es : Endings) :
    Step ⟨h, (id, r) :: es⟩ [] ⟨h.deliver id r, es⟩ := by
  unfold deliver
  split
  · next ht => exact .wrote r ht (.inl rfl) rfl
  · next ht => exact .wrote r ht (.inr rfl) rfl
  · next reply ht =>
    generalize hx : h.broker.pushed id r.toBool h.now = x
    obtain ⟨x | x, b⟩ := x
    · have pushed : Step ⟨h, (id, r) :: es⟩ [] _ := .pushed ht (by rw [hx])
      simpa only [hx] using pushed
    · have failed : Step ⟨h, (id, r) :: es⟩ [] _ := .failed ht (by rw [hx])
      simpa only [hx] using failed
  · next t ht =>
    by_cases hi : h.config.keepaliveInterval = 0
    · simpa only [hi, if_true] using Step.silenced r ht hi
    · simpa only [hi, if_false] using Step.greeted r ht hi
  · next t next ht =>
    cases r with
    | ok => exact .beaten ht
    | error e => exact .broken ht
  · next hw hp hc hg hb =>
    refine .unheard r hc fun t phase ht => ?_
    cases phase with
    | greeting => exact absurd ht (hg t)
    | beating next => exact absurd ht (hb t next)
    | resting next => exact ⟨next, rfl⟩

theorem deliverAll_steps (h : Hub) (es es' : Endings) :
    Steps ⟨h, es ++ es'⟩ [] ⟨h.deliverAll es, es'⟩ := by
  induction es generalizing h with
  | nil => exact .refl
  | cons e es ih => exact (deliver_step h e.1 e.2 (es ++ es')).then (ih (h.deliver e.1 e.2))

theorem settleTransport_steps {h : Hub} {t : TransportId} {state : Transport}
    (ht : h.transport? t = some state) : Steps ⟨h, []⟩ [] ⟨h.settleTransport t state, []⟩ := by
  have told := deliverAll_steps (h.putTransport t (state.settle h.now).1) (state.settle h.now).2 []
  rw [List.append_nil] at told
  exact Step.then (.moved ht) told

/-- A write to a transport that is not closed: the writer gets in line, and the transport moves. -/
theorem writeTo_eq {h : Hub} {t : TransportId} {state : Transport} (id : TaskId) (frame : String)
    (ht : h.transport? t = some state) (hc : state.closed = false) :
    h.writeTo id t frame =
      (h.putTransport t { state with line := state.line ++ [(id, frame)] }).settleTransport t
        { state with line := state.line ++ [(id, frame)] } := by
  simp [writeTo, ht, Transport.write, hc, settleTransport, putTransport, Table.set_set]

theorem isClosed_eq_false_iff {h : Hub} {t : TransportId} :
    h.isClosed t = false ↔ ∃ state, h.transport? t = some state ∧ state.closed = false := by
  cases ht : h.transport? t <;> simp [isClosed, ht]

/-! ## Commands -/

/-- A command is refused, or it is called over the transport of its editor and that moves. -/
theorem dispatch_eq {h : Hub} (hp : h.path = .streams) (reply : CommandReply) (o : Broker.Order) :
    (∃ e, (h.dispatch reply o).2 = h.refused reply e) ∨
    ∃ t state, h.sessions.transport? o.session = some t ∧ h.transport? t = some state ∧
      state.closed = false ∧
      (h.dispatch reply o).2 = (h.begun reply o t state).settleTransport t
        { state with line := state.line ++ [(h.nextTask, h.commandFrame o)] } := by
  let h₁ := (h.spawn (.command reply)).2
  rcases Broker.start_cases h₁.broker h.nextTask o (h₁.isReachable o.session) h₁.wall with
    ⟨e, hs⟩ | ⟨hr, hs⟩
  · refine .inl ⟨e, ?_⟩
    show h₁.sendCommand h.nextTask reply o = _
    rw [sendCommand, hs]
    rfl
  · have hr : h.isReachable o.session = true := hr
    rw [isReachable, hp] at hr
    cases ht : h.sessions.transport? o.session with
    | none => simp [ht] at hr
    | some t =>
      obtain ⟨state, hstate, hc⟩ : ∃ state, h.transport? t = some state ∧ state.closed = false := by
        simpa [ht, ← isClosed_eq_false_iff] using hr
      let h₂ := { h₁ with broker := h.broker.enroll h.nextTask o h.wall }
      have hd : (h.dispatch reply o).2 = h₂.writeTo h.nextTask t (h.commandFrame o) := by
        show h₁.sendCommand h.nextTask reply o = _
        have hp₁ : h₁.path = .streams := hp
        have ht₁ : h₁.sessions.transport? o.session = some t := ht
        rw [sendCommand, hs]
        simp only [hp₁, pushOver, ht₁]
        exact congrArg (fun path => { h₂ with path := path }.writeTo h.nextTask t (h.commandFrame o))
          hp.symm
      have hstate₂ : h₂.transport? t = some state := hstate
      refine .inr ⟨t, state, rfl, hstate, hc, ?_⟩
      rw [hd, writeTo_eq h.nextTask (h.commandFrame o) hstate₂ hc]
      rfl

theorem dispatch_cases {h : Hub} (hp : h.path = .streams) (reply : CommandReply)
    (o : Broker.Order) :
    (∃ e, (h.dispatch reply o).2 = h.refused reply e) ∨
    ∃ t state, h.sessions.transport? o.session = some t ∧ h.transport? t = some state ∧
      state.closed = false ∧
      Steps ⟨h.begun reply o t state, []⟩ [] ⟨(h.dispatch reply o).2, []⟩ := by
  rcases dispatch_eq hp reply o with hrefused | ⟨t, state, hbound, hstate, hc, heq⟩
  · exact .inl hrefused
  · refine .inr ⟨t, state, hbound, hstate, hc, ?_⟩
    rw [heq]
    exact settleTransport_steps (Table.get?_set_self ..)

theorem dispatch_steps {h : Hub} (hp : h.path = .streams) (reply : CommandReply)
    (o : Broker.Order) : Steps ⟨h, []⟩ [] ⟨(h.dispatch reply o).2, []⟩ := by
  rcases dispatch_cases hp reply o with ⟨e, he⟩ | ⟨t, state, hbound, ht, hc, hs⟩
  · rw [he]
    exact (Step.refused reply e).one
  · exact (Step.called reply o hbound ht hc).then hs

/-! ## Moves -/

theorem sweep_steps (h : Hub) (timeout : Nanos) :
    Steps ⟨h, []⟩ [] ⟨(h.sweep timeout).2, []⟩ := by
  unfold sweep
  generalize h.sessions.idle timeout h.now = idle
  induction idle generalizing h with
  | nil => exact .refl
  | cons session idle ih => exact Step.then (.ended session) (ih (h.endSession session).2)

theorem poll_steps {h h' : Hub} {id : TaskId} {task : Task} (ht : h.tasks.get? id = some task)
    (hm : h.poll? id task = some h') : Steps ⟨h, []⟩ [] ⟨h', []⟩ := by
  cases task with
  | write => cases hm
  | push => cases hm
  | closed t =>
    obtain ⟨-, hm⟩ := Option.ite_none_right_eq_some.1 hm
    cases hm
    exact (Step.watched ht ⟨t, .inl rfl⟩ rfl).one
  | disconnected t =>
    obtain ⟨-, hm⟩ := Option.ite_none_left_eq_some.1 hm
    cases hm
    exact (Step.watched ht ⟨t, .inr rfl⟩ rfl).one
  | command reply =>
    simp only [poll?] at hm
    generalize hx : h.broker.poll id h.now = x at hm
    obtain ⟨r | r, b⟩ := x
    · cases hm
    · cases hm
      have polled : Step ⟨h, []⟩ [] _ := .polled ht (by rw [hx])
      simpa only [hx] using polled.one
  | pushLoop t phase =>
    cases phase with
    | greeting => cases hm
    | beating next => cases hm
    | resting next =>
      simp only [poll?] at hm
      split_ifs at hm with hc hn
      · cases hm
        exact (Step.loopEnded ht).one
      · cases hm
        have hc : h.isClosed t = false := by simp at hc; exact hc.1
        obtain ⟨state, hstate, hc⟩ := isClosed_eq_false_iff.1 hc
        let h₁ := { h with
          tasks := h.tasks.set id (.pushLoop t (.beating (next + h.config.keepaliveInterval))) }
        have hstate₁ : h₁.transport? t = some state := hstate
        rw [writeTo_eq id _ hstate₁ hc]
        refine Step.then (.beat ht hstate hc) (settleTransport_steps ?_)
        exact Table.get?_set_self ..
  | sweeper timeout interval next =>
    obtain ⟨hdue, hm⟩ := Option.ite_none_right_eq_some.1 hm
    cases hm
    have hnow := now_sweep h timeout
    have rested : Step ⟨(h.sweep timeout).2, []⟩ [] _ :=
      .rested (tasks_sweep h timeout ▸ ht) (hnow ▸ hdue) fun s x hx => hnow ▸ seen_of_sweep hx
    simpa using (sweep_steps h timeout).trans rested.one

theorem move_steps {h h' : Hub} (hp : h.path = .streams) {m : Mover} (hm : h.move? m = some h') :
    Steps ⟨h, []⟩ [] ⟨h', []⟩ := by
  cases m with
  | transport t =>
    obtain ⟨state, ht, hs⟩ := Option.bind_eq_some_iff.1 hm
    obtain ⟨-, hs⟩ := Option.ite_none_right_eq_some.1 hs
    cases hs
    exact settleTransport_steps ht
  | loopback => simp [move?, arrival?, hp] at hm
  | task id =>
    obtain ⟨task, ht, hs⟩ := Option.bind_eq_some_iff.1 hm
    exact poll_steps ht hs

end EditorBridge.Hub
