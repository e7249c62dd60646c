import EditorBridge.Proofs.Hub.Effect
import EditorBridge.Proofs.Hub.Lines
/-!
# What moves on one stream

The frame of a command moves on one stream, and whatever it does there the
session of the stream is the only one that can tell: its stream gets the frame,
or it is closed and unbound because the frame is lost. What a command does to
another session is that nothing of it has changed.
-/

namespace EditorBridge.Hub

open Moment (Step)
open Transport (Endings)

/-! ## What is left alone -/

/-- Nothing of a session has changed: its own state, its snapshot, its streams. -/
structure Untouched (t : String) (h h' : Hub) : Prop where
  session : h'.sessions.get? t = h.sessions.get? t
  snapshot : h'.snapshots.entries.get? t = h.snapshots.entries.get? t
  streams : ∀ {u state}, state.session = t →
    (h'.transport? u = some state ↔ h.transport? u = some state)

/-- A stream is closed, and the frame that a task had for it has neither been taken nor waits. -/
structure Breaks (u : TransportId) (k : TaskId) (h h' : Hub) : Prop where
  before : h.isClosed u = false
  after : h'.isClosed u = true
  lost : h'.linesOf u k = ([], [])

/-- A task has reached one stream of a session. The stream has got no frame but that of the task; it
is closed, and unbound, only if that frame is lost; and nothing else of the session has changed. -/
structure Reached (t : String) (u : TransportId) (k : TaskId) (h h' : Hub) : Prop where
  session : h'.sessions.get? t = h.sessions.get? t ∨ Breaks u k h h' ∧
    ∃ x, h.sessions.get? t = some x ∧ x.transport = some u ∧
      h'.sessions.get? t = some { x with transport := none }
  snapshot : h'.snapshots.entries.get? t = h.snapshots.entries.get? t
  streams : ∀ {v state}, v ≠ u → state.session = t →
    (h'.transport? v = some state ↔ h.transport? v = some state)
  closed : h'.isClosed u = h.isClosed u ∨ Breaks u k h h'
  frames : ∀ {state'}, h'.transport? u = some state' → ∃ state, h.transport? u = some state ∧
    state'.session = state.session ∧
    ∀ e ∈ state'.sent ++ state'.waiting, e.1 = k ∨ e ∈ state.sent ++ state.waiting

namespace Untouched

variable {t : String} {h h' h'' : Hub}

theorem refl (t : String) (h : Hub) : Untouched t h h := ⟨rfl, rfl, fun _ => .rfl⟩

theorem trans (hu : Untouched t h h') (hu' : Untouched t h' h'') : Untouched t h h'' where
  session := hu'.session.trans hu.session
  snapshot := hu'.snapshot.trans hu.snapshot
  streams hs := (hu'.streams hs).trans (hu.streams hs)

theorem same (hsession : h'.sessions.get? t = h.sessions.get? t)
    (hsnapshot : h'.snapshots.entries.get? t = h.snapshots.entries.get? t)
    (htransports : h'.transports = h.transports) : Untouched t h h' :=
  ⟨hsession, hsnapshot, fun {u _} _ => by rw [transport?, htransports]; rfl⟩

theorem answered (a : Answer) : Untouched t h (h.answered a).2 := .same rfl rfl rfl

theorem seen {s : String} (hne : t ≠ s) (x : Session) : Untouched t h (h.seen s x) :=
  .same (Table.get?_set_of_ne _ _ hne) rfl rfl

/-- A transport of another session may be closed. -/
theorem shutAny {o : Option TransportId} (hsession : h'.sessions.get? t = h.sessions.get? t)
    (hsnapshot : h'.snapshots.entries.get? t = h.snapshots.entries.get? t)
    (hother : ∀ {u state}, o = some u → h.transport? u = some state → state.session ≠ t)
    (htransports : h'.transports = Hub.shutAny h.transports o) : Untouched t h h' := by
  refine ⟨hsession, hsnapshot, fun {u state} hs => ?_⟩
  rw [transport?, htransports, get?_shutAny]
  split_ifs with ho
  · constructor
    · intro hshut
      obtain ⟨state₀, hstate, rfl⟩ := Option.map_eq_some_iff.1 hshut
      have other : state₀.session ≠ t := hother ho hstate
      exact absurd hs other
    · exact fun hstate => absurd hs (hother ho hstate)
  · exact .rfl

end Untouched

/-! ## What moves on one stream -/

/-- What changes while one transport moves on behalf of a task: nothing of the others, and of the
sessions only a binding to it. -/
structure Onto (u : TransportId) (k : TaskId) (h h' : Hub) : Prop where
  snapshots : h'.snapshots = h.snapshots
  sessions : ∀ s, h'.sessions.get? s = h.sessions.get? s ∨ h'.isClosed u = true ∧
    ∃ x, h.sessions.get? s = some x ∧ x.transport = some u ∧
      h'.sessions.get? s = some { x with transport := none }
  elsewhere : ∀ {v}, v ≠ u → h'.transport? v = h.transport? v
  here : ∀ {state'}, h'.transport? u = some state' → ∃ state, h.transport? u = some state ∧
    state'.session = state.session ∧ (state.closed = true → state'.closed = true) ∧
    ∀ e ∈ state'.sent ++ state'.waiting, e.1 = k ∨ e ∈ state.sent ++ state.waiting
  loops : NoNewLoops h.tasks h'.tasks

namespace Onto

variable {u : TransportId} {k : TaskId} {h h' h'' : Hub}

theorem closed (ho : Onto u k h h') (hc : h.isClosed u = true) : h'.isClosed u = true := by
  cases hu : h'.transport? u with
  | none => simp [isClosed, hu]
  | some state' =>
    obtain ⟨state, hstate, -, hclosed, -⟩ := ho.here hu
    simp only [isClosed, hstate, hu, Option.map_some, Option.getD_some] at hc ⊢
    exact hclosed hc

theorem calm (hsessions : h'.sessions = h.sessions) (hsnapshots : h'.snapshots = h.snapshots)
    (htransports : h'.transports = h.transports) (hloops : NoNewLoops h.tasks h'.tasks) :
    Onto u k h h' where
  snapshots := hsnapshots
  sessions s := .inl (by rw [hsessions])
  elsewhere {v} _ := by rw [transport?, htransports]; rfl
  here {state'} hu := by
    rw [transport?, htransports] at hu
    exact ⟨state', hu, rfl, id, fun e he => .inr he⟩
  loops := hloops

theorem trans (ho : Onto u k h h') (ho' : Onto u k h' h'') : Onto u k h h'' where
  snapshots := ho'.snapshots.trans ho.snapshots
  sessions s := by
    rcases ho.sessions s with hsame | ⟨hc, x, hx, hbound, hcleared⟩
    · rw [← hsame]
      exact ho'.sessions s
    · rcases ho'.sessions s with hsame' | ⟨-, x', hx', hbound', -⟩
      · exact .inr ⟨ho'.closed hc, x, hx, hbound, hsame'.trans hcleared⟩
      · cases hcleared.symm.trans hx'
        cases hbound'
  elsewhere hv := (ho'.elsewhere hv).trans (ho.elsewhere hv)
  here hu := by
    obtain ⟨state', hu', hsession', hclosed', hframes'⟩ := ho'.here hu
    obtain ⟨state, hstate, hsession, hclosed, hframes⟩ := ho.here hu'
    refine ⟨state, hstate, hsession'.trans hsession, fun hc => hclosed' (hclosed hc), fun e he => ?_⟩
    rcases hframes' e he with hk | he'
    · exact .inl hk
    · exact hframes e he'
  loops := ho.loops.trans ho'.loops

/-- The loop behind a stream ends. -/
theorem endLoop (h : Hub) (k id : TaskId) (u : TransportId) : Onto u k h (h.endLoop id u) := by
  have transports : (h.endLoop id u).transports = h.transports.modify u shut := by rw [endLoop_eq]
  refine ⟨by rw [endLoop_eq], fun s => ?_, fun {v} hv => ?_, fun {state'} hu => ?_, ?_⟩
  · have gone : (h.endLoop id u).isClosed u = true := by
      simp only [isClosed, transport?, transports, Table.get?_modify, if_true]
      cases h.transports.get? u <;> rfl
    have cleared : (h.endLoop id u).sessions = (h.sessions.clearTransport
        (((h.transport? u).map (·.session)).getD "") u).2 := by rw [endLoop_eq]
    rw [cleared]
    generalize ((h.transport? u).map (·.session)).getD "" = owner
    unfold Sessions.clearTransport
    split_ifs with hbound
    · obtain ⟨x, hx, hxu⟩ := Option.bind_eq_some_iff.1 hbound
      simp only [Sessions.update, Table.get?_modify]
      split_ifs with he
      · subst he
        exact .inr ⟨gone, x, hx, hxu, by rw [hx]; rfl⟩
      · exact .inl rfl
    · exact .inl rfl
  · rw [transport?, transports, Table.get?_modify, if_neg hv]
    rfl
  · rw [transport?, transports, Table.get?_modify, if_pos rfl] at hu
    obtain ⟨state, hstate, rfl⟩ := Option.map_eq_some_iff.1 hu
    exact ⟨state, hstate, rfl, fun _ => rfl, fun e he => .inr he⟩
  · rw [endLoop_eq]
    exact .erase _ _

theorem deliverAll {es : Endings} (hhome : ∀ {w r v phase}, (w, r) ∈ es →
    h.tasks.get? w = some (.pushLoop v phase) → v = u) : Onto u k h (h.deliverAll es) := by
  induction es generalizing h with
  | nil => exact .calm rfl rfl rfl (.refl _)
  | cons e es ih =>
    have first : Onto u k h (h.deliver e.1 e.2) := by
      have told := deliver_told h e.1 e.2
      generalize h.deliver e.1 e.2 = h' at told
      cases told with
      | calm hsessions hsnapshots htransports hloops =>
        exact .calm hsessions hsnapshots htransports hloops
      | ended hloop =>
        -- only a loop that waits here is told of a failure, and it is the one behind this stream
        cases hhome List.mem_cons_self hloop
        exact .endLoop h k e.1 _
    refine first.trans (ih fun hmem hw => ?_)
    obtain ⟨phase, hold⟩ := first.loops _ _ _ hw
    exact hhome (List.mem_cons_of_mem _ hmem) hold

/-- A transport moves, and the tasks are told, of which only its own loop is one. -/
theorem settle {state : Transport} (hu : h.transport? u = some state)
    (hhome : ∀ {w frame v phase}, (w, frame) ∈ state.waiting →
      h.tasks.get? w = some (.pushLoop v phase) → v = u) :
    Onto u k h (h.settleTransport u state) := by
  let moved := h.putTransport u (state.settle h.now).1
  have move : Onto u k h moved := by
    refine ⟨rfl, fun _ => .inl rfl, fun hv => Table.get?_set_of_ne _ _ hv, fun {state'} hu' => ?_,
      (.refl _)⟩
    obtain ⟨done, -, hd⟩ := Transport.settle_served h.now state
    cases (transport?_putTransport_self h u (state.settle h.now).1).symm.trans hu'
    exact ⟨state, hu, hd.session, hd.closed, fun e he => .inr (hd.frames e he)⟩
  have told : Onto u k moved (moved.deliverAll (state.settle h.now).2) := by
    refine .deliverAll fun hmem hw => ?_
    obtain ⟨frame, hwaiting⟩ := Transport.mem_waiting_of_mem_settle hmem
    exact hhome hwaiting hw
  exact move.trans told

/-- A session whose stream it is not stays as it is. -/
theorem untouched {t : String} (hb : Bound ⟨h, []⟩) (ho : Onto u k h h')
    (hother : ∀ {state}, h.transport? u = some state → state.session ≠ t) : Untouched t h h' where
  session := by
    rcases ho.sessions t with hsame | ⟨-, x, hx, hbound, -⟩
    · exact hsame
    · obtain ⟨state, hstate, hsession⟩ := hb.bound ((Sessions.transport?_of_get? hx).trans hbound)
      exact absurd hsession (hother hstate)
  snapshot := by rw [ho.snapshots]
  streams {v state} hs := by
    by_cases hv : v = u
    · subst hv
      constructor
      · intro hu
        obtain ⟨state₀, hstate, hsession, -⟩ := ho.here hu
        exact absurd (hsession.symm.trans hs) (hother hstate)
      · exact fun hu => absurd hs (hother hu)
    · rw [ho.elsewhere hv]

end Onto

/-- What moves on one stream on behalf of a task, and closes and unbinds it only if the frame of the
task is lost. -/
structure Lands (u : TransportId) (k : TaskId) (h h' : Hub) : Prop extends Onto u k h h' where
  unbinds : ∀ s, h'.sessions.get? s = h.sessions.get? s ∨ h.isClosed u = false
  lost : h.isClosed u = false → h'.isClosed u = true → h'.linesOf u k = ([], [])

theorem Lands.reached {u : TransportId} {k : TaskId} {h h' : Hub} (hl : Lands u k h h')
    (t : String) : Reached t u k h h' where
  session := by
    rcases hl.sessions t with hsame | ⟨hc, hcleared⟩
    · exact .inl hsame
    · exact (hl.unbinds t).imp_right fun before => ⟨⟨before, hc, hl.lost before hc⟩, hcleared⟩
  snapshot := by rw [hl.snapshots]
  streams hv _ := by rw [hl.elsewhere hv]
  closed := by
    cases hc : h.isClosed u with
    | true => exact .inl (hl.toOnto.closed hc)
    | false =>
      cases hc' : h'.isClosed u with
      | false => exact .inl rfl
      | true => exact .inr ⟨hc, hc', hl.lost hc hc'⟩
  frames hu := by
    obtain ⟨state, hstate, hsession, -, hframes⟩ := hl.here hu
    exact ⟨state, hstate, hsession, hframes⟩

/-- Before the task reached the stream, the session may have been seen not to change. -/
theorem Reached.of_untouched {t : String} {u : TransportId} {k : TaskId} {h g h' : Hub}
    (hu : Untouched t h g) (htransports : g.transports = h.transports) (hr : Reached t u k g h') :
    Reached t u k h h' := by
  have transport (v : TransportId) : g.transport? v = h.transport? v := by
    rw [transport?, htransports]
    rfl
  have isClosed : g.isClosed u = h.isClosed u := by rw [Hub.isClosed, transport]; rfl
  have breaks (hb : Breaks u k g h') : Breaks u k h h' := ⟨isClosed ▸ hb.before, hb.after, hb.lost⟩
  refine ⟨?_, hr.snapshot.trans hu.snapshot, fun hv hs => ?_, ?_, fun hstate => ?_⟩
  · rw [← hu.session]
    exact hr.session.imp_right (And.imp_left breaks)
  · rw [← transport]
    exact hr.streams hv hs
  · rw [← isClosed]
    exact hr.closed.imp_right breaks
  · rw [← transport]
    exact hr.frames hstate

variable {h : Hub}

/-! ## How a command moves -/

/-- A command is called, and its frame gets in line. -/
theorem begun_lands (hp : h.path = .streams) (hh : Homed ⟨h, []⟩) (reply : CommandReply)
    {o : Broker.Order} {u : TransportId} {state : Transport}
    (hbound : h.sessions.transport? o.session = some u) (hstate : h.transport? u = some state)
    (hopen : state.closed = false) : Lands u h.nextTask h
      ((h.begun reply o u state).settleTransport u
        { state with line := state.line ++ [(h.nextTask, h.commandFrame o)] }) := by
  let queued := { state with line := state.line ++ [(h.nextTask, h.commandFrame o)] }
  have called : Step ⟨h, []⟩ [] ⟨h.begun reply o u state, []⟩ := .called reply o hbound hstate hopen
  have hbegun := homed_step (m := ⟨h, []⟩) hp hh called
  have here : (h.begun reply o u state).transport? u = some queued := Table.get?_set_self ..
  have unused := hh.unused h.nextTask (Nat.le_refl _)
  have first : Onto u h.nextTask h (h.begun reply o u state) := by
    refine ⟨rfl, fun _ => .inl rfl, fun hv => Table.get?_set_of_ne _ _ hv, fun {state'} hu => ?_,
      .other _ _ fun _ _ he => by cases he⟩
    cases here.symm.trans hu
    refine ⟨state, hstate, rfl, id, fun e he => ?_⟩
    rcases List.mem_append.1 he with he | he
    · exact .inr (List.mem_append_left _ he)
    · rcases mem_waiting_queue.1 he with he | rfl
      · exact .inr (List.mem_append_right _ he)
      · exact .inl rfl
  refine ⟨first.trans (.settle here fun hw hloop => hbegun.home hloop here hw),
    fun _ => .inr (by simp [isClosed, hstate, hopen]), fun _ hc => ?_⟩
  have fresh : ∀ f, (h.nextTask, f) ∉ state.waiting :=
    fun f => idle_of_lines (fun v => congrArg Prod.fst (unused.lines v)) u state f hstate
  have nothing : (queued.linesOf h.nextTask).2 = [] := by
    have lines := unused.lines u
    rw [linesOf_of_transport? hstate] at lines
    exact congrArg Prod.snd lines
  have lost : ((h.begun reply o u state).settleTransport u queued).linesOf u h.nextTask =
      ([], (queued.linesOf h.nextTask).2) :=
    settleTransport_loses hopen (fun hclosed => Transport.settle_last hopen fresh hclosed) hc
  rw [nothing] at lost
  exact lost

/-- Later the transport moves for which the command waits. -/
theorem served_lands {u : TransportId} {state : Transport} {k : TaskId} {frame : String}
    (hh : Homed ⟨h, []⟩) (hu : h.transport? u = some state) (hw : (k, frame) ∈ state.waiting)
    (hpatient : state.writeTimeout ≠ 0) (hsent : (state.linesOf k).2 = []) :
    Lands u k h (h.act (.move (.transport u))) := by
  by_cases hrestless : state.restless h.now = true
  · have moved : h.act (.move (.transport u)) = h.settleTransport u state := by
      simp [act, move?, hu, hrestless]
    rw [moved]
    have onto : Onto u k h (h.settleTransport u state) :=
      .settle hu fun hw hloop => hh.home hloop hu hw
    refine ⟨onto, fun s => ?_, fun hopen hc => ?_⟩
    · cases hc : h.isClosed u with
      | false => exact .inr rfl
      | true =>
        refine .inl ((onto.sessions s).resolve_right ?_)
        rintro ⟨-, x, hx, hbound, -⟩
        have hbound := (Sessions.transport?_of_get? hx).trans hbound
        have hclosed : state.closed = true := by simpa [isClosed, hu] using hc
        have empty : state.waiting = [] := hh.bound.flushed hbound hu hclosed
        rw [empty] at hw
        cases hw
    · have hopen : state.closed = false := by simpa [isClosed, hu] using hopen
      have lost : (h.settleTransport u state).linesOf u k = ([], (state.linesOf k).2) :=
        settleTransport_loses hopen
          (fun hclosed hok => Transport.settle_lost hopen hpatient hclosed _ hok rfl) hc
      rw [hsent] at lost
      exact lost
  · have still : h.act (.move (.transport u)) = h := by
      simp [act, move?, hu, hrestless]
    rw [still]
    refine ⟨.calm rfl rfl rfl (.refl _), fun _ => .inl rfl, fun hopen hc => ?_⟩
    cases hopen.symm.trans hc

theorem act_task_of_none {h : Hub} {k : TaskId} (hk : h.tasks.get? k = none) :
    h.act (.move (.task k)) = h := by
  simp [act, move?, hk]

/-- Later the command looks for its acknowledgement, if it still waits for it. -/
theorem polled_lands (u : TransportId) {k : TaskId}
    (hk : h.tasks.get? k = none ∨ ∃ reply, h.tasks.get? k = some (.command reply)) :
    Lands u k h (h.act (.move (.task k))) := by
  have calm {h' : Hub} (hsessions : h'.sessions = h.sessions)
      (hsnapshots : h'.snapshots = h.snapshots) (htransports : h'.transports = h.transports)
      (hloops : NoNewLoops h.tasks h'.tasks) : Lands u k h h' := by
    refine ⟨.calm hsessions hsnapshots htransports hloops, fun s => .inl (by rw [hsessions]),
      fun hopen hc => ?_⟩
    rw [isClosed, transport?, htransports] at hc
    cases hopen.symm.trans hc
  rcases hk with hnone | ⟨reply, hk⟩
  · rw [act_task_of_none hnone]
    exact calm rfl rfl rfl (.refl _)
  · simp only [act, move?, hk, Option.bind_some, poll?]
    split
    · exact calm rfl rfl rfl (.erase _ _)
    · exact calm rfl rfl rfl (.refl _)

end EditorBridge.Hub
