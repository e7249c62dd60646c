import EditorBridge.Proofs.Hub.Commands
import EditorBridge.Proofs.Transport.Closing
/-!
# Who waits in which line

A frame gets in a line when a command is called or when a loop beats, and a loop
beats into the line of its own transport. So the writes that end when a
transport moves are those of commands that go there and of the loop behind it:
a transport that moves never ends the loop of another one.
-/

namespace EditorBridge.Hub

open Moment (Step Steps)
open Transport (Ended)

/-! ## Who gets in line -/

/-- A task waits for no transport. -/
def Idle (h : Hub) (k : TaskId) : Prop :=
  ∀ u state frame, h.transport? u = some state → (k, frame) ∉ state.waiting

theorem mem_linesOf {h : Hub} {u : TransportId} {state : Transport} {k : TaskId} {frame : String}
    (hu : h.transport? u = some state) : frame ∈ (h.linesOf u k).1 ↔ (k, frame) ∈ state.waiting := by
  rw [linesOf_of_transport? hu]
  exact mem_entriesOf

theorem idle_of_lines {h : Hub} {k : TaskId} (hlines : ∀ u, (h.linesOf u k).1 = []) :
    h.Idle k := by
  intro u state frame ht hw
  have queued := (mem_linesOf ht).2 hw
  rw [hlines] at queued
  cases queued

theorem mem_waiting_queue {state : Transport} {w e : TaskId × String} :
    e ∈ Transport.waiting { state with line := state.line ++ [w] } ↔ e ∈ state.waiting ∨ e = w := by
  have last : Transport.waiting { state with line := state.line ++ [w] } = state.waiting ++ [w] :=
    (List.append_assoc ..).symm
  rw [last, List.mem_append, List.mem_singleton]

/-- No loop has been started: each was there before, behind the same transport. -/
def NoNewLoops (tasks tasks' : Table TaskId Task) : Prop :=
  ∀ id t phase', tasks'.get? id = some (.pushLoop t phase') →
    ∃ phase, tasks.get? id = some (.pushLoop t phase)

namespace NoNewLoops

theorem refl (tasks : Table TaskId Task) : NoNewLoops tasks tasks := fun _ _ phase hid => ⟨phase, hid⟩

theorem trans {tasks tasks' tasks'' : Table TaskId Task} (h : NoNewLoops tasks tasks')
    (h' : NoNewLoops tasks' tasks'') : NoNewLoops tasks tasks'' := by
  intro id t phase'' hid
  obtain ⟨phase', hid'⟩ := h' id t phase'' hid
  exact h id t phase' hid'

theorem erase (tasks : Table TaskId Task) (k : TaskId) : NoNewLoops tasks (tasks.erase k) :=
  fun _ _ phase hid => ⟨phase, (Table.of_get?_erase hid).2⟩

/-- A task that is no loop comes or changes. -/
theorem other (tasks : Table TaskId Task) (k : TaskId) {task : Task}
    (hloop : ∀ t phase, task ≠ .pushLoop t phase) : NoNewLoops tasks (tasks.set k task) := by
  intro id t phase hid
  rcases Table.of_get?_set hid with ⟨-, he⟩ | ⟨-, hold⟩
  · exact absurd he (hloop t phase)
  · exact ⟨phase, hold⟩

/-- A loop goes on. -/
theorem same {tasks : Table TaskId Task} {k : TaskId} {u : TransportId} {phase : LoopPhase}
    (hk : tasks.get? k = some (.pushLoop u phase)) (phase' : LoopPhase) :
    NoNewLoops tasks (tasks.set k (.pushLoop u phase')) := by
  intro id t phase'' hid
  rcases Table.of_get?_set hid with ⟨rfl, he⟩ | ⟨-, hold⟩
  · cases he
    exact ⟨phase, hk⟩
  · exact ⟨phase'', hold⟩

end NoNewLoops

section Step

variable {m m' : Moment} {log : List Mark}

/-- Whoever waits for a transport waited there before, or is a command that has just been called, or
is the loop behind the transport. -/
theorem queued_step (hp : m.hub.path = .streams) (hs : Step m log m') {u : TransportId}
    {state' : Transport} {id : TaskId} {frame : String} (hu : m'.hub.transport? u = some state')
    (hw : (id, frame) ∈ state'.waiting) :
    (∃ state, m.hub.transport? u = some state ∧ (id, frame) ∈ state.waiting) ∨
    (id = m.hub.nextTask ∧ ∃ reply, m'.hub.tasks.get? id = some (.command reply)) ∨
    ∃ phase, m.hub.tasks.get? id = some (.pushLoop u phase) := by
  have shut {o : Option TransportId} (hset : m'.hub.transports = shutAny m.hub.transports o) :
      ∃ state, m.hub.transport? u = some state ∧ (id, frame) ∈ state.waiting := by
    rw [transport?, hset] at hu
    obtain ⟨state, hstate, rfl | rfl⟩ := of_get?_shutAny hu
    · exact ⟨state', hstate, hw⟩
    · exact ⟨state, hstate, hw⟩
  have set {t : TransportId} {state new : Transport} {P : Prop}
      (ht : m.hub.transport? t = some state) (hset : m'.hub.transports = m.hub.transports.set t new)
      (hnew : u = t → (id, frame) ∈ new.waiting → (id, frame) ∈ state.waiting ∨ P) :
      (∃ state, m.hub.transport? u = some state ∧ (id, frame) ∈ state.waiting) ∨ P := by
    rw [transport?, hset] at hu
    rcases Table.of_get?_set hu with ⟨rfl, rfl⟩ | ⟨-, hold⟩
    · exact (hnew rfl hw).imp_left fun hw => ⟨state, ht, hw⟩
    · exact .inl ⟨state', hold, hw⟩
  cases hs with
  | @ended h es session =>
    cases hx : h.sessions.get? session with
    | none =>
      rw [endSession_of_none hx] at hu
      exact .inl ⟨state', hu, hw⟩
    | some s => exact .inl (shut (o := s.transport) (by rw [endSession_eq hx]))
  | subscribed hx =>
    rw [startStream_eq hx] at hu
    rcases Table.of_get?_set hu with ⟨-, rfl⟩ | ⟨he, hold⟩
    · cases hw
    · obtain ⟨state, hstate, hsame⟩ := of_get?_shutAny hold
      rw [Table.get?_set_of_ne _ _ he] at hstate
      rcases hsame with rfl | rfl
      · exact .inl ⟨state', hstate, hw⟩
      · exact .inl ⟨state, hstate, hw⟩
  | @loopEnded h es id t => exact .inl (shut (o := some t) (by rw [endLoop_eq]; rfl))
  | @broken h es id t => exact .inl (shut (o := some t) (by rw [endLoop_eq]; rfl))
  | called reply o hbound ht =>
    refine set ht rfl fun _ hw => (mem_waiting_queue.1 hw).imp_right fun he => .inl ?_
    cases he
    exact ⟨rfl, reply, Table.get?_set_self ..⟩
  | beat hid ht =>
    refine set ht rfl fun hut hw => (mem_waiting_queue.1 hw).imp_right fun he => .inr ?_
    cases he
    exact ⟨_, hut ▸ hid⟩
  | read n ht => exact set ht rfl fun _ => .inl
  | deserted ht => exact set ht rfl fun _ => .inl
  | @moved h es t state ht =>
    obtain ⟨done, -, hd⟩ := Transport.settle_served h.now state
    exact set ht rfl fun _ hw => .inl (hd.waiting ▸ List.mem_append_right _ hw)
  | abandoned ht hc =>
    rw [abandon_eq hp ht hc] at hu
    simp only [transport?, Table.get?_mapValues] at hu
    obtain ⟨state, hstate, rfl⟩ := Option.map_eq_some_iff.1 hu
    rw [Transport.waiting_abandon] at hw
    exact .inl ⟨state, hstate, (List.mem_filter.1 hw).1⟩
  | _ => exact .inl ⟨state', hu, hw⟩

/-- A loop was there before with its transport, or it has just been started. -/
theorem loops_step (hp : m.hub.path = .streams) (hs : Step m log m') {id : TaskId}
    {v : TransportId} {phase' : LoopPhase}
    (hid : m'.hub.tasks.get? id = some (.pushLoop v phase')) :
    (∃ phase, m.hub.tasks.get? id = some (.pushLoop v phase)) ∨ id = m.hub.nextTask := by
  have old (hloops : NoNewLoops m.hub.tasks m'.hub.tasks) :
      (∃ phase, m.hub.tasks.get? id = some (.pushLoop v phase)) ∨ id = m.hub.nextTask :=
    .inl (hloops id v phase' hid)
  cases hs with
  | touched | stored | acked | ticked | answered | read | deserted | moved | unheard | pushed =>
    exact old (.refl _)
  | ended session => exact old (by rw [tasks_endSession]; exact .refl _)
  | @subscribed h es session s hx =>
    rw [startStream_eq hx] at hid
    by_cases he : id = h.nextTask
    · exact .inr he
    · exact .inl ⟨phase', (get?_greetedTasks h he _).symm.trans hid⟩
  | refused reply e =>
    exact old ((NoNewLoops.other _ _ fun _ _ he => by cases he).trans (.erase _ _))
  | called | sweeping | rested => exact old (.other _ _ fun _ _ he => by cases he)
  | beat hloop => exact old (.same hloop _)
  | greeted r hloop => exact old (.same hloop _)
  | beaten hloop => exact old (.same hloop _)
  | abandoned ht hc => exact old (by rw [abandon_eq hp ht hc]; exact .erase _ _)
  | loopEnded | broken => exact old (by rw [endLoop_eq]; exact .erase _ _)
  | watched | polled | wrote | failed | silenced => exact old (.erase _ _)

end Step

/-! ## Loops and their transports -/

/-- A loop waits for no other transport than its own, and nothing knows the numbers to come. -/
structure Homed (m : Moment) : Prop where
  bound : Bound m
  unused : ∀ n, m.hub.nextTask ≤ n → Unused m n
  home : ∀ {id v phase u state frame}, m.hub.tasks.get? id = some (.pushLoop v phase) →
    m.hub.transport? u = some state → (id, frame) ∈ state.waiting → v = u

theorem homed_step {m m' : Moment} {log : List Mark} (hp : m.hub.path = .streams) (h : Homed m)
    (hs : Step m log m') : Homed m' where
  bound := bound_step hp h.bound hs
  unused := unused_step hp h.bound h.unused hs
  home {id v phase' u state' frame} hid hu hw := by
    have known {task : Task} : m.hub.tasks.get? m.hub.nextTask ≠ some task := fun ht =>
      Nat.lt_irrefl _ (h.bound.taskFresh ht)
    rcases loops_step hp hs hid with ⟨phase, hold⟩ | rfl
    · rcases queued_step hp hs hu hw with ⟨state, ht, hw⟩ | ⟨rfl, -⟩ | ⟨phase, hloop⟩
      · exact h.home hold ht hw
      · exact absurd hold known
      · cases hold.symm.trans hloop
        rfl
    · rcases queued_step hp hs hu hw with ⟨state, ht, hw⟩ | ⟨-, reply, hcommand⟩ | ⟨phase, hloop⟩
      · have idle := idle_of_lines fun u => congrArg Prod.fst ((h.unused _ (Nat.le_refl _)).lines u)
        exact absurd hw (idle u state frame ht)
      · cases hid.symm.trans hcommand
      · exact absurd hloop known

theorem homed_new (config : Config) (ids : Nat → String) : Homed ⟨.new config ids, []⟩ :=
  ⟨bound_new config ids, fun n _ => unused_new config ids n, fun hid => by cases hid⟩

theorem homed_exec {h : Hub} (hp : h.path = .streams) (ht : h.tools = .standard)
    (hh : Homed ⟨h, []⟩) (actions : List Action) : Homed ⟨h.exec actions, []⟩ :=
  schedule_induction (P := Homed) hp ht hh (fun _ _ _ hp hm hs => homed_step hp hm hs) actions

/-! ## Where one may wait -/

/-- All transports have the span of the settings for their writes, and nobody has a turn where that
is empty. -/
def Patient (h : Hub) : Prop :=
  ∀ t state, h.transport? t = some state → state.Patient h.config.sseWriteTimeout

theorem Change.patient {h : Hub} {state state' : Transport} {limit : Nanos}
    (hs : state.Patient limit) (hc : Change h state state') : state'.Patient limit := by
  cases hc with
  | same | shut | queued | read | deserted => exact ⟨hs.span, hs.turn⟩
  | abandoned id =>
    refine ⟨hs.span, fun hturn => hs.turn fun hnone => hturn ?_⟩
    simp [Transport.abandon, hnone]
  | settled => exact Transport.settle_patient hs

theorem patient_step {m m' : Moment} {log : List Mark} (hp : m.hub.path = .streams)
    (h : m.hub.Patient) (hs : Step m log m') : m'.hub.Patient := by
  intro t state' ht
  obtain ⟨-, -, hconfig⟩ := (onward_step hp hs).setting
  rw [hconfig]
  cases transports_step hp hs ht with
  | fresh session loop he => exact he ▸ ⟨rfl, fun hturn => absurd rfl hturn⟩
  | old hold hc => exact hc.patient (h t _ hold)

theorem patient_exec {h : Hub} (hp : h.path = .streams) (ht : h.tools = .standard)
    (hpatient : h.Patient) (actions : List Action) : (h.exec actions).Patient :=
  schedule_induction (P := fun m => m.hub.Patient) hp ht hpatient
    (fun _ _ _ hp hm hs => patient_step hp hm hs) actions

/-- A bridge with its own tools, whose messages go over streams, in a state in which it can be. -/
structure Running (h : Hub) : Prop where
  path : h.path = .streams
  tools : h.tools = .standard
  homed : Homed ⟨h, []⟩
  patient : h.Patient

namespace Running

theorem new (config : Config) (ids : Nat → String) : (Hub.new config ids).Running :=
  ⟨rfl, rfl, homed_new config ids, fun _ _ ht => by cases ht⟩

theorem exec {h : Hub} (hr : h.Running) (actions : List Action) : (h.exec actions).Running := by
  obtain ⟨hp, ht, -⟩ := sameSetting_exec hr.path hr.tools actions
  exact ⟨hp.trans hr.path, ht.trans hr.tools, homed_exec hr.path hr.tools hr.homed actions,
    patient_exec hr.path hr.tools hr.patient actions⟩

theorem unused {h : Hub} (hr : h.Running) : Unused ⟨h, []⟩ h.nextTask :=
  hr.homed.unused _ (Nat.le_refl _)

/-- A stream stays that of its session. -/
theorem owner {h : Hub} (hr : h.Running) {s : String} {u : TransportId} {state : Transport}
    (hbound : h.sessions.transport? s = some u) (actions : List Action)
    (hstate : (h.exec actions).transport? u = some state) : state.session = s := by
  have stream : (s, u) ∈ h.streams := hr.homed.bound.streams.2 (hr.homed.bound.bound hbound)
  have later : (s, u) ∈ (h.exec actions).streams :=
    ((answers_exec hr.path hr.tools actions).filterMap _).subset stream
  obtain ⟨state', hstate', hsession⟩ := (hr.exec actions).homed.bound.streams.1 later
  cases hstate.symm.trans hstate'
  exact hsession

end Running

namespace Command

variable {q : Command} {log log' : List Mark} {m m' : Moment}

theorem Stage.old (hq : q.Stage log m) : q.task < m.hub.nextTask := by
  rcases hq with hw | ⟨taken, answers, ho⟩
  · exact hw.old
  · exact ho.spent.old

theorem Stage.not_loop (hq : q.Stage log m) (u : TransportId) (phase : LoopPhase) :
    m.hub.tasks.get? q.task ≠ some (.pushLoop u phase) := by
  intro hloop
  rcases hq with hw | ⟨taken, answers, ho⟩
  · cases hw.task.symm.trans hloop
  · cases ho.spent.task.symm.trans hloop

/-- A command whose frame waits no more does not wait again. -/
theorem Stage.idle_step (hp : m.hub.path = .streams) (hq : q.Stage log m) (hs : Step m log' m')
    (hidle : m.hub.Idle q.task) : m'.hub.Idle q.task := by
  intro u state' frame hu hw
  rcases queued_step hp hs hu hw with ⟨state, ht, hw⟩ | ⟨he, -⟩ | ⟨phase, hloop⟩
  · exact hidle u state frame ht hw
  · exact Nat.lt_irrefl _ (he ▸ hq.old)
  · exact hq.not_loop u phase hloop

/-- Where a command that waits for a transport is. -/
theorem Stage.waiting {h : Hub} {u : TransportId} {state : Transport}
    {frame : String} (hq : q.Stage log ⟨h, []⟩) (hu : h.transport? u = some state)
    (hw : (q.task, frame) ∈ state.waiting) :
    u = q.target ∧ (state.linesOf q.task).2 = [] := by
  have queued : (h.linesOf u q.task).1 ≠ [] := List.ne_nil_of_mem ((mem_linesOf hu).2 hw)
  rcases hq with hwaits | ⟨taken, answers, ho⟩
  · by_cases htarget : u = q.target
    · subst htarget
      refine ⟨rfl, ?_⟩
      obtain ⟨c, hc⟩ := hwaits.call
      have place : q.At (h.linesOf q.target q.task) [] c.phase := hc.place
      rw [linesOf_of_transport? hu] at place queued
      generalize state.linesOf q.task = lines at place queued ⊢
      generalize c.phase = phase at place
      cases place with
      | pushing => rfl
      | awaiting => exact absurd rfl queued
    · exact absurd (congrArg Prod.fst (hwaits.elsewhere u htarget)) queued
  · exact absurd (congrArg Prod.fst (ho.spent.lines u)) queued

/-- What a command has on a stream: at most its frame, on its target. -/
theorem Stage.lines {h : Hub} (hq : q.Stage log ⟨h, []⟩)
    (v : TransportId) : (h.linesOf v q.task).2 ++ (h.linesOf v q.task).1 = [] ∨
      v = q.target ∧ (h.linesOf v q.task).2 ++ (h.linesOf v q.task).1 = [q.frame] := by
  rcases hq with hwaits | ⟨taken, answers, ho⟩
  · by_cases hv : v = q.target
    · subst hv
      obtain ⟨c, hc⟩ := hwaits.call
      have place : q.At (h.linesOf q.target q.task) [] c.phase := hc.place
      generalize h.linesOf q.target q.task = lines at place ⊢
      generalize c.phase = phase at place
      cases place with
      | pushing => exact .inr ⟨rfl, rfl⟩
      | awaiting => exact .inr ⟨rfl, rfl⟩
    · have none : h.linesOf v q.task = ([], []) := hwaits.elsewhere v hv
      exact .inl (by rw [none]; rfl)
  · have lines : h.linesOf v q.task = ([], taken v) := ho.spent.lines v
    simp only [lines, List.append_nil]
    by_cases hv : v = q.target
    · subst hv
      exact ho.here.imp_right fun hframe => ⟨rfl, hframe⟩
    · exact .inl (ho.elsewhere v hv)

theorem Stage.task (hq : q.Stage log m) :
    m.hub.tasks.get? q.task = none ∨ ∃ reply, m.hub.tasks.get? q.task = some (.command reply) := by
  rcases hq with hwaits | ⟨taken, answers, ho⟩
  · exact .inr ⟨_, hwaits.task⟩
  · exact .inl ho.spent.task

end Command

/-- A command after a schedule. -/
theorem Command.Stage.exec {q : Command} {h : Hub} (hr : h.Running) (hq : q.Stage [] ⟨h, []⟩)
    (actions : List Action) : (∃ log, q.Stage log ⟨h.exec actions, []⟩) ∧
      (h.Idle q.task → (h.exec actions).Idle q.task) := by
  obtain ⟨log, hlog, -⟩ := exec_steps hr.path hr.tools actions
  let P (log : List Mark) (m : Moment) : Prop :=
    Bound m ∧ q.Stage log m ∧ (h.Idle q.task → m.hub.Idle q.task)
  have hP : P ([] ++ log) ⟨h.exec actions, []⟩ := by
    refine steps_induction (P := P) (fun m m' log log' hp hm hs => ?_) [] hlog hr.path
      ⟨hr.homed.bound, hq, fun h => h⟩
    obtain ⟨hb, hq, hidle⟩ := hm
    exact ⟨bound_step hp hb hs, stage_step hp hb hq hs, fun h => hq.idle_step hp hs (hidle h)⟩
  exact ⟨⟨_, hP.2.1⟩, hP.2.2⟩

/-! ## Telling changes no line -/

/-- What it does to a bridge to tell a task how its write ended. -/
inductive Told (h : Hub) (id : TaskId) (r : Transport.WriteResult) : Hub → Prop
  | calm {h' : Hub} : h'.sessions = h.sessions → h'.snapshots = h.snapshots →
      h'.transports = h.transports → NoNewLoops h.tasks h'.tasks → Told h id r h'
  | ended {t : TransportId} {next : Nanos} :
      h.tasks.get? id = some (.pushLoop t (.beating next)) → r ≠ .ok () →
      Told h id r (h.endLoop id t)

theorem deliver_told (h : Hub) (id : TaskId) (r : Transport.WriteResult) :
    Told h id r (h.deliver id r) := by
  unfold deliver
  split
  · exact .calm rfl rfl rfl (.erase _ _)
  · exact .calm rfl rfl rfl (.erase _ _)
  · dsimp only
    split
    · exact .calm rfl rfl rfl (.erase _ _)
    · exact .calm rfl rfl rfl (.refl _)
  · next hid =>
    dsimp only
    split_ifs
    · exact .calm rfl rfl rfl (.erase _ _)
    · exact .calm rfl rfl rfl (.same hid _)
  · next hid =>
    split
    · exact .calm rfl rfl rfl (.same hid _)
    · exact .ended hid Transport.error_ne_ok
  · exact .calm rfl rfl rfl (.refl _)

theorem linesOf_deliverAll (h : Hub) (es : Transport.Endings) (u : TransportId) (k : TaskId) :
    (h.deliverAll es).linesOf u k = h.linesOf u k := by
  induction es generalizing h with
  | nil => rfl
  | cons e es ih =>
    refine (ih (h.deliver e.1 e.2)).trans ?_
    have told := deliver_told h e.1 e.2
    generalize h.deliver e.1 e.2 = h' at told
    cases told with
    | calm _ _ htransports => exact linesOf_congr (by rw [transport?, htransports]; rfl)
    | @ended t next =>
      rw [endLoop_eq]
      exact linesOf_shutAny (o := some t) rfl u

/-- Where no write failed, nothing is closed. -/
theorem transports_deliverAll {h : Hub} {es : Transport.Endings} (hok : ∀ e ∈ es, e.2 = .ok ()) :
    (h.deliverAll es).transports = h.transports := by
  induction es generalizing h with
  | nil => rfl
  | cons e es ih =>
    obtain ⟨he, hes⟩ := List.forall_mem_cons.1 hok
    have told := deliver_told h e.1 e.2
    have later := ih (h := h.deliver e.1 e.2) hes
    refine later.trans ?_
    generalize h.deliver e.1 e.2 = h' at told
    cases told with
    | calm _ _ htransports => exact htransports
    | ended _ hfailed => exact absurd he hfailed

/-- A transport that closes keeps nobody waiting, so a frame that it has not taken is lost. -/
theorem linesOf_settle_of_closed {state : Transport} {now : Nanos} {k : TaskId}
    (hopen : state.closed = false) (hc : (state.settle now).1.closed = true)
    (hlost : (k, .ok ()) ∉ (state.settle now).2) :
    (state.settle now).1.linesOf k = ([], (state.linesOf k).2) := by
  have flushed : state.Flushed := fun h => by cases hopen.symm.trans h
  have empty : (state.settle now).1.waiting = [] := Transport.settle_flushed now flushed hc
  obtain ⟨done, hendings, -, hsent⟩ := Transport.settle_linesOf now state k
  have nothing : done.filterMap Ended.frame? = [] := by
    refine List.filterMap_eq_nil_iff.2 fun e he => ?_
    have hresult : e.result ∈ entriesOf k (state.settle now).2 :=
      hendings ▸ List.mem_map_of_mem he
    cases hr : e.result with
    | error e' => simp [Ended.frame?, hr]
    | ok => exact absurd (mem_entriesOf.1 (hr ▸ hresult)) hlost
  refine Prod.ext ?_ ?_
  · simp [Transport.linesOf, empty]
  · rw [hsent, nothing, List.append_nil]

/-- A transport that moves is closed only if the frame of a writer is lost. -/
theorem settleTransport_loses {h : Hub} {u : TransportId} {state : Transport} {k : TaskId}
    (hopen : state.closed = false)
    (hlost : (state.settle h.now).1.closed = true → (k, .ok ()) ∉ (state.settle h.now).2)
    (hc : (h.settleTransport u state).isClosed u = true) :
    (h.settleTransport u state).linesOf u k = ([], (state.linesOf k).2) := by
  have here : (h.putTransport u (state.settle h.now).1).transport? u =
      some (state.settle h.now).1 := transport?_putTransport_self ..
  cases hclosed : (state.settle h.now).1.closed with
  | true =>
    have told : (h.settleTransport u state).linesOf u k =
        (h.putTransport u (state.settle h.now).1).linesOf u k := linesOf_deliverAll ..
    rw [told, linesOf_of_transport? here]
    exact linesOf_settle_of_closed hopen hclosed (hlost hclosed)
  | false =>
    have told : (h.settleTransport u state).transports =
        (h.putTransport u (state.settle h.now).1).transports :=
      transports_deliverAll (Transport.settle_ok hclosed)
    have still : (h.settleTransport u state).transport? u = some (state.settle h.now).1 := by
      rw [transport?, told]
      exact here
    simp [isClosed, still, hclosed] at hc

/-- Whoever still waits for a transport that has moved may wait. -/
theorem patient_of_settleTransport {h : Hub} {u : TransportId} {state : Transport} {k : TaskId}
    {limit : Nanos} (hp : state.Patient limit)
    (hw : ((h.settleTransport u state).linesOf u k).1 ≠ []) : limit ≠ 0 := by
  have here : (h.putTransport u (state.settle h.now).1).transport? u =
      some (state.settle h.now).1 := transport?_putTransport_self ..
  have told : (h.settleTransport u state).linesOf u k =
      (h.putTransport u (state.settle h.now).1).linesOf u k := linesOf_deliverAll ..
  rw [told, linesOf_of_transport? here] at hw
  have settled : Transport.Patient limit (state.settle h.now).1 := Transport.settle_patient hp
  refine settled.turn fun hturn => hw ?_
  have empty : (state.settle h.now).1.waiting = [] := Transport.settle_waiting hturn
  simp [Transport.linesOf, empty]

end EditorBridge.Hub
