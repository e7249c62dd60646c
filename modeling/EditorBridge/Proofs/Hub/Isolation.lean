import EditorBridge.Proofs.Hub.Landing
/-!
# Sessions keep apart

A request is about the session that it names, or about the one that its
handshake goes to. What it does until it is answered leaves every other session
alone, with its snapshot and its streams, but for one case: a command goes to
the session with the latest snapshot. Its stream takes the frame of the command,
and if it cannot, it is closed and unbound.
-/

namespace EditorBridge.Hub

open Http (Request sessionHeader)
open Moment (Step)

/-! ## The steps of a request -/

/-- A request is about a session: it names it, or it is a handshake that goes to it. -/
def Concerns (h : Hub) (r : Request) (s : String) : Prop :=
  r.value? sessionHeader = some s ∨ ∃ q, h.Greets r q ∧ (h.handshakeSession r).1 = s

/-- A call of a tool is about its caller alone. -/
theorem Concerns.caller {h : Hub} {r : Request} {s : String} {call : ToolCall}
    (hc : h.Concerns r s) (hcall : h.toolCall? r = some call) : s = call.session := by
  obtain ⟨-, -, -, q, hq, hcalls, hlet, -⟩ := toolCall?_eq_some hcall
  rcases hc with hheader | ⟨q', hgreets, -⟩
  · have caller := (callerSession_eq_ok_iff.1 hlet).1
    exact Option.some.inj (hheader.symm.trans caller)
  · cases hq.symm.trans hgreets.parsed
    exact absurd hgreets.handshake (by simp [hcalls])

/-- A step of a request: its arrival, and later a step of its task or of a transport that it waits
for. What else happens between these steps is left open. -/
inductive OwnStep (h₀ : Hub) (r : Request) : Hub → Hub → Prop
  | arrival : OwnStep h₀ r h₀ (h₀.act (.event (.request r)))
  | polled (after : List Action) : OwnStep h₀ r ((h₀.act (.event (.request r))).exec after)
      (((h₀.act (.event (.request r))).exec after).act (.move (.task (h₀.request r).1)))
  | served (after : List Action) {u : TransportId} {state : Transport} {frame : String} :
      ((h₀.act (.event (.request r))).exec after).transport? u = some state →
      ((h₀.request r).1, frame) ∈ state.waiting →
      OwnStep h₀ r ((h₀.act (.event (.request r))).exec after)
        (((h₀.act (.event (.request r))).exec after).act (.move (.transport u)))

/-- The steps of a request leave a session alone, unless the request calls a tool that commands the
editor and the session has the latest snapshot. Then they reach the stream to which the session is
bound, and of what the request sends there is at most the one frame of its command. -/
def Isolated (h₀ : Hub) (r : Request) (t : String) : Prop :=
  (∀ h h', h₀.OwnStep r h h' → Untouched t h h') ∨
  ∃ call o u, h₀.toolCall? r = some call ∧ call.name ∈ Tool.commandTools ∧ h₀.Target call o u ∧
    o.session = t ∧ (∀ h h', h₀.OwnStep r h h' → Reached t u (h₀.request r).1 h h') ∧
    ∀ after v, let lines := ((h₀.act (.event (.request r))).exec after).linesOf v (h₀.request r).1
      lines.2 ++ lines.1 = [] ∨ v = u ∧ lines.2 ++ lines.1 = [h₀.commandFrame o]

/-- A request that was over at once and has left a session alone. -/
structure Passed (t : String) (h : Hub) (run : TaskId × Hub) : Prop where
  untouched : Untouched t h run.2
  spent : ∃ taken answers, Spent run.1 taken answers ⟨run.2, []⟩

section Request

variable {h : Hub} {r : Request} {t : String}

/-! ## Requests that are over at once -/

theorem Passed.isolated (hr : (h.request r).2.Running) (hpassed : Passed t h (h.request r)) :
    h.Isolated r t := by
  obtain ⟨taken, answers, hspent⟩ := hpassed.spent
  have spent (after : List Action) := spent_exec hr.path hr.tools hr.homed.bound hspent after
  refine .inl fun g g' hs => ?_
  cases hs with
  | arrival => exact hpassed.untouched
  | polled after =>
    show Untouched t _ (((h.request r).2.exec after).act _)
    rw [act_task_of_none (spent after).task]
    exact .refl ..
  | served after hu hw =>
    have idle := idle_of_lines fun u => congrArg Prod.fst ((spent after).lines u)
    exact absurd hw (idle _ _ _ hu)

/-- A request that is answered as soon as something has happened that is nothing to the session. -/
theorem passed_answered {g : Hub} (hu : Unused ⟨h, []⟩ h.nextTask) (hg : Untouched t h g)
    (ha : Aside h.nextTask ⟨h, []⟩ ⟨g, []⟩) (hnext : g.nextTask = h.nextTask) (a : Answer) :
    Passed t h (g.answered a) where
  untouched := hg.trans (.answered a)
  spent := by
    have old : g.nextTask < (g.answered a).2.nextTask := Nat.lt_succ_self _
    have task : g.tasks.get? g.nextTask = none := by rw [hnext]; exact ha.task.trans hu.task
    refine ⟨fun _ => [], _, old, task, fun v => ?_, rfl⟩
    show g.linesOf v g.nextTask = _
    rw [hnext]
    exact (ha.lines v).trans (hu.lines v)

/-- A new stream is nothing to the sessions that it is not for. -/
theorem untouched_startStream {s : String} {x : Session} (hb : Bound ⟨h, []⟩)
    (hx : h.sessions.get? s = some x) (hne : t ≠ s) : Untouched t h (h.startStream s).2 := by
  have bound {v : TransportId} {state : Transport} (hv : supplanted x h.nextTransport = some v)
      (hstate : h.transport? v = some state) : state.session = s := by
    unfold supplanted at hv
    split_ifs at hv
    exact hb.owns ((Sessions.transport?_of_get? hx).trans hv) hstate
  rw [startStream_eq hx]
  refine ⟨Table.get?_set_of_ne _ _ hne, rfl, fun {v state} hs => ?_⟩
  simp only [transport?]
  by_cases hv : v = h.nextTransport
  · subst hv
    rw [Table.get?_set_self]
    refine iff_of_false (fun he => ?_) fun hold => Nat.lt_irrefl _ (hb.transportFresh hold)
    cases he
    exact hne hs.symm
  · rw [Table.get?_set_of_ne _ _ hv, get?_shutAny, Table.get?_set_of_ne _ _ hv]
    split_ifs with hshut
    · refine iff_of_false (fun he => ?_) fun hold => hne (hs.symm.trans (bound hshut hold))
      obtain ⟨state₀, hold, rfl⟩ := Option.map_eq_some_iff.1 he
      have own : state₀.session = s := bound hshut hold
      exact hne (hs.symm.trans own)
    · exact .rfl

/-- A request that opens a stream for another session. -/
theorem passed_opened {s : String} {x : Session} (hb : Bound ⟨h, []⟩)
    (hu : ∀ n, h.nextTask ≤ n → Unused ⟨h, []⟩ n) (hx : h.sessions.get? s = some x) (hne : t ≠ s) :
    Passed t h (h.startStream s) := by
  have next := hu (h.nextTask + 1) (Nat.le_succ _)
  have other : h.nextTask + 1 ≠ h.nextTask := Nat.succ_ne_self _
  have lines := linesOf_startStream hb hx other
  refine ⟨untouched_startStream hb hx hne, ?_⟩
  rw [startStream_number hx]
  refine ⟨fun _ => [], _, ?_, ?_, fun v => (lines v).trans (next.lines v), rfl⟩
  · rw [startStream_eq hx]
    exact Nat.lt_succ_self _
  · rw [startStream_eq hx]
    exact (get?_greetedTasks h other _).trans next.task

/-- The end of a session is nothing to the others. -/
theorem untouched_endSession {s : String} {x : Session} (hb : Bound ⟨h, []⟩)
    (hx : h.sessions.get? s = some x) (hne : t ≠ s) : Untouched t h (h.endSession s).2 := by
  rw [endSession_eq hx]
  refine .shutAny (Table.get?_erase_of_ne _ hne) ?_ (fun {v state} hv hstate => ?_) rfl
  · exact (Snapshot.Store.get?_remove ..).trans (if_neg hne)
  · have own : state.session = s := hb.owns ((Sessions.transport?_of_get? hx).trans hv) hstate
    exact fun he => hne (he.symm.trans own)

/-- What tools do without a command is nothing to the sessions that do not call them. -/
theorem passed_execute {s : String} (ht : h.tools = .standard) (hu : Unused ⟨h, []⟩ h.nextTask)
    (hne : t ≠ s) (reply : ToolReply) (name : String) (args : Json) (initialized : Bool)
    (hno : ∀ o, (h.tools.execute name args ⟨some s, initialized⟩ h.services).1 ≠ .command o) :
    Passed t h (h.execute reply name args ⟨some s, initialized⟩) := by
  have hran := Tool.execute_ran name args ⟨some s, initialized⟩ h.services
  unfold execute
  rw [ht] at hno ⊢
  generalize Tool.Registry.standard.execute name args ⟨some s, initialized⟩ h.services = run
    at hran hno ⊢
  obtain ⟨outcome, services⟩ := run
  have aside (services : Tool.Services) : Aside h.nextTask ⟨h, []⟩ ⟨h.withServices services, []⟩ :=
    .tasks rfl (Nat.le_refl _) rfl rfl rfl rfl
  have answered {services : Tool.Services} (hg : Untouched t h (h.withServices services)) :=
    passed_answered (g := h.withServices services) hu hg (aside services) rfl
  cases hran with
  | answers =>
    have same : Untouched t h (h.withServices h.services) := .same rfl rfl rfl
    cases outcome with
    | command o => exact absurd rfl (hno o)
    | result => exact answered same _
    | error => exact answered same _
    | panic => exact answered same _
  | @refreshes session x result hready hx =>
    have own : x.session = s := (of_ofCall? hx).1.trans (Tool.session_of_ready? hready).symm
    refine answered (.same rfl ?_ rfl) _
    exact Snapshot.Store.get?_refresh_of_ne fun he => hne (he.trans own)
  | acks => exact answered (.same rfl rfl rfl) _
  | orders => exact absurd rfl (hno _)

/-- A session has been seen, in a small step. -/
theorem seen_step {s : String} {x : Session} (hx : h.sessions.get? s = some x) :
    Step ⟨h, []⟩ [] ⟨h.seen s x, []⟩ := by
  have touched : (h.sessions.touch s h.now).2 = h.sessions.set s { x with lastSeen := h.now } := by
    simp [Sessions.touch, Sessions.update, Table.modify, hx]
  have looked : Sessions.Looked h.sessionId h.now h.sessions h.sessionsNamed
      (h.sessions.touch s h.now).2 h.sessionsNamed := .touch ..
  rw [touched] at looked
  exact .touched _ _ looked

theorem transport?_seen {s : String} {x : Session} (hx : h.sessions.get? s = some x)
    (s' : String) : (h.seen s x).sessions.transport? s' = h.sessions.transport? s' := by
  simp only [Sessions.transport?, Hub.seen, Table.get?_set]
  split_ifs with he
  · rw [he, hx]
    rfl
  · rfl

theorem Names.ne {s : String} {x : Session} (hn : h.Names r s x) (hother : ¬ h.Concerns r t) :
    t ≠ s := by
  rintro rfl
  exact hother (.inl hn.header)

theorem Passed.seen {s : String} {x : Session} {run : TaskId × Hub}
    (hpassed : Passed t (h.seen s x) run) (hne : t ≠ s) : Passed t h run :=
  ⟨(Untouched.seen hne x).trans hpassed.untouched, hpassed.spent⟩

/-- A request that orders no command is over at once, and is nothing to the sessions that it is not
about. -/
theorem passed_request (hr : h.Running) (hother : ¬ h.Concerns r t)
    (hno : ∀ call o, h.toolCall? r = some call → h.order? call ≠ some o) :
    Passed t h (h.request r) := by
  have unused := hr.unused
  have same : Aside h.nextTask ⟨h, []⟩ ⟨h, []⟩ := .tasks rfl (Nat.le_refl _) rfl rfl rfl rfl
  have looked (sessions : Sessions) (named : Nat) : Aside h.nextTask ⟨h, []⟩
      ⟨{ h with sessions := sessions, sessionsNamed := named }, []⟩ :=
    .tasks rfl (Nat.le_refl _) rfl rfl rfl rfl
  have effect := request_effect h r
  generalize hrun : h.request r = run at effect
  cases effect with
  | answered => exact passed_answered unused (.refl t h) same rfl _
  | seen _ _ hn => exact passed_answered unused (.seen (hn.ne hother) _) (looked _ _) rfl _
  | confirmed _ hn => exact passed_answered unused (.seen (hn.ne hother) _) (looked _ _) rfl _
  | @greeted q id hg =>
    have hne : t ≠ (h.handshakeSession r).1 := fun he => hother (.inr ⟨q, hg, he.symm⟩)
    have untouched : Untouched t h (h.welcomed (h.handshakeSession r).1
        (h.handshakeSession r).2.sessionsNamed (Sessions.agreed q.wish)) :=
      .same (Table.get?_set_of_ne _ _ hne) rfl rfl
    exact passed_answered unused untouched (looked _ _) rfl _
  | @called call x hcall _ hn =>
    have hseen := homed_step (m := ⟨h, []⟩) hr.path hr.homed (seen_step hn.live)
    refine .seen (passed_execute (h := h.seen call.session x) hr.tools (hseen.unused _ (Nat.le_refl _))
      (hn.ne hother) _ _ _ _ fun o ho => hno call o hcall ?_) (hn.ne hother)
    have ho : (h.tools.execute call.name call.args (h.toolContext (some call.session))
      h.services).1 = .command o := ho
    rw [order?, ho]
  | @opened s x _ hn =>
    have hseen := homed_step (m := ⟨h, []⟩) hr.path hr.homed (seen_step hn.live)
    exact .seen (passed_opened hseen.bound hseen.unused (Table.get?_set_self ..) (hn.ne hother))
      (hn.ne hother)
  | @ended s x hn =>
    refine passed_answered unused (untouched_endSession hr.homed.bound hn.live (hn.ne hother))
      (aside_ended s) ?_ _
    rw [endSession_eq hn.live]

end Request

/-! ## Requests that order a command -/

theorem OwnStep.reached {h g g' : Hub} {r : Request} (hs : h.OwnStep r g g') :
    ∃ actions, g = h.exec actions := by
  cases hs with
  | arrival => exact ⟨[], rfl⟩
  | polled after => exact ⟨.event (.request r) :: after, rfl⟩
  | served after => exact ⟨.event (.request r) :: after, rfl⟩

section Ordered

variable {h h₁ g g' : Hub} {r : Request} {t : String} {call : ToolCall} {x : Session}
  {o : Broker.Order} {u : TransportId} {state : Transport}

/-- A command has been called by a request. -/
structure Ordered (h h₁ : Hub) (r : Request) (call : ToolCall) (x : Session) (o : Broker.Order)
    (u : TransportId) (state : Transport) : Prop where
  names : h.Names r call.session x
  target : h.Target call o u
  here : h.transport? u = some state
  isOpen : state.closed = false
  arrived : h.act (.event (.request r)) = h₁
  task : (h.request r).1 = h.nextTask
  after : h₁ =
    ((h.seen call.session x).begun (.tool o.command (.response call.id)) o u state).settleTransport
      u { state with line := state.line ++ [(h.nextTask, h.commandFrame o)] }
  stage : (h.commandOf call o u).Stage [] ⟨h₁, []⟩

/-- Where writes have no time a command does not wait after its arrival. -/
theorem Ordered.idle (ho : Ordered h h₁ r call x o u state) (hpatient : h.Patient)
    (hzero : h.config.sseWriteTimeout = 0) : h₁.Idle h.nextTask := by
  intro v state' frame hv hw
  obtain ⟨rfl, -⟩ := ho.stage.waiting hv hw
  have patient : state.Patient 0 := hzero ▸ hpatient _ state ho.here
  let queued := { state with line := state.line ++ [(h.nextTask, h.commandFrame o)] }
  have patient : queued.Patient 0 := ⟨patient.span, patient.turn⟩
  have waits := List.ne_nil_of_mem ((mem_linesOf hv).2 hw)
  rw [ho.after] at waits
  exact patient_of_settleTransport patient waits rfl

/-- After the arrival, until the task is over, what moves is the task or its frame. -/
theorem Ordered.lands_later (ho : Ordered h h₁ r call x o u state) (hr : h.Running)
    (after : List Action) : Lands u h.nextTask (h₁.exec after)
      ((h₁.exec after).act (.move (.task h.nextTask))) ∧
    ∀ {v state' frame}, (h₁.exec after).transport? v = some state' →
      (h.nextTask, frame) ∈ state'.waiting →
      Lands u h.nextTask (h₁.exec after) ((h₁.exec after).act (.move (.transport v))) := by
  have hr₁ : h₁.Running := ho.arrived ▸ hr.exec [.event (.request r)]
  have later := hr₁.exec after
  obtain ⟨⟨log, hstage⟩, hidle⟩ := Command.Stage.exec hr₁ ho.stage after
  refine ⟨polled_lands u hstage.task, fun {v state' frame} hv hw => ?_⟩
  obtain ⟨rfl, hsent⟩ := hstage.waiting hv hw
  refine served_lands later.homed hv hw (fun hzero => ?_) hsent
  have config : (h₁.exec after).config = h.config := by
    rw [← ho.arrived]
    exact (sameSetting_exec hr.path hr.tools (.event (.request r) :: after)).2.2
  have zero : h.config.sseWriteTimeout = 0 := by
    rw [← config, ← (later.patient _ state' hv).span]
    exact hzero
  exact hidle (ho.idle hr.patient zero) _ state' frame hv hw

/-- Every step of a request that has called a command lands on its stream, once its caller has been
seen. -/
theorem Ordered.lands (ho : Ordered h h₁ r call x o u state) (hr : h.Running)
    (hother : ¬ h.Concerns r t) (hs : h.OwnStep r g g') : ∃ f, Untouched t g f ∧
      f.transports = g.transports ∧ Bound ⟨f, []⟩ ∧ Lands u h.nextTask f g' := by
  have hr₁ : h₁.Running := ho.arrived ▸ hr.exec [.event (.request r)]
  cases hs with
  | arrival =>
    have hseen := homed_step (m := ⟨h, []⟩) hr.path hr.homed (seen_step ho.names.live)
    refine ⟨h.seen call.session x, .seen (ho.names.ne hother) x, rfl, hseen.bound, ?_⟩
    have bound : (h.seen call.session x).sessions.transport? o.session = some u :=
      (transport?_seen ho.names.live _).trans ho.target.bound
    rw [ho.arrived, ho.after]
    exact begun_lands (h := h.seen call.session x) hr.path hseen _ bound ho.here ho.isOpen
  | polled after =>
    rw [ho.arrived, ho.task]
    exact ⟨_, .refl .., rfl, (hr₁.exec after).homed.bound, (ho.lands_later hr after).1⟩
  | served after hv hw =>
    rw [ho.arrived] at hv ⊢
    rw [ho.task] at hw
    exact ⟨_, .refl .., rfl, (hr₁.exec after).homed.bound, (ho.lands_later hr after).2 hv hw⟩

/-- A request that orders a command. -/
theorem isolated_ordered (hr : h.Running) (hother : ¬ h.Concerns r t)
    (hcall : h.toolCall? r = some call) (ho : h.order? call = some o) : h.Isolated r t := by
  have hr₁ : (h.request r).2.Running := hr.exec [.event (.request r)]
  obtain ⟨-, -, -, -, -, -, hlet, -⟩ := toolCall?_eq_some hcall
  obtain ⟨x, hn, hcaller⟩ := (callerSession_eq_ok_iff.1 hlet).names
  obtain ⟨htask, hrun⟩ := request_ordered hr.path hr.tools hr.homed.bound hr.unused hcall ho
  rw [hcaller] at hrun
  rcases hrun with ⟨e, he⟩ | ⟨u, state, htarget, hstate, hopen, hafter, hstage⟩
  · refine Passed.isolated hr₁ ⟨?_, ?_⟩
    · rw [he]
      exact (Untouched.seen (hn.ne hother) x).trans (.same rfl rfl rfl)
    · rw [he, htask]
      exact ⟨_, _, hr.unused.spent rfl (Table.get?_erase_self ..) rfl rfl⟩
  · have ordered : Ordered h (h.request r).2 r call x o u state :=
      ⟨hn, htarget, hstate, hopen, rfl, htask, hafter, hstage⟩
    -- the steps land on the stream of the session with the latest snapshot: this one or another
    by_cases howner : o.session = t
    · refine .inr ⟨call, o, u, hcall, (run_of_order? hr.tools ho).1, htarget, howner, ?_, ?_⟩
      · intro g g' hs
        obtain ⟨f, hf, htransports, -, hl⟩ := ordered.lands hr hother hs
        rw [htask]
        exact .of_untouched hf htransports (hl.reached t)
      · intro after v
        obtain ⟨log, hlater⟩ := (Command.Stage.exec hr₁ hstage after).1
        rw [htask]
        exact hlater.lines v
    · refine .inl fun g g' hs => ?_
      obtain ⟨f, hf, htransports, hbound, hl⟩ := ordered.lands hr hother hs
      obtain ⟨actions, rfl⟩ := hs.reached
      refine hf.trans (hl.toOnto.untouched hbound fun {state'} hstate' he => howner ?_)
      rw [transport?, htransports] at hstate'
      exact (hr.owner htarget.bound actions hstate').symm.trans he

end Ordered

/-- In every state that a schedule leads to, whatever a request does until it is answered, and
whatever else happens meanwhile, sessions keep apart. -/
theorem session_isolated (config : Config) (ids : Nat → String) (before : List Action) (r : Request)
    {t : String} (hother : ¬ ((Hub.new config ids).exec before).Concerns r t) :
    ((Hub.new config ids).exec before).Isolated r t := by
  have hr : ((Hub.new config ids).exec before).Running := (Running.new config ids).exec before
  generalize (Hub.new config ids).exec before = h at hother hr ⊢
  by_cases horders : ∃ call o, h.toolCall? r = some call ∧ h.order? call = some o
  · obtain ⟨call, o, hcall, ho⟩ := horders
    exact isolated_ordered hr hother hcall ho
  · refine Passed.isolated (hr.exec [.event (.request r)]) ?_
    exact passed_request hr hother fun call o hcall ho => horders ⟨call, o, hcall, ho⟩

/-- One client stops the project, and the session of the other has the latest snapshot. -/
theorem session_isolated_stopping :
    let h := (Hub.new .default sampleId).exec editing
    (h.toolCall? stopping = some ⟨"S2", .int 7, "stop_project", .obj []⟩ ∧
      (h.sessions.get? "S1").isSome = true ∧ h.snapshots.latest = some "S1" ∧
      (((h.act (.event (.request stopping))).linesOf 0 6).2).length = 1) ∧
    ¬ h.Concerns stopping "S1" ∧ h.Isolated stopping "S1" := by
  intro h
  have ran : h.toolCall? stopping = some ⟨"S2", .int 7, "stop_project", .obj []⟩ ∧
      (h.sessions.get? "S1").isSome = true ∧ h.snapshots.latest = some "S1" ∧
      (((h.act (.event (.request stopping))).linesOf 0 6).2).length = 1 := by decide +kernel
  have other : ¬ h.Concerns stopping "S1" := fun hc => by simpa using hc.caller ran.1
  exact ⟨ran, other, session_isolated .default sampleId editing stopping other⟩

end EditorBridge.Hub
