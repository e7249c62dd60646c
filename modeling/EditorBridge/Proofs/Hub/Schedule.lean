import EditorBridge.Proofs.Hub.Request
/-!
# Schedules in small steps

Every action of a schedule is a row of small steps, and so is the schedule. The
marks of the steps are found again among the actions: where an acknowledgement
was accepted, a request gave it, and where a call was given up, an event said
so.
-/

namespace EditorBridge.Hub

open Http (Request)
open Moment (Step Steps)
open Transport (Endings)

/-! ## What the end of a task touches -/

theorem endLoop_eq (h : Hub) (id : TaskId) (t : TransportId) : h.endLoop id t = { h with
      transports := h.transports.modify t shut
      sessions := (h.sessions.clearTransport
        (((h.transport? t).map (·.session)).getD "") t).2
      tasks := h.tasks.erase id } := by
  simp [endLoop, closeTransport_eq, dismiss]

theorem abandon_eq {h : Hub} {id : TaskId} {task : Task} (hp : h.path = .streams)
    (ht : h.tasks.get? id = some task) (hc : task.isCall = true) : (h.abandon id).2 = { h with
      tasks := h.tasks.erase id
      broker := h.broker.abandon id
      transports := h.transports.map fun (t, state) => (t, state.abandon id) } := by
  simp [abandon, ht, hc, hp, dismiss]

/-- The transport of a new stream: its greeting has been taken. -/
def freshStream (h : Hub) (session : String) (loop : TaskId) : Transport :=
  (Transport.opened session h.config.sseBuffer h.config.sseWriteTimeout).put loop
    (Sse.comment "connected")

/-- The tasks after a loop has been told of its greeting. -/
def greetedTasks (h : Hub) (loop : TaskId) (t : TransportId) : Table TaskId Task :=
  let tasks := h.tasks.set loop (.pushLoop t .greeting)
  if h.config.keepaliveInterval = 0 then tasks.erase loop
  else tasks.set loop (.pushLoop t (.resting (h.now + h.config.keepaliveInterval)))

theorem write_opened (session : String) (buffer : Nat) (timeout now : Nanos) (id : TaskId)
    (frame : String) : (Transport.opened session buffer timeout).write now id frame =
      ((Transport.opened session buffer timeout).put id frame, [(id, .ok ())]) := by
  have room : 0 < max buffer 1 := by omega
  simp [Transport.opened, Transport.write, Transport.settle, Transport.giveTurns, Transport.hasRoom,
    Transport.leave, Transport.breaks, Transport.put, room]

/-- The transport that a session gives up for another one. -/
def supplanted (s : Session) (t : TransportId) : Option TransportId :=
  if s.transport = some t then none else s.transport

/-- A new stream: the transport that its session had before is closed. -/
theorem startStream_eq {h : Hub} {session : String} {s : Session}
    (hs : h.sessions.get? session = some s) : (h.startStream session).2 = { h with
      sessions := h.sessions.set session
        { s with transport := some h.nextTransport, lastSeen := h.now }
      transports := (shutAny (h.transports.set h.nextTransport
        (.opened session h.config.sseBuffer h.config.sseWriteTimeout))
          (supplanted s h.nextTransport)).set h.nextTransport (h.freshStream session h.nextTask)
      tasks := h.greetedTasks h.nextTask h.nextTransport
      answers := h.answers ++ [(h.nextTask + 1, .response ⟨200, some "text/event-stream",
        some "no-cache", some session, .stream h.nextTransport⟩)]
      nextTask := h.nextTask + 2
      nextTransport := h.nextTransport + 1 } := by
  have opened : (shutAny (h.transports.set h.nextTransport
      (.opened session h.config.sseBuffer h.config.sseWriteTimeout))
        (supplanted s h.nextTransport)).get? h.nextTransport =
      some (.opened session h.config.sseBuffer h.config.sseWriteTimeout) := by
    rw [get?_shutAny, if_neg, Table.get?_set_self]
    unfold supplanted
    split_ifs with hn
    · simp
    · exact hn
  by_cases hn : s.transport = some h.nextTransport <;>
    by_cases hi : h.config.keepaliveInterval = 0 <;>
    simp only [supplanted, hn, if_true, if_false] at opened <;>
    simp [startStream, openTransport, putTransport, bindTransport, hs, hn, supplanted,
      closeIfAny_eq, spawn, writeTo, transport?, opened, write_opened, deliverAll, deliver, hi,
      dismiss, answered, greetedTasks, freshStream]

theorem startStream_number {h : Hub} {session : String} {s : Session}
    (hs : h.sessions.get? session = some s) : (h.startStream session).1 = h.nextTask + 1 := by
  have next : (h.startStream session).1 + 1 = h.nextTask + 2 :=
    congrArg Hub.nextTask (startStream_eq hs)
  exact Nat.succ.inj next

theorem exec_cons (h : Hub) (a : Action) (actions : List Action) :
    h.exec (a :: actions) = (h.act a).exec actions := rfl

theorem exec_append (h : Hub) (actions actions' : List Action) :
    h.exec (actions ++ actions') = (h.exec actions).exec actions' := List.foldl_append ..

/-! ## Actions in small steps -/

/-- What stays as it is: the path to editors, the tools and the settings. -/
def SameSetting (h h' : Hub) : Prop :=
  h'.path = h.path ∧ h'.tools = h.tools ∧ h'.config = h.config

theorem SameSetting.trans {h h' h'' : Hub} (hs : SameSetting h h') (hs' : SameSetting h' h'') :
    SameSetting h h'' := by
  obtain ⟨hpath, htools, hconfig⟩ := hs
  obtain ⟨hpath', htools', hconfig'⟩ := hs'
  exact ⟨hpath'.trans hpath, htools'.trans htools, hconfig'.trans hconfig⟩

/-- What every step respects: the setting and the ids to give out stay, time and the numbers of
tasks do not go back, and answers are not taken back. -/
structure Onward (h h' : Hub) : Prop where
  setting : SameSetting h h'
  sessionId : h'.sessionId = h.sessionId
  now : h.now ≤ h'.now
  nextTask : h.nextTask ≤ h'.nextTask
  answers : h.answers <+: h'.answers

theorem Onward.refl (h : Hub) : Onward h h :=
  ⟨⟨rfl, rfl, rfl⟩, rfl, Nat.le_refl _, Nat.le_refl _, List.prefix_refl _⟩

theorem Onward.trans {h h' h'' : Hub} (ho : Onward h h') (ho' : Onward h' h'') : Onward h h'' where
  setting := ho.setting.trans ho'.setting
  sessionId := ho'.sessionId.trans ho.sessionId
  now := Nat.le_trans ho.now ho'.now
  nextTask := Nat.le_trans ho.nextTask ho'.nextTask
  answers := ho.answers.trans ho'.answers

theorem onward_step {m m' : Moment} {log : List Mark} (hp : m.hub.path = .streams)
    (hs : Step m log m') : Onward m.hub m'.hub := by
  cases hs with
  | ticked d =>
    exact ⟨⟨rfl, rfl, rfl⟩, rfl, Nat.le_add_right _ d, Nat.le_refl _, List.prefix_refl _⟩
  | answered | refused =>
    exact ⟨⟨rfl, rfl, rfl⟩, rfl, Nat.le_refl _, Nat.le_succ _, List.prefix_append ..⟩
  | called | sweeping =>
    exact ⟨⟨rfl, rfl, rfl⟩, rfl, Nat.le_refl _, Nat.le_succ _, List.prefix_refl _⟩
  | watched | polled | wrote | failed =>
    exact ⟨⟨rfl, rfl, rfl⟩, rfl, Nat.le_refl _, Nat.le_refl _, List.prefix_append ..⟩
  | subscribed hx =>
    rw [startStream_eq hx]
    exact ⟨⟨rfl, rfl, rfl⟩, rfl, Nat.le_refl _, Nat.le_add_right _ 2, List.prefix_append ..⟩
  | @ended h es session =>
    cases hx : h.sessions.get? session with
    | none =>
      rw [endSession_of_none hx]
      exact .refl h
    | some s =>
      rw [endSession_eq hx]
      exact ⟨⟨rfl, rfl, rfl⟩, rfl, Nat.le_refl _, Nat.le_refl _, List.prefix_refl _⟩
  | loopEnded | broken =>
    rw [endLoop_eq]
    exact ⟨⟨rfl, rfl, rfl⟩, rfl, Nat.le_refl _, Nat.le_refl _, List.prefix_refl _⟩
  | abandoned ht hc =>
    rw [abandon_eq hp ht hc]
    exact ⟨⟨rfl, rfl, rfl⟩, rfl, Nat.le_refl _, Nat.le_refl _, List.prefix_refl _⟩
  | _ => exact ⟨⟨rfl, rfl, rfl⟩, rfl, Nat.le_refl _, Nat.le_refl _, List.prefix_refl _⟩

theorem onward_steps {m m' : Moment} {log : List Mark} (hp : m.hub.path = .streams)
    (hs : Steps m log m') : Onward m.hub m'.hub := by
  induction hs with
  | refl => exact .refl _
  | step hs _ ih =>
    have onward := onward_step hp hs
    exact onward.trans (ih (onward.setting.1.trans hp))

theorem dropReader_steps (h : Hub) (t : TransportId) :
    Steps ⟨h, []⟩ [] ⟨(h.dropReader t).2, []⟩ := by
  unfold dropReader
  split
  · next ht => exact (Step.deserted ht).one
  · exact .refl

theorem readStream_steps (h : Hub) (t : TransportId) :
    Steps ⟨h, []⟩ [] ⟨(h.readStream t).2.2, []⟩ := by
  unfold readStream
  split_ifs
  · exact dropReader_steps h t
  · cases ht : h.transport? t with
    | none => exact .refl
    | some state =>
      simp only [read, ht]
      exact (Step.read _ ht).one

/-- Every action is a row of small steps. -/
theorem act_steps {h : Hub} (hp : h.path = .streams) (ht : h.tools = .standard) (a : Action) :
    ∃ log, Steps ⟨h, []⟩ log ⟨h.act a, []⟩ ∧ (∀ mark ∈ log, mark.Of h a) ∧
      log.filterMap Mark.refresh? = (h.refresh? a).toList := by
  have unmarked {h' : Hub} (hn : h.refresh? a = none) (hs : Steps ⟨h, []⟩ [] ⟨h', []⟩) :
      ∃ log, Steps ⟨h, []⟩ log ⟨h', []⟩ ∧ (∀ mark ∈ log, mark.Of h a) ∧
        log.filterMap Mark.refresh? = (h.refresh? a).toList := ⟨[], hs, by simp, by rw [hn]; rfl⟩
  cases a with
  | move m =>
    refine unmarked rfl ?_
    show Steps _ _ ⟨(h.move? m).getD h, []⟩
    cases hm : h.move? m with
    | none => exact .refl
    | some h' => exact move_steps hp hm
  | event e =>
    cases e with
    | request r => exact request_steps hp ht r
    | advance d => exact unmarked rfl (Step.ticked d).one
    | read t => exact unmarked rfl (readStream_steps h t)
    | disconnect t => exact unmarked rfl (dropReader_steps h t)
    | abandon id =>
      cases hid : h.tasks.get? id with
      | none =>
        refine unmarked rfl ?_
        simp only [act, happen, abandon, hid]
        exact .refl
      | some task =>
        cases hc : task.isCall with
        | false =>
          refine unmarked rfl ?_
          simp only [act, happen, abandon, hid, Option.any_some, hc]
          exact .refl
        | true => exact ⟨[.abandoned id], (Step.abandoned hid hc).one, by simp [Mark.Of], rfl⟩
    | startSweeps timeout interval =>
      refine unmarked rfl ?_
      simp only [act, happen, startSweeps]
      split_ifs with hi
      · exact .refl
      · exact (Step.sweeping timeout hi).one

/-- A mark of a schedule tells of one of its actions. -/
def Mark.In (h : Hub) (actions : List Action) (mark : Mark) : Prop :=
  ∃ before a after, actions = before ++ a :: after ∧ mark.Of (h.exec before) a

/-- And so is every schedule; its refreshes are those that the marks tell of. -/
theorem exec_history {h : Hub} (hp : h.path = .streams) (ht : h.tools = .standard)
    (actions : List Action) :
    ∃ log, Steps ⟨h, []⟩ log ⟨h.exec actions, []⟩ ∧ (∀ mark ∈ log, mark.In h actions) ∧
      log.filterMap Mark.refresh? = h.refreshes actions := by
  induction actions generalizing h with
  | nil => exact ⟨[], .refl, by simp, rfl⟩
  | cons a actions ih =>
    obtain ⟨log, hlog, hall, hrefresh⟩ := act_steps hp ht a
    obtain ⟨hp', ht', -⟩ := (onward_steps hp hlog).setting
    obtain ⟨log', hlog', hall', hrefresh'⟩ := ih (hp'.trans hp) (ht'.trans ht)
    refine ⟨log ++ log', hlog.trans hlog', fun mark hm => ?_, ?_⟩
    · rcases List.mem_append.1 hm with hm | hm
      · exact ⟨[], a, actions, rfl, hall mark hm⟩
      · obtain ⟨before, b, after, he, hb⟩ := hall' mark hm
        exact ⟨a :: before, b, after, by rw [he]; rfl, hb⟩
    · rw [List.filterMap_append, hrefresh, hrefresh']
      rfl

theorem exec_steps {h : Hub} (hp : h.path = .streams) (ht : h.tools = .standard)
    (actions : List Action) :
    ∃ log, Steps ⟨h, []⟩ log ⟨h.exec actions, []⟩ ∧ ∀ mark ∈ log, mark.In h actions := by
  obtain ⟨log, hlog, hall, -⟩ := exec_history hp ht actions
  exact ⟨log, hlog, hall⟩

theorem onward_exec {h : Hub} (hp : h.path = .streams) (ht : h.tools = .standard)
    (actions : List Action) : Onward h (h.exec actions) := by
  obtain ⟨log, hlog, -⟩ := exec_steps hp ht actions
  exact onward_steps hp hlog

/-- Every bridge that a schedule leads to has the path and the tools it began with. -/
theorem sameSetting_exec {h : Hub} (hp : h.path = .streams) (ht : h.tools = .standard)
    (actions : List Action) : SameSetting h (h.exec actions) := (onward_exec hp ht actions).setting

theorem answers_exec {h : Hub} (hp : h.path = .streams) (ht : h.tools = .standard)
    (actions : List Action) : h.answers <+: (h.exec actions).answers :=
  (onward_exec hp ht actions).answers

/-- What every small step keeps, knowing its marks, small steps in a row keep. -/
theorem steps_induction {P : List Mark → Moment → Prop}
    (step : ∀ m m' log log', m.hub.path = .streams → P log m → Step m log' m' → P (log ++ log') m')
    (log : List Mark) {m m' : Moment} {log' : List Mark} (hs : Steps m log' m')
    (hp : m.hub.path = .streams) (h : P log m) : P (log ++ log') m' := by
  induction hs generalizing log with
  | refl => exact (List.append_nil log).symm ▸ h
  | step hs _ ih =>
    rw [← List.append_assoc]
    exact ih _ ((onward_step hp hs).setting.1.trans hp) (step _ _ _ _ hp h hs)

/-- What holds at the start and is kept by every small step holds after every schedule. -/
theorem schedule_induction {P : Moment → Prop} {h : Hub} (hp : h.path = .streams)
    (ht : h.tools = .standard) (start : P ⟨h, []⟩)
    (step : ∀ m m' log, m.hub.path = .streams → P m → Step m log m' → P m')
    (actions : List Action) : P ⟨h.exec actions, []⟩ := by
  obtain ⟨log, hlog, -⟩ := exec_steps hp ht actions
  exact steps_induction (P := fun _ => P) (fun m m' _ log' => step m m' log') [] hlog hp start

/-! ## A client -/

/-- Names of sessions. -/
def sampleId (n : Nat) : String := "S" ++ toString n

/-- A POST of a session, or of a client that has none yet. -/
def samplePost (session : Option String) (id : Option Json) (method : String) (params : Json) :
    Request where
  method := "POST"
  path := "/mcp"
  headers := (session.map fun s => (Http.sessionHeader, s)).toList
  body := Text.encode (Rpc.Message.wire ⟨Rpc.version, id, some method, some params, none, none⟩)

/-- A session begins. -/
def sampleHandshake : Action :=
  .event (.request (samplePost none (some (.int 1)) Rpc.handshakeMethod (.obj [])))

/-- A session has finished its handshake. -/
def sampleReady (session : String) : Action :=
  .event (.request (samplePost (some session) none "notifications/initialized" (.obj [])))

/-- A session asks for a stream. -/
def sampleStream (session : String) : Action :=
  .event (.request ⟨"GET", "/mcp",
    [(Http.sessionHeader, session), ("accept", "text/event-stream")], []⟩)

/-- A session calls a tool. -/
def sampleCall (session name : String) (args : Json.Members) : Request :=
  samplePost (some session) (some (.int 7)) "tools/call"
    (.obj [("name", .str name), ("arguments", .obj args)])

end EditorBridge.Hub
