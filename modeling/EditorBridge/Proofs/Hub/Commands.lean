import EditorBridge.Proofs.Hub.Course
import EditorBridge.Proofs.Hub.Report
import EditorBridge.Proofs.Hub.Transports
import EditorBridge.Proofs.Hub.Turnover
/-!
# Where commands go

A call of a tool that commands the editor is refused, or it puts one frame in
the line of one stream: the one to which the editor with the latest snapshot is
bound at that moment. The call then goes through four stages, in this order and
however many other clients are busy meanwhile, unless it is dropped: its frame
waits; the frame has been taken; the call waits for its acknowledgement; it is
answered. The answer is an acknowledgement that this editor gave for this
command, or an error that the caller can mend.
-/

namespace EditorBridge.Hub

open Moment (Step Steps)
open Transport (Ended)

/-- A command on its way: who waits for it, where its frame goes, and how it is known there. -/
structure Command where
  task : TaskId
  order : Broker.Order
  reply : ToolReply
  id : String
  frame : String
  target : TransportId
  limit : Nanos

namespace Command

/-- Where a command is: what its task has on the target, what it has yet to be told, and how far its
call has got. -/
inductive At (q : Command) : List String × List String → List Transport.WriteResult →
    Broker.Phase → Prop
  | pushing : q.At ([q.frame], []) [] .pushing
  | written : q.At ([], [q.frame]) [.ok ()] .pushing
  | unwritten (e : WriteError) : q.At ([], []) [.error e] .pushing
  | awaiting (deadline : Nanos) : q.At ([], [q.frame]) [] (.awaiting deadline)

/-- A schedule tells of an accepted acknowledgement of the command, given by its editor. -/
structure Acked (q : Command) (log : List Mark) (x : Broker.Claimed) : Prop where
  mark : .acked x ∈ log
  session : x.session = q.order.session
  id : x.ack.commandId = q.id

/-- The call of a command in the broker, at a moment after a schedule. -/
structure Calls (q : Command) (log : List Mark) (m : Moment) (c : Broker.Call) : Prop where
  holds : Broker.Holds m.hub.broker q.task c
  id : c.commandId = q.id
  session : c.session = q.order.session
  timeout : c.timeout = q.limit
  mail : ∀ {a}, c.mailbox = .delivered a → ∃ x, q.Acked log x ∧ a = x.ack.stamped x.wall
  place : q.At (m.hub.linesOf q.target q.task) (entriesOf q.task m.untold) c.phase
  deadline : ∀ {d}, c.phase = .awaiting d → d ≤ m.hub.now + q.limit

/-- A command is under way. -/
structure Waits (q : Command) (log : List Mark) (m : Moment) : Prop where
  old : q.task < m.hub.nextTask
  task : m.hub.tasks.get? q.task = some (.command (.tool q.order.command q.reply))
  elsewhere : ∀ t, t ≠ q.target → m.hub.linesOf t q.task = ([], [])
  answers : m.hub.answersTo q.task = []
  call : ∃ c, q.Calls log m c

/-- How a command has ended, by its answers. -/
inductive Outcome (q : Command) (log : List Mark) (taken : List String) : List Answer → Prop
  | acked {x : Broker.Claimed} : q.Acked log x → taken = [q.frame] → Outcome q log taken
      [toolAnswer q.reply (.ok (Tool.ofAck q.order.command (x.ack.stamped x.wall)))]
  | failed {e : ToolError} : Tool.Mendable e.toRpc →
      Outcome q log taken [toolAnswer q.reply (.error e)]
  | dropped : .abandoned q.task ∈ log → Outcome q log taken []

end Command

/-- A task is over. What it has left behind are its answers and the frames that were taken. -/
structure Spent (k : TaskId) (taken : TransportId → List String) (answers : List Answer)
    (m : Moment) : Prop where
  old : k < m.hub.nextTask
  task : m.hub.tasks.get? k = none
  lines : ∀ t, m.hub.linesOf t k = ([], taken t)
  answers : m.hub.answersTo k = answers

/-- A task that is over leaves nothing more behind. -/
theorem spent_step {m m' : Moment} {log : List Mark} {k : TaskId}
    {taken : TransportId → List String} {answers : List Answer} (hp : m.hub.path = .streams)
    (hb : Bound m) (h : Spent k taken answers m) (hs : Step m log m') :
    Spent k taken answers m' := by
  have same {m' : Moment} (ha : Aside k m m') : Spent k taken answers m' :=
    ⟨Nat.lt_of_lt_of_le h.old ha.last, ha.task.trans h.task, fun t => (ha.lines t).trans (h.lines t),
      ha.answers.trans h.answers⟩
  cases course_step hp hb hs k (.inl h.old) with
  | aside ha => exact same ha
  | acked ha => exact same ha
  | moved ht => exact same (aside_moved ht (congrArg Prod.fst (h.lines _)))
  | gone => exact ⟨h.old, h.task, h.lines, h.answers⟩
  | pushed ht => cases h.task.symm.trans ht
  | failed ht => cases h.task.symm.trans ht
  | polled ht => cases h.task.symm.trans ht
  | abandoned ht => cases h.task.symm.trans ht
  | other ht => cases h.task.symm.trans ht

/-- A command has ended, and at most one frame of its was taken, by its target. -/
structure Command.Over (q : Command) (log : List Mark) (taken : TransportId → List String)
    (answers : List Answer) (m : Moment) : Prop where
  spent : Spent q.task taken answers m
  elsewhere : ∀ t, t ≠ q.target → taken t = []
  here : taken q.target = [] ∨ taken q.target = [q.frame]
  outcome : q.Outcome log (taken q.target) answers

/-- A command is under way, or it has ended. -/
def Command.Stage (q : Command) (log : List Mark) (m : Moment) : Prop :=
  q.Waits log m ∨ ∃ taken answers, q.Over log taken answers m

namespace Command

variable {q : Command} {log log' : List Mark} {m m' : Moment}

theorem Acked.mono {x : Broker.Claimed} (h : q.Acked log x) (log' : List Mark) :
    q.Acked (log ++ log') x := ⟨List.mem_append_left _ h.mark, h.session, h.id⟩

theorem Outcome.mono {taken : List String} {answers : List Answer}
    (h : q.Outcome log taken answers) (log' : List Mark) :
    q.Outcome (log ++ log') taken answers := by
  cases h with
  | acked hx ht => exact .acked (hx.mono log') ht
  | failed he => exact .failed he
  | dropped hm => exact .dropped (List.mem_append_left _ hm)

/-! ## A command under way -/

/-- Nothing has changed for the task, and its call holds on. -/
theorem Waits.aside (h : q.Waits log m) (ha : Aside q.task m m') {c : Broker.Call}
    {mail : Broker.Mailbox} (hc : q.Calls log m c)
    (hholds : Broker.Holds m'.hub.broker q.task { c with mailbox := mail })
    (hmail : ∀ {a}, mail = .delivered a →
      ∃ x, q.Acked (log ++ log') x ∧ a = x.ack.stamped x.wall) : q.Waits (log ++ log') m' := by
  refine ⟨Nat.lt_of_lt_of_le h.old ha.last, ha.task.trans h.task,
    fun t ht => (ha.lines t).trans (h.elsewhere t ht), ha.answers.trans h.answers,
    { c with mailbox := mail }, hholds, hc.id, hc.session, hc.timeout, hmail, ?_, fun hd => ?_⟩
  · rw [ha.lines, ha.untold]
    exact hc.place
  · exact Nat.le_trans (hc.deadline hd) (Nat.add_le_add_right ha.now _)

theorem Waits.apart (h : q.Waits log m) (ha : Aside q.task m m')
    (hb : Broker.Apart q.task m.hub.broker m'.hub.broker) (log' : List Mark) :
    q.Waits (log ++ log') m' := by
  obtain ⟨c, hc⟩ := h.call
  obtain ⟨mail, hmail, hholds⟩ := hc.holds.apart hb
  refine h.aside ha hc hholds fun {a} hdelivered => ?_
  rcases hmail with rfl | ⟨-, rfl⟩
  · obtain ⟨x, hx, he⟩ := hc.mail hdelivered
    exact ⟨x, hx.mono log', he⟩
  · cases hdelivered

theorem Waits.acked {x : Broker.Claimed} (h : q.Waits log m) (ha : Aside q.task m m')
    (hok : (m.hub.broker.ack x.session x.ack x.wall).1 = .ok ())
    (hb : m'.hub.broker = (m.hub.broker.ack x.session x.ack x.wall).2) :
    q.Waits (log ++ [.acked x]) m' := by
  obtain ⟨c, hc⟩ := h.call
  rcases hc.holds.ack hok with hapart | ⟨hsession, hid, hholds⟩
  · exact h.apart ha (hb ▸ hapart) _
  · refine h.aside ha hc (hb ▸ hholds) fun {a} hdelivered => ?_
    cases hdelivered
    refine ⟨x, ⟨?_, hsession.trans hc.session, hid.trans hc.id⟩, rfl⟩
    exact List.mem_append_right _ List.mem_cons_self

/-- The target moves: the frame waits on, or it is taken, or its write fails. -/
theorem At.settle {state : Transport} {phase : Broker.Phase} (now : Nanos)
    (h : q.At (state.linesOf q.task) [] phase) :
    q.At ((state.settle now).1.linesOf q.task) (entriesOf q.task (state.settle now).2) phase := by
  obtain ⟨done, hendings, hwaiting, hsent⟩ := Transport.settle_linesOf now state q.task
  rw [hendings]
  generalize hold : state.linesOf q.task = old at h hwaiting hsent
  generalize hnew : (state.settle now).1.linesOf q.task = new at hwaiting hsent ⊢
  obtain ⟨queued, taken⟩ := new
  cases h with
  | pushing =>
    rcases done with _ | ⟨⟨writer, frame, result⟩, done⟩
    · obtain rfl : queued = [q.frame] := hwaiting.symm
      obtain rfl : taken = [] := by simpa using hsent
      exact .pushing
    · obtain ⟨rfl, hrest⟩ : q.frame = frame ∧ [] = done.map (·.frame) ++ queued := by
        simpa using hwaiting
      obtain ⟨hdone, rfl⟩ := List.append_eq_nil_iff.1 hrest.symm
      obtain rfl : done = [] := List.map_eq_nil_iff.1 hdone
      rcases result with e | ⟨⟩
      · obtain rfl : taken = [] := hsent
        exact .unwritten e
      · obtain rfl : taken = [q.frame] := hsent
        exact .written
  | awaiting deadline =>
    obtain ⟨hdone, rfl⟩ := List.append_eq_nil_iff.1 hwaiting.symm
    obtain rfl : done = [] := List.map_eq_nil_iff.1 hdone
    obtain rfl : taken = [q.frame] := by simpa using hsent
    exact .awaiting deadline

/-- Whoever has yet to be told has no frame in the line. -/
theorem At.idle {lines : List String × List String} {told : List Transport.WriteResult}
    {phase : Broker.Phase} (h : q.At lines told phase) (ht : told ≠ []) : lines.1 = [] := by
  cases h with
  | pushing => exact absurd rfl ht
  | written => rfl
  | unwritten => rfl
  | awaiting => rfl

theorem Waits.moved {h : Hub} {es : Transport.Endings} {t : TransportId} {state : Transport}
    (hw : q.Waits log ⟨h, es⟩) (ht : h.transport? t = some state) : q.Waits log
      ⟨h.putTransport t (state.settle h.now).1, es ++ (state.settle h.now).2⟩ := by
  have aside (hidle : (h.linesOf t q.task).1 = []) : q.Waits log
      ⟨h.putTransport t (state.settle h.now).1, es ++ (state.settle h.now).2⟩ := by
    simpa using hw.apart (aside_moved ht hidle) (.refl ..) []
  by_cases htarget : t = q.target
  · subst htarget
    obtain ⟨c, hc⟩ := hw.call
    have hplace : q.At (h.linesOf q.target q.task) (entriesOf q.task es) c.phase := hc.place
    rcases htold : entriesOf q.task es with _ | ⟨r, told⟩
    · rw [htold, linesOf_of_transport? ht] at hplace
      refine ⟨hw.old, hw.task, fun t hne => ?_, hw.answers, c, hc.holds, hc.id, hc.session,
        hc.timeout, hc.mail, ?_, hc.deadline⟩
      · exact (linesOf_congr (transport?_putTransport_of_ne _ _ hne)).trans (hw.elsewhere t hne)
      · have hline : (h.putTransport q.target (state.settle h.now).1).linesOf q.target q.task =
            (state.settle h.now).1.linesOf q.task :=
          linesOf_of_transport? (transport?_putTransport_self ..) _
        rw [hline, entriesOf_append, htold]
        exact hplace.settle h.now
    · refine aside (hplace.idle ?_)
      simp [htold]
  · exact aside (congrArg Prod.fst (hw.elsewhere t htarget))

/-! ## The ends of a command -/

theorem At.taken {lines : List String × List String} {told : List Transport.WriteResult}
    {phase : Broker.Phase} (h : q.At lines told phase) : lines.2 = [] ∨ lines.2 = [q.frame] := by
  cases h with
  | pushing => exact .inl rfl
  | written => exact .inr rfl
  | unwritten => exact .inl rfl
  | awaiting => exact .inr rfl

/-- The task has ended, and nothing of its waits in a line. -/
theorem Waits.over {h h' : Hub} {es es' : Transport.Endings} (hw : q.Waits log ⟨h, es⟩)
    (hlast : h'.nextTask = h.nextTask) (htask : h'.tasks.get? q.task = none)
    (hlines : ∀ t, h'.linesOf t q.task = ([], (h.linesOf t q.task).2))
    (houtcome : q.Outcome log' (h.linesOf q.target q.task).2 (h'.answersTo q.task)) :
    q.Stage log' ⟨h', es'⟩ := by
  obtain ⟨c, hc⟩ := hw.call
  refine .inr ⟨fun t => (h.linesOf t q.task).2, _, ⟨⟨?_, htask, hlines, rfl⟩, ?_, ?_, houtcome⟩⟩
  · show q.task < h'.nextTask
    exact hlast ▸ hw.old
  · exact fun t ht => congrArg Prod.snd (hw.elsewhere t ht)
  · exact hc.place.taken

/-- The task is answered. -/
theorem Waits.finish {h : Hub} {es es' : Transport.Endings} {a : Answer} (b : Broker)
    (hw : q.Waits log ⟨h, es⟩) (hidle : (h.linesOf q.target q.task).1 = [])
    (houtcome : q.Outcome log (h.linesOf q.target q.task).2 [a]) :
    q.Stage log ⟨{ h with broker := b }.finish q.task a, es'⟩ := by
  have hanswers : ({ h with broker := b }.finish q.task a).answersTo q.task = [a] := by
    have hnone : entriesOf q.task h.answers = [] := hw.answers
    simp [Hub.finish, answersTo, hnone]
  refine hw.over rfl (Table.get?_erase_self ..) (fun t => ?_) (hanswers ▸ houtcome)
  show h.linesOf t q.task = _
  by_cases ht : t = q.target
  · subst ht
    exact Prod.ext hidle rfl
  · have helse : h.linesOf t q.task = ([], []) := hw.elsewhere t ht
    rw [helse]

/-- Every error of a command can be mended by the caller. -/
theorem Outcome.error (log : List Mark) (taken : List String) (e : CommandError) :
    q.Outcome log taken [commandAnswer (.tool q.order.command q.reply) (.error e)] :=
  .failed (Tool.mendable_notAvailable _)

theorem Waits.pushed {h : Hub} {es : Transport.Endings} {r : Transport.WriteResult}
    (hw : q.Waits log ⟨h, (q.task, r) :: es⟩)
    (hr : (h.broker.pushed q.task r.toBool h.now).1 = none) : q.Waits log
      ⟨{ h with broker := (h.broker.pushed q.task r.toBool h.now).2 }, es⟩ := by
  obtain ⟨c, hc⟩ := hw.call
  have hplace : q.At (h.linesOf q.target q.task) (entriesOf q.task ((q.task, r) :: es)) c.phase :=
    hc.place
  rw [entriesOf_cons_self] at hplace
  rcases Broker.pushed_cases h.broker q.task r.toBool h.now with ⟨hnone, -⟩ | ⟨c', hc', hend⟩
  · cases hnone.symm.trans hc.holds.held
  · cases hc.holds.held.symm.trans hc'
    rcases hend with ⟨hok, heq⟩ | ⟨-, heq⟩
    · rw [heq]
      generalize hlines : h.linesOf q.target q.task = lines at hplace
      generalize htold : entriesOf q.task es = told at hplace
      generalize hphase : c.phase = phase at hplace
      cases hplace with
      | unwritten => cases hok
      | written =>
        let waiting := { c with phase := .awaiting (h.now + c.timeout) }
        let b := { h.broker with calls := h.broker.calls.set q.task waiting }
        have hwaits : q.Calls log ⟨{ h with broker := b }, es⟩ waiting := by
          refine ⟨⟨Table.get?_set_self .., hc.holds.own, hc.holds.waits, hc.holds.taken⟩, hc.id,
            hc.session, hc.timeout, hc.mail, ?_, ?_⟩
          · show q.At (h.linesOf q.target q.task) (entriesOf q.task es) _
            rw [hlines, htold]
            exact .awaiting _
          · rintro d ⟨⟩
            exact Nat.le_of_eq (congrArg _ hc.timeout)
        exact ⟨hw.old, hw.task, hw.elsewhere, hw.answers, _, hwaits⟩
    · rw [heq] at hr
      cases hr

theorem Waits.failed {h : Hub} {es : Transport.Endings} {r : Transport.WriteResult}
    {x : Except CommandError Broker.Ack} (hw : q.Waits log ⟨h, (q.task, r) :: es⟩)
    (hr : (h.broker.pushed q.task r.toBool h.now).1 = some x) (b : Broker) :
    q.Stage log ⟨{ h with broker := b }.finish q.task
      (commandAnswer (.tool q.order.command q.reply) x), es⟩ := by
  obtain ⟨c, hc⟩ := hw.call
  have hidle : (h.linesOf q.target q.task).1 = [] := hc.place.idle (by simp)
  rcases Broker.pushed_cases h.broker q.task r.toBool h.now with ⟨hnone, -⟩ | ⟨c', -, hend⟩
  · cases hnone.symm.trans hc.holds.held
  · rcases hend with ⟨-, heq⟩ | ⟨-, heq⟩
    · rw [heq] at hr
      cases hr
    · rw [heq] at hr
      cases hr
      exact hw.finish b hidle (.error ..)

theorem Waits.polled {h : Hub} {es : Transport.Endings} {x : Except CommandError Broker.Ack}
    (hw : q.Waits log ⟨h, es⟩) (hx : (h.broker.poll q.task h.now).1 = some x) (b : Broker) :
    q.Stage log ⟨{ h with broker := b }.finish q.task
      (commandAnswer (.tool q.order.command q.reply) x), es⟩ := by
  obtain ⟨c, hc⟩ := hw.call
  obtain ⟨-, deadline, hphase, hend⟩ := Broker.poll_cases hc.holds.held hx
  obtain ⟨hidle, htaken⟩ : (h.linesOf q.target q.task).1 = [] ∧
      (h.linesOf q.target q.task).2 = [q.frame] := by
    have hplace : q.At (h.linesOf q.target q.task) (entriesOf q.task es) c.phase := hc.place
    rw [hphase] at hplace
    generalize h.linesOf q.target q.task = lines at hplace
    generalize entriesOf q.task es = told at hplace
    cases hplace with
    | awaiting => exact ⟨rfl, rfl⟩
  refine hw.finish b hidle ?_
  rcases hend with ⟨a, hdelivered, rfl⟩ | ⟨e, rfl⟩
  · obtain ⟨y, hy, rfl⟩ := hc.mail hdelivered
    exact .acked hy htaken
  · exact .error ..

theorem Waits.abandoned {h : Hub} {es : Transport.Endings} {task : Task}
    (hw : q.Waits log ⟨h, es⟩) (hp : h.path = .streams) (ht : h.tasks.get? q.task = some task)
    (hc : task.isCall = true) :
    q.Stage (log ++ [.abandoned q.task]) ⟨(h.abandon q.task).2, es⟩ := by
  rw [abandon_eq hp ht hc]
  refine hw.over rfl (Table.get?_erase_self ..) (fun t => ?_) ?_
  · simp only [linesOf, transport?, Table.get?_mapValues]
    cases h.transports.get? t with
    | none => rfl
    | some state => exact linesOf_abandon_self state
  · have hnone : entriesOf q.task h.answers = [] := hw.answers
    show q.Outcome _ _ (entriesOf q.task h.answers)
    rw [hnone]
    exact .dropped (List.mem_append_right _ List.mem_cons_self)

/-- The stages of a command, from step to step. -/
theorem stage_step (hp : m.hub.path = .streams) (hb : Bound m) (h : q.Stage log m)
    (hs : Step m log' m') : q.Stage (log ++ log') m' := by
  rcases h with hw | ⟨taken, answers, ho⟩
  · cases course_step hp hb hs q.task (.inl hw.old) with
    | aside ha hapart => exact .inl (hw.apart ha hapart _)
    | acked ha hok hbroker => exact .inl (hw.acked ha hok hbroker)
    | moved ht =>
      rw [List.append_nil]
      exact .inl (hw.moved ht)
    | pushed ht hr =>
      rw [List.append_nil]
      exact .inl (hw.pushed hr)
    | failed ht hr =>
      cases hw.task.symm.trans ht
      rw [List.append_nil]
      exact hw.failed hr _
    | polled ht hr =>
      cases hw.task.symm.trans ht
      rw [List.append_nil]
      exact hw.polled hr _
    | abandoned ht hc => exact hw.abandoned hp ht hc
    | gone ht => cases hw.task.symm.trans ht
    | other ht hne =>
      cases hw.task.symm.trans ht
      exact absurd rfl (hne _)
  · exact .inr ⟨taken, answers, spent_step hp hb ho.spent hs, ho.elsewhere, ho.here,
      ho.outcome.mono _⟩

end Command

theorem stage_steps {q : Command} {log log' : List Mark} {m m' : Moment}
    (hp : m.hub.path = .streams) (hb : Bound m) (h : q.Stage log m) (hs : Steps m log' m') :
    q.Stage (log ++ log') m' := by
  let P (log : List Mark) (m : Moment) : Prop := Bound m ∧ q.Stage log m
  have hP : P (log ++ log') m' := by
    refine steps_induction (P := P) (fun m m' log log' hp hm hs => ?_) log hs hp ⟨hb, h⟩
    exact ⟨bound_step hp hm.1 hs, Command.stage_step hp hm.1 hm.2 hs⟩
  exact hP.2

theorem spent_exec {h : Hub} {k : TaskId} {taken : TransportId → List String}
    {answers : List Answer} (hp : h.path = .streams) (ht : h.tools = .standard)
    (hb : Bound ⟨h, []⟩) (hspent : Spent k taken answers ⟨h, []⟩) (actions : List Action) :
    Spent k taken answers ⟨h.exec actions, []⟩ := by
  let P (m : Moment) : Prop := Bound m ∧ Spent k taken answers m
  have hP : P ⟨h.exec actions, []⟩ := by
    refine schedule_induction hp ht ⟨hb, hspent⟩ (fun m m' log hp hm hs => ?_) actions
    exact ⟨bound_step hp hm.1 hs, spent_step hp hm.1 hm.2 hs⟩
  exact hP.2

/-! ## The call -/

/-- The stream that the command of a call has to take: that of the editor with the latest
snapshot. -/
structure Target (h : Hub) (call : ToolCall) (o : Broker.Order) (t : TransportId) : Prop where
  order : h.order? call = some o
  latest : h.snapshots.latest = some o.session
  bound : h.sessions.transport? o.session = some t

/-- The command that a call orders. -/
def commandOf (h : Hub) (call : ToolCall) (o : Broker.Order) (t : TransportId) : Command where
  task := h.nextTask
  order := o
  reply := .response call.id
  id := Broker.commandId h.wall (h.broker.sequence + 1)
  frame := h.commandFrame o
  target := t
  limit := o.limit h.broker.defaultTimeout

/-- A number that nothing knew belongs to a task that is over as soon as it is answered. -/
theorem Unused.spent {h h' : Hub} (hu : Unused ⟨h, []⟩ h.nextTask) {a : Answer}
    (hlast : h'.nextTask = h.nextTask + 1) (htask : h'.tasks.get? h.nextTask = none)
    (htransports : h'.transports = h.transports)
    (hanswers : h'.answers = h.answers ++ [(h.nextTask, a)]) :
    Spent h.nextTask (fun _ => []) [a] ⟨h', []⟩ := by
  refine ⟨?_, htask, fun t => ?_, ?_⟩
  · show h.nextTask < h'.nextTask
    exact hlast ▸ Nat.lt_succ_self _
  · have hsame : h'.linesOf t h.nextTask = h.linesOf t h.nextTask :=
      linesOf_congr (by rw [transport?, htransports]; rfl)
    exact hsame.trans (hu.lines t)
  · have hnone : entriesOf h.nextTask h.answers = [] := hu.answers
    show entriesOf h.nextTask h'.answers = [a]
    rw [hanswers, entriesOf_append, hnone, entriesOf_cons_self]
    rfl

/-- A command begins with its frame in the line of its target. -/
theorem stage_begun {h : Hub} (hu : Unused ⟨h, []⟩ h.nextTask) (call : ToolCall)
    (o : Broker.Order) {t : TransportId} {state : Transport} (ht : h.transport? t = some state) :
    (h.commandOf call o t).Stage []
      ⟨h.begun (.tool o.command (.response call.id)) o t state, []⟩ := by
  let state' := { state with line := state.line ++ [(h.nextTask, h.commandFrame o)] }
  have hline : state'.linesOf h.nextTask = ([h.commandFrame o], []) := by
    have hnone := hu.lines t
    rw [linesOf_of_transport? ht] at hnone
    obtain ⟨hwaiting, hsent⟩ := Prod.mk.inj hnone
    have hlast : state'.waiting = state.waiting ++ [(h.nextTask, h.commandFrame o)] :=
      (List.append_assoc ..).symm
    refine Prod.ext ?_ hsent
    show entriesOf h.nextTask state'.waiting = _
    rw [hlast, entriesOf_append, hwaiting, entriesOf_cons_self]
    rfl
  refine .inl ⟨Nat.lt_succ_self _, Table.get?_set_self .., fun u hu' => ?_, hu.answers, _,
    Broker.holds_enroll o h.wall hu.entries, rfl, rfl, rfl, nofun, ?_, nofun⟩
  · have hsame : (h.begun (.tool o.command (.response call.id)) o t state).linesOf u h.nextTask =
        h.linesOf u h.nextTask := linesOf_congr (Table.get?_set_of_ne _ _ hu')
    exact hsame.trans (hu.lines u)
  · have hhere : (h.begun (.tool o.command (.response call.id)) o t state).transport? t =
        some state' := Table.get?_set_self ..
    show (h.commandOf call o t).At (Hub.linesOf _ t h.nextTask) [] _
    rw [linesOf_of_transport? hhere, hline]
    exact .pushing

/-- A call that orders a command is refused, or its frame gets in the line of its target, and that
moves. -/
theorem request_ordered {h : Hub} (hp : h.path = .streams) (ht : h.tools = .standard)
    (hb : Bound ⟨h, []⟩) (hu : Unused ⟨h, []⟩ h.nextTask) {r : Http.Request} {call : ToolCall}
    {o : Broker.Order} (hcall : h.toolCall? r = some call) (ho : h.order? call = some o) :
    (h.request r).1 = h.nextTask ∧
    ((∃ e, (h.request r).2 =
        (h.callerSession r).2.refused (.tool o.command (.response call.id)) e) ∨
      ∃ t state, h.Target call o t ∧ h.transport? t = some state ∧ state.closed = false ∧
        (h.request r).2 =
          ((h.callerSession r).2.begun (.tool o.command (.response call.id)) o t state).settleTransport
            t { state with line := state.line ++ [(h.nextTask, h.commandFrame o)] } ∧
        (h.commandOf call o t).Stage [] ⟨(h.request r).2, []⟩) := by
  obtain ⟨sessions, n, hlooked, hseen⟩ := touched_callerSession h r
  let h' := { h with sessions := sessions, sessionsNamed := n }
  have hseen : (h.callerSession r).2 = h' := hseen
  have hservices : h'.services = h.services := rfl
  have htools : h'.tools = h.tools := rfl
  obtain ⟨-, hlatest, hrun⟩ := run_of_order? ht ho
  have hrequest : h.request r = h'.dispatch (.tool o.command (.response call.id)) o := by
    rw [request_of_toolCall hcall, hseen, execute, hservices, htools, hrun]
    rfl
  rw [hrequest, hseen]
  refine ⟨rfl, ?_⟩
  rcases dispatch_eq (h := h') hp (.tool o.command (.response call.id)) o with
    ⟨e, he⟩ | ⟨t, state, hbound, hstate, hc, heq⟩
  · exact .inl ⟨e, he⟩
  · have htarget : h.Target call o t := ⟨ho, hlatest, (hlooked.transport o.session).symm.trans hbound⟩
    refine .inr ⟨t, state, htarget, hstate, hc, heq, ?_⟩
    have hu' : Unused ⟨h', []⟩ h'.nextTask :=
      ⟨hu.task, hu.lines, hu.untold, hu.answers, hu.entries⟩
    have htouched : Step ⟨h, []⟩ [] ⟨h', []⟩ := .touched sessions n hlooked
    have hcalled : Step ⟨h', []⟩ [] ⟨h'.begun (.tool o.command (.response call.id)) o t state, []⟩ :=
      .called _ o hbound hstate hc
    have hstart := bound_step (m := ⟨h', []⟩) hp (bound_step (m := ⟨h, []⟩) hp hb htouched) hcalled
    have hstage := stage_begun hu' call o hstate
    rw [heq]
    exact stage_steps hp hstart hstage (settleTransport_steps (Table.get?_set_self ..))

/-- What a call of a tool that commands the editor begins with. -/
theorem request_command {h : Hub} (hp : h.path = .streams) (ht : h.tools = .standard)
    (hb : Bound ⟨h, []⟩) (hu : Unused ⟨h, []⟩ h.nextTask) {r : Http.Request} {call : ToolCall}
    (hcall : h.toolCall? r = some call) (hname : call.name ∈ Tool.commandTools) :
    (h.request r).1 = h.nextTask ∧
    ((∃ e, Tool.Mendable (ToolError.toRpc e) ∧ Spent h.nextTask (fun _ => [])
        [toolAnswer (.response call.id) (.error e)] ⟨(h.request r).2, []⟩) ∨
      ∃ o t, h.Target call o t ∧ (h.commandOf call o t).Stage [] ⟨(h.request r).2, []⟩) := by
  obtain ⟨sessions, n, hlooked, hseen⟩ := touched_callerSession h r
  let h' := { h with sessions := sessions, sessionsNamed := n }
  have hseen : (h.callerSession r).2 = h' := hseen
  have hservices : h'.services = h.services := rfl
  have htools : h'.tools = .standard := ht
  rcases Tool.execute_command hname call.args (h.toolContext (some call.session)) h.services with
    ⟨o, ho, -⟩ | ⟨e, he, hmend⟩
  · have horder : h.order? call = some o := by rw [order?, ht, ho]
    obtain ⟨hk, ⟨e, he⟩ | ⟨t, state, htarget, -, -, -, hstage⟩⟩ :=
      request_ordered hp ht hb hu hcall horder
    · refine ⟨hk, .inl ⟨_, Tool.mendable_notAvailable e.message, ?_⟩⟩
      rw [he, hseen]
      exact hu.spent rfl (Table.get?_erase_self ..) rfl rfl
    · exact ⟨hk, .inr ⟨o, t, htarget, hstage⟩⟩
  · rw [request_of_toolCall hcall, hseen, execute, hservices, htools, he]
    exact ⟨rfl, .inl ⟨e, hmend, hu.spent rfl hu.task rfl rfl⟩⟩

/-! ## Every call -/

/-- A call without an answer does not wait in vain: its frame is in a line where a turn will run
out, or it waits for its acknowledgement until a deadline, and both are near. -/
inductive Pends (h : Hub) (k : TaskId) (t : TransportId) (frame : String) (limit : Nanos) : Prop
  | inLine {state : Transport} {turn : Turn} : h.transport? t = some state →
      (k, frame) ∈ state.waiting → state.turn = some turn → h.now < turn.deadline →
      turn.deadline ≤ h.now + state.writeTimeout → Pends h k t frame limit
  | awaiting {c : Broker.Call} {deadline : Nanos} : h.sentBy t k = [frame] →
      h.broker.calls.get? k = some c → c.phase = .awaiting deadline → h.now < deadline →
      deadline ≤ h.now + limit → Pends h k t frame limit

/-- When everything waits, so does a command, for a while. -/
theorem Command.Waits.pends {q : Command} {log : List Mark} {h : Hub} (hw : q.Waits log ⟨h, []⟩)
    (htimed : h.Timed) (hs : h.Settled) : h.Pends q.task q.target q.frame q.limit := by
  obtain ⟨c, hc⟩ := hw.call
  have hplace : q.At (h.linesOf q.target q.task) [] c.phase := hc.place
  generalize hlines : h.linesOf q.target q.task = lines at hplace
  generalize hphase : c.phase = phase at hplace
  cases hplace with
  | pushing =>
    cases ht : h.transport? q.target with
    | none => simp [linesOf, ht] at hlines
    | some state =>
      rw [linesOf_of_transport? ht] at hlines
      have hwaiting : (q.task, q.frame) ∈ state.waiting := by
        rw [← mem_entriesOf, show entriesOf q.task state.waiting = [q.frame] from
          congrArg Prod.fst hlines]
        exact List.mem_cons_self
      -- a line that nothing moves has somebody in front whose time is not up
      have hrest : ¬ state.restless h.now = true := by
        have hstill := Option.bind_eq_none_iff.1 (hs.still (.transport q.target)) state ht
        intro hrestless
        simp [hrestless] at hstill
      cases hturn : state.turn with
      | none =>
        have hempty : state.line = [] := by simpa [Transport.restless, hturn] using hrest
        simp [Transport.waiting, hturn, hempty] at hwaiting
      | some turn =>
        refine .inLine ht hwaiting hturn ?_ (htimed _ _ ht turn hturn)
        simp [Transport.restless, hturn] at hrest
        exact hrest.2
  | awaiting deadline =>
    have hpoll : h.poll? q.task (.command (.tool q.order.command q.reply)) = none :=
      Option.bind_eq_none_iff.1 (hs.still (.task q.task)) _ hw.task
    refine .awaiting ?_ hc.holds.held hphase (hc.holds.poll_none hphase ?_) (hc.deadline hphase)
    · rw [sentBy_eq, hlines]
    · simp only [poll?] at hpoll
      split at hpoll
      · cases hpoll
      · next hx => rw [hx]

/-- What comes of a request that calls a tool which commands the editor, whatever happens before and
after. At most one frame is taken, and that by its target, a stream of no other session. The answer
tells of the acknowledgement that the same session gave for this command, and the frame was taken;
or it is an error: the editor is away, or the call is wrong. A call without an answer was dropped,
or it still waits. -/
def Routed (h₀ : Hub) (r : Http.Request) (call : ToolCall) (after : List Action) : Prop :=
  let k := (h₀.request r).1
  let h₁ := h₀.act (.event (.request r))
  let h := h₁.exec after
  (∀ t, h.sentBy t k = [] ∨ ∃ o, h₀.Target call o t ∧ h.sentBy t k = [h₀.commandFrame o] ∧
    ∀ s, (s, t) ∈ h.streams → s = o.session) ∧
  ((∃ o t x, h₀.Target call o t ∧ h.sentBy t k = [h₀.commandFrame o] ∧
      (∃ before r' rest, after = before ++ .event (.request r') :: rest ∧
        (h₁.exec before).AcceptsAck r' x) ∧
      x.session = o.session ∧
      x.ack.commandId = Broker.commandId h₀.wall (h₀.broker.sequence + 1) ∧
      h.answersTo k = [.response (ackResponse call.id o.command x)]) ∨
    (∃ message,
      h.answersTo k = [.response (errorResponse call.id (-32000) message "not_available")] ∨
      h.answersTo k = [.response (errorResponse call.id (-32602) message "invalid_params")]) ∨
    h.answersTo k = [] ∧ (.event (.abandon k) ∈ after ∨
      (h.Settled → ∃ o t, h₀.Target call o t ∧
        h.Pends k t (h₀.commandFrame o) (o.limit h₀.broker.defaultTimeout))))

/-- A stream is of one session. -/
theorem Bound.owner {h : Hub} (hb : Bound ⟨h, []⟩) {s s' : String} {t : TransportId}
    (hs : (s, t) ∈ h.streams) (hs' : (s', t) ∈ h.streams) : s = s' := by
  obtain ⟨state, ht, rfl⟩ := hb.streams.1 hs
  obtain ⟨state', ht', rfl⟩ := hb.streams.1 hs'
  cases ht.symm.trans ht'
  rfl

/-- What a task of a command has left behind, and whether it still waits, in every later state. -/
theorem Command.Stage.routed {q : Command} {log : List Mark} {h : Hub} (hq : q.Stage log ⟨h, []⟩)
    (htimed : h.Timed) :
    (∀ t, h.sentBy t q.task = [] ∨ t = q.target ∧ h.sentBy t q.task = [q.frame]) ∧
    ((∃ x, q.Acked log x ∧ h.sentBy q.target q.task = [q.frame] ∧ h.answersTo q.task =
        [toolAnswer q.reply (.ok (Tool.ofAck q.order.command (x.ack.stamped x.wall)))]) ∨
      (∃ e, Tool.Mendable (ToolError.toRpc e) ∧
        h.answersTo q.task = [toolAnswer q.reply (.error e)]) ∨
      h.answersTo q.task = [] ∧ (.abandoned q.task ∈ log ∨
        (h.Settled → h.Pends q.task q.target q.frame q.limit))) := by
  rcases hq with hw | ⟨taken, answers, ho⟩
  · refine ⟨fun t => ?_, .inr (.inr ⟨hw.answers, .inr (hw.pends htimed)⟩)⟩
    rw [sentBy_eq]
    by_cases ht : t = q.target
    · subst ht
      obtain ⟨c, hc⟩ := hw.call
      exact hc.place.taken.imp_right fun hframe => ⟨rfl, hframe⟩
    · exact .inl (congrArg Prod.snd (hw.elsewhere t ht))
  · have hsent (t : TransportId) : h.sentBy t q.task = taken t := by
      rw [sentBy_eq]
      exact congrArg Prod.snd (ho.spent.lines t)
    have hanswers : h.answersTo q.task = answers := ho.spent.answers
    refine ⟨fun t => ?_, ?_⟩
    · rw [hsent]
      by_cases ht : t = q.target
      · subst ht
        exact ho.here.imp_right fun hframe => ⟨rfl, hframe⟩
      · exact .inl (ho.elsewhere t ht)
    · rw [hsent, hanswers]
      cases ho.outcome with
      | acked hx htaken => exact .inl ⟨_, hx, htaken, rfl⟩
      | failed he => exact .inr (.inl ⟨_, he, rfl⟩)
      | dropped hm => exact .inr (.inr ⟨rfl, .inl hm⟩)

/-- What a command is answered, in every later state: its acknowledgement or an error. -/
theorem Command.Stage.answers {q : Command} {log : List Mark} {h : Hub} (hq : q.Stage log ⟨h, []⟩) :
    ∀ a ∈ h.answersTo q.task,
      (∃ e, Tool.Mendable (ToolError.toRpc e) ∧ a = toolAnswer q.reply (.error e)) ∨
      ∃ x, q.Acked log x ∧
        a = toolAnswer q.reply (.ok (Tool.ofAck q.order.command (x.ack.stamped x.wall))) := by
  intro a ha
  rcases hq with hw | ⟨taken, answers, ho⟩
  · have hnone : h.answersTo q.task = [] := hw.answers
    rw [hnone] at ha
    cases ha
  · have hanswers : h.answersTo q.task = answers := ho.spent.answers
    rw [hanswers] at ha
    cases ho.outcome with
    | acked hx => exact .inr ⟨_, hx, List.mem_singleton.1 ha⟩
    | failed he => exact .inl ⟨_, he, List.mem_singleton.1 ha⟩
    | dropped => cases ha

/-- Commands are routed to one stream and one acker, in every schedule. -/
theorem command_routed (config : Config) (ids : Nat → String) (before after : List Action)
    (r : Http.Request) {call : ToolCall}
    (hcall : ((Hub.new config ids).exec before).toolCall? r = some call)
    (hname : call.name ∈ Tool.commandTools) :
    ((Hub.new config ids).exec before).Routed r call after := by
  have hthen (after : List Action) :
      (Hub.new config ids).exec (before ++ .event (.request r) :: after) =
        (((Hub.new config ids).exec before).act (.event (.request r))).exec after := by
    rw [exec_append]
    rfl
  have hb := bound_exec config ids before
  have hb₁ := bound_exec config ids (before ++ .event (.request r) :: [])
  have hb₂ := bound_exec config ids (before ++ .event (.request r) :: after)
  have htimed := timed_exec config ids (before ++ .event (.request r) :: after)
  obtain ⟨hp, ht, -⟩ := sameSetting_exec (h := Hub.new config ids) rfl rfl before
  obtain ⟨hp₁, ht₁, -⟩ := sameSetting_exec (h := Hub.new config ids) rfl rfl
    (before ++ .event (.request r) :: [])
  rw [hthen] at hb₁ hb₂ htimed hp₁ ht₁
  rw [show ∀ h : Hub, h.exec [] = h from fun _ => rfl] at hb₁ hp₁ ht₁
  have hu := unused_exec config ids before _ (Nat.le_refl _)
  generalize (Hub.new config ids).exec before = h₀ at hcall hp ht hp₁ ht₁ hb hb₁ hb₂ hu htimed
  obtain ⟨hk, hcase⟩ := request_command hp ht hb hu hcall hname
  rw [Routed, hk]
  generalize hh₁ : h₀.act (.event (.request r)) = h₁ at hp₁ ht₁ hb₁ hb₂ htimed
  have hh₁ : (h₀.request r).2 = h₁ := hh₁
  rw [hh₁] at hcase
  have failed {answers : List Answer} {e : ToolError} (hmend : Tool.Mendable e.toRpc)
      (he : answers = [toolAnswer (.response call.id) (.error e)]) : ∃ message,
        answers = [.response (errorResponse call.id (-32000) message "not_available")] ∨
        answers = [.response (errorResponse call.id (-32602) message "invalid_params")] := by
    obtain ⟨message, hm⟩ := toolAnswer_mendable call.id hmend
    exact ⟨message, hm.imp (fun hm => by rw [he, hm]) fun hm => by rw [he, hm]⟩
  rcases hcase with ⟨e, hmend, hspent⟩ | ⟨o, t, htarget, hstage⟩
  · have hspent := spent_exec hp₁ ht₁ hb₁ hspent after
    refine ⟨fun t => .inl ?_, .inr (.inl (failed hmend hspent.answers))⟩
    rw [sentBy_eq]
    exact congrArg Prod.snd (hspent.lines t)
  · obtain ⟨log, hlog, hmarks⟩ := exec_steps hp₁ ht₁ after
    have hstage := stage_steps hp₁ hb₁ hstage hlog
    obtain ⟨hframes, hends⟩ := hstage.routed htimed
    have hstream : (o.session, t) ∈ (h₁.exec after).streams := by
      have hold : (o.session, t) ∈ h₀.streams := hb.streams.2 (hb.bound htarget.bound)
      have hcalled : h₀.answers <+: (h₀.request r).2.answers :=
        answers_exec hp ht [.event (.request r)]
      rw [hh₁] at hcalled
      exact ((hcalled.trans (answers_exec hp₁ ht₁ after)).filterMap _).subset hold
    refine ⟨fun u => (hframes u).imp_right ?_, ?_⟩
    · rintro ⟨rfl, hframe⟩
      exact ⟨o, htarget, hframe, fun s hs => hb₂.owner hs hstream⟩
    · rcases hends with ⟨x, hx, hframe, hanswer⟩ | ⟨e, he, hanswer⟩ | ⟨hnone, hwhy⟩
      · obtain ⟨before', a, rest, hafter, r', rfl, haccepts⟩ := hmarks _ hx.mark
        have hanswer : (h₁.exec after).answersTo h₀.nextTask =
            [toolAnswer (.response call.id) (.ok (Tool.ofAck o.command (x.ack.stamped x.wall)))] :=
          hanswer
        rw [toolAnswer_ofAck call.id o.command haccepts.wellFormed] at hanswer
        exact .inl ⟨o, t, x, htarget, hframe, ⟨before', r', rest, hafter, haccepts⟩, hx.session,
          hx.id, hanswer⟩
      · exact .inr (.inl (failed he hanswer))
      · refine .inr (.inr ⟨hnone, hwhy.imp (fun hm => ?_) fun hpends hs => ?_⟩)
        · obtain ⟨before', a, rest, rfl, rfl⟩ := hmarks _ hm
          exact List.mem_append_right _ List.mem_cons_self
        · exact ⟨o, t, htarget, hpends hs⟩

/-- An editor has a stream and a snapshot, and another client has a session. -/
def editing : List Action :=
  [sampleHandshake, sampleReady "S1", sampleStream "S1",
    .event (.request (sampleCall "S1" "bridge_sync_snapshot" [])), sampleHandshake]

/-- The client stops the project. -/
def stopping : Http.Request := sampleCall "S2" "stop_project" []

/-- The editor acknowledges the first command, and the call looks. -/
def acknowledging : List Action :=
  [.event (.request (sampleCall "S1" "bridge_ack_command"
    [("commandId", .str "cmd-1704067200000000000-1"), ("success", .bool true)])), .move (.task 6)]

theorem command_routed_stopping :
    let h₀ := (Hub.new .default sampleId).exec editing
    let h := (h₀.act (.event (.request stopping))).exec acknowledging
    (h₀.toolCall? stopping = some ⟨"S2", .int 7, "stop_project", .obj []⟩ ∧
      (h₀.request stopping).1 = 6 ∧ (h.sentBy 0 6).length = 1 ∧ (h.answersTo 6).length = 1) ∧
    "stop_project" ∈ Tool.commandTools ∧
    h₀.Routed stopping ⟨"S2", .int 7, "stop_project", .obj []⟩ acknowledging := by
  intro h₀ h
  have ran : h₀.toolCall? stopping = some ⟨"S2", .int 7, "stop_project", .obj []⟩ ∧
      (h₀.request stopping).1 = 6 ∧ (h.sentBy 0 6).length = 1 ∧
      (h.answersTo 6).length = 1 := by decide +kernel
  have named : "stop_project" ∈ Tool.commandTools := by decide
  exact ⟨ran, named, command_routed .default sampleId editing acknowledging stopping ran.1 named⟩

end EditorBridge.Hub
