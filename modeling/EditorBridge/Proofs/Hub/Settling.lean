import EditorBridge.Proofs.Hub.Schedule
import EditorBridge.Proofs.Table
/-!
# How everything comes to rest

`work` bounds the moves that are left before everything waits. A writer in line
counts two, since it may get its turn first and end later, and a writer whose
turn it is counts one; a task counts one, and a beat that is due three more,
since its frame goes in line. Every move takes something from this, and a bridge
that is told how writes ended gets no more work by it, so `settle` ends where
nothing can move.
-/

namespace EditorBridge

/-! ## Tables -/

namespace Table

variable {κ α : Type} [DecidableEq κ]

/-- The weight of a table whose values have weights. -/
def weigh (f : α → Nat) : Table κ α → Nat
  | [] => 0
  | (_, a) :: rest => f a + weigh f rest

variable (f : α → Nat) {t : Table κ α} {k : κ}

theorem foldl_eq_weigh {ι : Type} (t : Table ι α) (n : Nat) :
    t.foldl (fun n (_, a) => n + f a) n = n + t.weigh f := by
  induction t generalizing n with
  | nil => rfl
  | cons p t ih =>
    obtain ⟨k, a⟩ := p
    rw [List.foldl_cons, ih, weigh, Nat.add_assoc]

theorem weigh_set {a : α} (h : t.get? k = some a) (b : α) :
    (t.set k b).weigh f + f a = t.weigh f + f b := by
  induction t with
  | nil => cases h
  | cons p t ih =>
    rw [get?_cons] at h
    split at h
    · next hp =>
      cases h
      simp only [set, if_pos hp, weigh]
      omega
    · next hp =>
      simp only [set, if_neg hp, weigh]
      have := ih h
      omega

theorem weigh_erase_le (t : Table κ α) (k : κ) : (t.erase k).weigh f ≤ t.weigh f := by
  induction t with
  | nil => exact Nat.le_refl _
  | cons p t ih =>
    rw [erase_cons]
    split <;> simp only [weigh] <;> omega

theorem weigh_erase {a : α} (h : t.get? k = some a) :
    (t.erase k).weigh f + f a ≤ t.weigh f := by
  induction t with
  | nil => cases h
  | cons p t ih =>
    have hle := weigh_erase_le f t k
    rw [get?_cons] at h
    rw [erase_cons]
    split at h
    · next hp =>
      cases h
      simp only [if_pos hp, weigh]
      omega
    · next hp =>
      have := ih h
      simp only [if_neg hp, weigh]
      omega

theorem weigh_modify {g : α → α} (hg : ∀ a, f (g a) = f a) (t : Table κ α) (k : κ) :
    (t.modify k g).weigh f = t.weigh f := by
  unfold modify
  split
  · next a ha =>
    have := weigh_set f ha (g a)
    rw [hg] at this
    omega
  · rfl

end Table

/-! ## The work of a transport -/

namespace Transport

open Hub (transportWork)

theorem giveTurns_work (now : Nanos) (line : List (WriterId × String)) (t : Transport)
    (ht : t.turn = none) : transportWork (giveTurns now line t).1 ≤ 2 * line.length ∧
      (line ≠ [] → transportWork (giveTurns now line t).1 < 2 * line.length) := by
  induction line generalizing t with
  | nil => simp [giveTurns, transportWork, ht]
  | cons w line ih =>
    obtain ⟨writer, frame⟩ := w
    have next (u : Transport) (r : WriteResult) (hu : u.turn = none) :
        transportWork (giveTurns now line (u.leave r)).1 < 2 * (line.length + 1) := by
      have := (ih (u.leave r) (by simpa using hu)).1
      omega
    suffices transportWork (giveTurns now ((writer, frame) :: line) t).1 < 2 * (line.length + 1) from
      ⟨Nat.le_of_lt this, fun _ => this⟩
    unfold giveTurns
    split_ifs
    · exact next _ _ ht
    · exact next _ _ ht
    · exact next _ _ ht
    · exact next _ _ ht
    · simp [transportWork]
      omega

/-- A transport that moves loses work, if it is restless. -/
theorem settle_work (now : Nanos) (t : Transport) :
    transportWork (settle now t).1 ≤ transportWork t ∧
      (t.restless now = true → transportWork (settle now t).1 < transportWork t) := by
  unfold settle restless
  cases hturn : t.turn with
  | none =>
    obtain ⟨hle, hlt⟩ := giveTurns_work now t.line t hturn
    have hwork : transportWork t = 2 * t.line.length := by simp [transportWork, hturn]
    rw [hwork]
    exact ⟨hle, fun hrestless => hlt (by simpa using hrestless)⟩
  | some turn =>
    have hwork : transportWork t = 2 * t.line.length + 1 := by simp [transportWork, hturn]
    have ends (u : Transport) (r : WriteResult) (hline : u.line = t.line) :
        transportWork (endTurn now turn.writer r u).1 < transportWork t := by
      have given : transportWork (endTurn now turn.writer r u).1 ≤ 2 * u.line.length :=
        (giveTurns_work now u.line _ (turn_leave ..)).1
      rewrite [hline] at given
      rw [hwork]
      exact Nat.lt_succ_of_le given
    dsimp only
    split_ifs with hreceiving hroom htime
    · exact ⟨Nat.le_of_lt (ends _ _ rfl), fun _ => ends _ _ rfl⟩
    · exact ⟨Nat.le_of_lt (ends _ _ rfl), fun _ => ends _ _ rfl⟩
    · exact ⟨Nat.le_of_lt (ends _ _ rfl), fun _ => ends _ _ rfl⟩
    · refine ⟨Nat.le_refl _, fun hrestless => ?_⟩
      simp [hreceiving, hroom, htime] at hrestless

end Transport

namespace Hub

open Moment (Step Steps)

/-! ## The work of a bridge -/

theorem work_eq (h : Hub) : h.work =
    h.tasks.weigh h.taskWork + h.transports.weigh transportWork + pathWork h.path := by
  rw [work, Table.foldl_eq_weigh, Table.foldl_eq_weigh]
  omega

theorem taskWork_congr {h h' : Hub} (hnow : h'.now = h.now) (hconfig : h'.config = h.config) :
    h'.taskWork = h.taskWork := by
  funext task
  unfold taskWork
  rw [hnow, hconfig]

/-- Tasks and transports have not gained what others have not lost. -/
theorem work_le {h h' : Hub} {n : Nat} (hnow : h'.now = h.now) (hconfig : h'.config = h.config)
    (hpath : h'.path = h.path)
    (hweigh : h'.tasks.weigh h.taskWork + h'.transports.weigh transportWork + n ≤
      h.tasks.weigh h.taskWork + h.transports.weigh transportWork) : h'.work + n ≤ h.work := by
  rw [work_eq, work_eq, taskWork_congr hnow hconfig, hpath]
  omega

theorem work_finish {h : Hub} {id : TaskId} {task : Task} (a : Answer) (b : Broker)
    (ht : h.tasks.get? id = some task) :
    ({ h with broker := b }.finish id a).work + h.taskWork task ≤ h.work := by
  refine work_le rfl rfl rfl ?_
  have := Table.weigh_erase h.taskWork ht
  show (h.tasks.erase id).weigh _ + h.transports.weigh _ + _ ≤ _
  omega

theorem work_endLoop {h : Hub} {id : TaskId} {task : Task} (t : TransportId)
    (ht : h.tasks.get? id = some task) : (h.endLoop id t).work + h.taskWork task ≤ h.work := by
  rw [endLoop_eq]
  refine work_le rfl rfl rfl ?_
  have := Table.weigh_erase h.taskWork ht
  have hsame := Table.weigh_modify transportWork (g := shut) (fun _ => rfl) h.transports t
  show (h.tasks.erase id).weigh _ + (h.transports.modify t shut).weigh _ + _ ≤ _
  omega

theorem work_setTask {h : Hub} {id : TaskId} {task task' : Task} {n : Nat}
    (ht : h.tasks.get? id = some task) (hle : h.taskWork task' + n ≤ h.taskWork task) :
    Hub.work { h with tasks := h.tasks.set id task' } + n ≤ h.work := by
  refine work_le rfl rfl rfl ?_
  have := Table.weigh_set h.taskWork ht task'
  show (h.tasks.set id task').weigh _ + h.transports.weigh _ + _ ≤ _
  omega

theorem work_putTransport {h : Hub} {t : TransportId} {state state' : Transport} {n : Nat}
    (ht : h.transport? t = some state)
    (hle : transportWork state' + n ≤ transportWork state) :
    (h.putTransport t state').work + n ≤ h.work := by
  refine work_le rfl rfl rfl ?_
  have := Table.weigh_set transportWork ht state'
  show h.tasks.weigh _ + (h.transports.set t state').weigh _ + _ ≤ _
  omega

/-- A beat that is not due yet brings no work. -/
theorem dueTicks_future (now interval : Nanos) (hi : interval ≠ 0) :
    dueTicks now (now + interval) interval = 0 :=
  if_pos (Nat.lt_add_of_pos_right (Nat.pos_of_ne_zero hi))

/-- One tick later, one tick less is due. -/
theorem dueTicks_next {now next interval : Nanos} (hi : interval ≠ 0) (hn : next ≤ now) :
    dueTicks now (next + interval) interval + 1 = dueTicks now next interval := by
  have hpos : 0 < interval := Nat.pos_of_ne_zero hi
  unfold dueTicks
  rw [if_neg (Nat.not_lt.2 hn)]
  split_ifs with hlt
  · rw [Nat.div_eq_of_lt (Nat.sub_lt_left_of_lt_add hn hlt)]
  · have hle : interval ≤ now - next := Nat.le_sub_of_add_le' (Nat.not_lt.1 hlt)
    rw [Nat.div_eq_sub_div hpos hle, Nat.sub_add_eq]

/-- To be told how writes ended brings no work. -/
theorem work_deliver (h : Hub) (id : TaskId) (r : Transport.WriteResult) :
    (h.deliver id r).work ≤ h.work := by
  unfold deliver
  split
  · next ht => exact Nat.le_of_add_right_le (work_finish _ h.broker ht)
  · next ht => exact Nat.le_of_add_right_le (work_finish _ h.broker ht)
  · next reply ht =>
    dsimp only
    split
    · exact Nat.le_of_add_right_le (work_finish _ _ ht)
    · exact Nat.le_refl _
  · next t ht =>
    dsimp only
    split_ifs with hi
    · have := Table.weigh_erase_le h.taskWork h.tasks id
      refine work_le (n := 0) rfl rfl rfl ?_
      show (h.tasks.erase id).weigh _ + h.transports.weigh _ + _ ≤ _
      omega
    · refine work_setTask (n := 0) ht ?_
      simp [taskWork, dueTicks_future _ _ hi]
  · next t next ht =>
    split
    · exact work_setTask (n := 0) ht (Nat.le_refl _)
    · exact Nat.le_of_add_right_le (work_endLoop t ht)
  · exact Nat.le_refl _

theorem work_deliverAll (h : Hub) (es : Transport.Endings) : (h.deliverAll es).work ≤ h.work := by
  induction es generalizing h with
  | nil => exact Nat.le_refl _
  | cons e es ih => exact Nat.le_trans (ih (h.deliver e.1 e.2)) (work_deliver h e.1 e.2)

/-- A restless transport moves, and there is less work. -/
theorem work_settleTransport {h : Hub} {t : TransportId} {state : Transport}
    (ht : h.transport? t = some state) : (h.settleTransport t state).work ≤ h.work ∧
      (state.restless h.now = true → (h.settleTransport t state).work < h.work) := by
  obtain ⟨hle, hlt⟩ := Transport.settle_work h.now state
  have told := work_deliverAll (h.putTransport t (state.settle h.now).1) (state.settle h.now).2
  refine ⟨Nat.le_trans told (work_putTransport (n := 0) ht hle), fun hrestless => ?_⟩
  exact Nat.lt_of_le_of_lt told (work_putTransport (n := 1) ht (hlt hrestless))

theorem work_closeIfAny (h : Hub) (t : Option TransportId) : (h.closeIfAny t).work = h.work := by
  rw [closeIfAny_eq, work_eq, work_eq]
  cases t with
  | none => rfl
  | some t =>
    have := Table.weigh_modify transportWork (g := shut) (fun _ => rfl) h.transports t
    show h.tasks.weigh _ + (h.transports.modify t shut).weigh _ + _ = _
    rw [this]
    rfl

theorem work_endSession (h : Hub) (session : String) : (h.endSession session).2.work = h.work := by
  unfold endSession
  split
  · rfl
  · exact work_closeIfAny { h with sessions := h.sessions.erase session } _

theorem work_sweep (h : Hub) (timeout : Nanos) : (h.sweep timeout).2.work = h.work := by
  unfold sweep
  generalize h.sessions.idle timeout h.now = idle
  induction idle generalizing h with
  | nil => rfl
  | cons session idle ih => exact (ih (h.endSession session).2).trans (work_endSession h session)

/-! ## What keeps ticking -/

/-- A task that ticks has an interval. -/
def Ticks (interval : Nanos) : Task → Prop
  | .pushLoop _ (.resting _) | .pushLoop _ (.beating _) => interval ≠ 0
  | .sweeper _ interval _ => interval ≠ 0
  | _ => True

/-- No key stands twice in a table, and whatever ticks has an interval. -/
structure Orderly (h : Hub) : Prop where
  tasks : h.tasks.keys.Nodup
  transports : h.transports.keys.Nodup
  ticks : ∀ {id task}, h.tasks.get? id = some task → Ticks h.config.keepaliveInterval task

namespace Orderly

variable {h h' : Hub}

theorem same (ho : Orderly h) (hconfig : h'.config = h.config) (htasks : h'.tasks = h.tasks)
    (htransports : h'.transports.keys.Nodup) : Orderly h' :=
  ⟨htasks ▸ ho.tasks, htransports, fun ht => hconfig ▸ ho.ticks (htasks ▸ ht)⟩

theorem set (ho : Orderly h) {id : TaskId} {task : Task} (hconfig : h'.config = h.config)
    (htasks : h'.tasks = h.tasks.set id task) (hticks : Ticks h.config.keepaliveInterval task)
    (htransports : h'.transports.keys.Nodup) : Orderly h' := by
  refine ⟨htasks ▸ Table.nodup_set id task ho.tasks, htransports, fun {w task'} ht => ?_⟩
  rw [hconfig]
  rcases Table.of_get?_set (htasks ▸ ht) with ⟨-, rfl⟩ | ⟨-, hold⟩
  · exact hticks
  · exact ho.ticks hold

theorem erase (ho : Orderly h) {id : TaskId} (hconfig : h'.config = h.config)
    (htasks : h'.tasks = h.tasks.erase id) (htransports : h'.transports.keys.Nodup) :
    Orderly h' := by
  refine ⟨htasks ▸ Table.nodup_erase id ho.tasks, htransports, fun {w task} ht => ?_⟩
  rw [hconfig]
  exact ho.ticks (Table.of_get?_erase (htasks ▸ ht)).2

theorem putTransport (ho : Orderly h) (t : TransportId) (state : Transport) :
    (h.transports.set t state).keys.Nodup := Table.nodup_set t state ho.transports

theorem shutAny (ho : Orderly h) (o : Option TransportId) :
    (Hub.shutAny h.transports o).keys.Nodup := by
  cases o with
  | none => exact ho.transports
  | some t => exact Table.nodup_modify t shut ho.transports

theorem subscribed (ho : Orderly h) {session : String} {s : Session}
    (hs : h.sessions.get? session = some s) : Orderly (h.startStream session).2 := by
  rw [startStream_eq hs]
  let fresh := Transport.opened session h.config.sseBuffer h.config.sseWriteTimeout
  let opened := { h with transports := h.transports.set h.nextTransport fresh }
  have hopened : Orderly opened := ho.same rfl rfl (ho.putTransport ..)
  let greeting := { opened with
    tasks := h.tasks.set h.nextTask (.pushLoop h.nextTransport .greeting)
    transports := Hub.shutAny opened.transports (supplanted s h.nextTransport) }
  have hgreeting : Orderly greeting := hopened.set rfl rfl trivial (hopened.shutAny _)
  have htransports := hgreeting.putTransport h.nextTransport (h.freshStream session h.nextTask)
  by_cases hi : h.config.keepaliveInterval = 0
  · exact hgreeting.erase rfl (if_pos hi) htransports
  · exact hgreeting.set rfl (if_neg hi) hi htransports

end Orderly

theorem orderly_step {m m' : Moment} {log : List Mark} (hp : m.hub.path = .streams)
    (ho : Orderly m.hub) (hs : Step m log m') : Orderly m'.hub := by
  cases hs with
  | touched | stored | acked | ticked | answered | unheard | pushed =>
    exact ho.same rfl rfl ho.transports
  | @ended h es session =>
    cases hx : h.sessions.get? session with
    | none =>
      rw [endSession_of_none hx]
      exact ho
    | some s =>
      rw [endSession_eq hx]
      exact ho.same rfl rfl (ho.shutAny _)
  | subscribed hx => exact ho.subscribed hx
  | @refused h es reply e =>
    have hspawn : Orderly (h.spawn (.command reply)).2 := ho.set rfl rfl trivial ho.transports
    exact hspawn.erase rfl rfl ho.transports
  | called => exact ho.set rfl rfl trivial (ho.putTransport ..)
  | read | deserted | moved => exact ho.same rfl rfl (ho.putTransport ..)
  | abandoned ht hc =>
    rw [abandon_eq hp ht hc]
    refine ho.erase rfl rfl ?_
    simpa [Table.keys, Function.comp_def] using ho.transports
  | sweeping timeout hi => exact ho.set rfl rfl hi ho.transports
  | rested ht =>
    have hi := ho.ticks ht
    exact ho.set rfl rfl hi ho.transports
  | beat hid =>
    have hi := ho.ticks hid
    exact ho.set rfl rfl hi (ho.putTransport ..)
  | loopEnded | broken =>
    rw [endLoop_eq]
    exact ho.erase rfl rfl (Table.nodup_modify _ shut ho.transports)
  | watched | polled | wrote | failed | silenced => exact ho.erase rfl rfl ho.transports
  | greeted r ht hi => exact ho.set rfl rfl hi ho.transports
  | beaten ht =>
    have hi := ho.ticks ht
    exact ho.set rfl rfl hi ho.transports

theorem orderly_new (config : Config) (ids : Nat → String) : Orderly (.new config ids) :=
  ⟨List.nodup_nil, List.nodup_nil, fun ht => by cases ht⟩

theorem orderly_exec {h : Hub} (hp : h.path = .streams) (ht : h.tools = .standard)
    (ho : Orderly h) (actions : List Action) : Orderly (h.exec actions) :=
  schedule_induction (P := fun m => Orderly m.hub) hp ht ho
    (fun _ _ _ hp hm hs => orderly_step hp hm hs) actions

/-! ## Every move -/

/-- A task that takes a step leaves less work. -/
theorem work_poll {h h' : Hub} {id : TaskId} {task : Task} (ho : Orderly h)
    (ht : h.tasks.get? id = some task) (hm : h.poll? id task = some h') : h'.work < h.work := by
  cases task with
  | write => cases hm
  | push => cases hm
  | closed t =>
    obtain ⟨-, hm⟩ := Option.ite_none_right_eq_some.1 hm
    cases hm
    exact work_finish _ h.broker ht
  | disconnected t =>
    obtain ⟨-, hm⟩ := Option.ite_none_left_eq_some.1 hm
    cases hm
    exact work_finish _ h.broker ht
  | command reply =>
    simp only [poll?] at hm
    split at hm
    · cases hm
      exact work_finish _ _ ht
    · cases hm
  | pushLoop t phase =>
    cases phase with
    | greeting => cases hm
    | beating next => cases hm
    | resting next =>
      have hi : h.config.keepaliveInterval ≠ 0 := ho.ticks ht
      simp only [poll?] at hm
      split_ifs at hm with hc hn
      · cases hm
        have hwork := work_endLoop t ht
        simp only [taskWork] at hwork
        omega
      · cases hm
        have hc : h.isClosed t = false := by simp at hc; exact hc.1
        obtain ⟨state, hstate, hc⟩ := isClosed_eq_false_iff.1 hc
        let beating := Task.pushLoop t (.beating (next + h.config.keepaliveInterval))
        let h₁ := { h with tasks := h.tasks.set id beating }
        let state' := { state with line := state.line ++ [(id, Sse.comment "keep-alive")] }
        have hstate₁ : h₁.transport? t = some state := hstate
        rw [writeTo_eq id _ hstate₁ hc]
        -- the beat that is no longer due is worth more than its frame in the line
        have hput : (h₁.putTransport t state').work + 1 ≤ h.work := by
          have htasks := Table.weigh_set h.taskWork ht beating
          have htransports := Table.weigh_set transportWork hstate state'
          have hbeat : h.taskWork beating + 3 = h.taskWork (.pushLoop t (.resting next)) := by
            have := dueTicks_next hi hn
            simp only [beating, taskWork]
            omega
          have hline : transportWork state' = transportWork state + 2 := by
            simp only [transportWork, state', List.length_append, List.length_singleton]
            omega
          refine work_le rfl rfl rfl ?_
          show (h.tasks.set id beating).weigh _ + (h.transports.set t state').weigh _ + _ ≤ _
          omega
        refine Nat.lt_of_le_of_lt (work_settleTransport ?_).1 hput
        exact Table.get?_set_self ..
  | sweeper timeout interval next =>
    have hi : interval ≠ 0 := ho.ticks ht
    obtain ⟨hn, hm⟩ := Option.ite_none_right_eq_some.1 hm
    cases hm
    have hsame := tasks_sweep h timeout
    have hdue : (h.sweep timeout).2.taskWork (.sweeper timeout interval (next + interval)) + 1 =
        (h.sweep timeout).2.taskWork (.sweeper timeout interval next) := by
      simp only [taskWork, now_sweep]
      exact dueTicks_next hi hn
    have hset := work_setTask (hsame ▸ ht) (Nat.le_of_eq hdue)
    rw [work_sweep] at hset
    exact hset

/-- A step is a move, and there is less work after it. -/
theorem step?_cases {h h' : Hub} (hp : h.path = .streams) (ho : Orderly h)
    (hs : h.step? = some h') : ∃ m, h.move? m = some h' ∧ h'.work < h.work := by
  unfold step? at hs
  split at hs
  · next t state hfind =>
    cases hs
    have ht : h.transport? t = some state :=
      Table.get?_of_mem ho.transports (List.mem_of_find?_eq_some hfind)
    have hrestless : state.restless h.now = true := by simpa using List.find?_some hfind
    exact ⟨.transport t, by simp [move?, ht, hrestless], (work_settleTransport ht).2 hrestless⟩
  · split at hs
    · next harrival =>
      simp [arrival?, hp] at harrival
    · obtain ⟨⟨id, task⟩, hmem, hpoll⟩ := List.exists_of_findSome?_eq_some hs
      have ht := Table.get?_of_mem ho.tasks hmem
      exact ⟨.task id, by simp [move?, ht, hpoll], work_poll ho ht hpoll⟩

/-- When everything waits, nothing can move. -/
theorem Settled.still {h : Hub} (hs : h.Settled) (m : Mover) : h.move? m = none := by
  unfold Settled step? at hs
  split at hs
  · cases hs
  · next hrest =>
    split at hs
    · cases hs
    · next harrival =>
      cases m with
      | loopback => exact harrival
      | transport t =>
        refine Option.bind_eq_none_iff.2 fun state ht => if_neg ?_
        exact List.find?_eq_none.1 hrest _ (Table.mem_of_get? ht)
      | task id =>
        refine Option.bind_eq_none_iff.2 fun task ht => ?_
        exact List.findSome?_eq_none_iff.1 hs _ (Table.mem_of_get? ht)

/-- As many moves as there is work are enough for everything to wait. -/
theorem runFor_settled {h : Hub} (hp : h.path = .streams) (ht : h.tools = .standard)
    (ho : Orderly h) {n : Nat} (hn : h.work ≤ n) :
    (runFor n h).Settled ∧ ∃ moves : List Mover, runFor n h = h.exec (moves.map .move) := by
  induction n generalizing h with
  | zero =>
    refine ⟨Option.eq_none_iff_forall_ne_some.2 fun h' hs => ?_, [], rfl⟩
    obtain ⟨-, -, hlt⟩ := step?_cases hp ho hs
    omega
  | succ n ih =>
    cases hs : h.step? with
    | none =>
      have hsame : runFor (n + 1) h = h := by simp [runFor, hs]
      rw [hsame]
      exact ⟨hs, [], rfl⟩
    | some h' =>
      obtain ⟨m, hm, hlt⟩ := step?_cases hp ho hs
      have hact : h.act (.move m) = h' := by simp [act, hm]
      have hexec : h.exec [.move m] = h' := hact
      obtain ⟨hp', ht', -⟩ := sameSetting_exec hp ht [.move m]
      have ho' := orderly_exec hp ht ho [.move m]
      rw [hexec] at hp' ht' ho'
      obtain ⟨hsettled, moves, he⟩ := ih (hp'.trans hp) (ht'.trans ht) ho' (by omega)
      have hnext : runFor (n + 1) h = runFor n h' := by simp [runFor, hs]
      rw [hnext]
      refine ⟨hsettled, m :: moves, he.trans ?_⟩
      rw [List.map_cons, exec, exec, List.foldl_cons, hact]

/-- `settle` lets moves happen until everything waits. -/
theorem settle_settled {h : Hub} (hp : h.path = .streams) (ht : h.tools = .standard)
    (ho : Orderly h) :
    h.settle.Settled ∧ ∃ moves : List Mover, h.settle = h.exec (moves.map .move) :=
  runFor_settled hp ht ho (Nat.le_refl _)

/-- So a run is a schedule, of which it sees the states in which everything waits. -/
theorem run_settled {h : Hub} (hp : h.path = .streams) (ht : h.tools = .standard)
    (ho : Orderly h) (hs : h.Settled) (events : List Event) :
    (h.run events).Settled ∧ ∃ actions, h.run events = h.exec actions := by
  induction events generalizing h with
  | nil => exact ⟨hs, [], rfl⟩
  | cons e events ih =>
    obtain ⟨hp₁, ht₁, -⟩ := sameSetting_exec hp ht [.event e]
    obtain ⟨hsettled, moves, hmoves⟩ :=
      settle_settled (hp₁.trans hp) (ht₁.trans ht) (orderly_exec hp ht ho [.event e])
    have hafter : h.after e = h.exec (.event e :: moves.map .move) := hmoves
    obtain ⟨hp₂, ht₂, -⟩ := sameSetting_exec hp ht (.event e :: moves.map .move)
    have ho₂ := orderly_exec hp ht ho (.event e :: moves.map .move)
    rw [← hafter] at hp₂ ht₂ ho₂
    obtain ⟨hend, actions, hactions⟩ := ih (hp₂.trans hp) (ht₂.trans ht) ho₂ hsettled
    refine ⟨hend, .event e :: moves.map .move ++ actions, ?_⟩
    rw [exec_append, ← hafter]
    exact hactions

end Hub

end EditorBridge
