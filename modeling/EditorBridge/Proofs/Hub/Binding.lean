import EditorBridge.Proofs.Hub.Settling
/-!
# Which stream a session is bound to

A transport is open exactly as long as its session is bound to it, but for one
interval: a write of somebody else's may close it while its loop rests, and then
the loop is the one that can move, and will unbind it. A loop that does not rest
waits for a write of its own, which nobody is left waiting for on a closed
transport. So when everything waits, a session is bound to its last stream if
that is open, and otherwise to none, in whatever order the loops came to their
ends.
-/

namespace EditorBridge.Hub

open Moment (Step Steps)
open Transport (Endings)

/-! ## The invariant -/

/-- How sessions, transports and loops hang together. -/
structure Bound (m : Moment) : Prop where
  taskFresh : ∀ {id task}, m.hub.tasks.get? id = some task → id < m.hub.nextTask
  transportFresh : ∀ {t state}, m.hub.transport? t = some state → t < m.hub.nextTransport
  /-- A session is bound to a transport of its own. -/
  bound : ∀ {s t}, m.hub.sessions.transport? s = some t →
    ∃ state, m.hub.transport? t = some state ∧ state.session = s
  /-- To an open transport its session is bound. -/
  kept : ∀ {t state}, m.hub.transport? t = some state → state.closed = false →
    m.hub.sessions.transport? state.session = some t
  /-- Behind a bound transport there is a loop, unless it died for want of an interval. -/
  loop : m.hub.config.keepaliveInterval ≠ 0 → ∀ {s t}, m.hub.sessions.transport? s = some t →
    ∃ id phase, m.hub.tasks.get? id = some (.pushLoop t phase)
  /-- For a bound transport nobody waits once it is closed. -/
  flushed : ∀ {s t state}, m.hub.sessions.transport? s = some t →
    m.hub.transport? t = some state → state.Flushed
  /-- A loop rests, or waits for its write, or has yet to be told how that ended. -/
  loops : ∀ {id t phase}, m.hub.tasks.get? id = some (.pushLoop t phase) →
    (∃ next, phase = .resting next) ∨
    (∃ state frame, m.hub.transport? t = some state ∧ (id, frame) ∈ state.waiting) ∨
    ∃ r, (id, r) ∈ m.untold
  /-- The streams that were answered are the transports. -/
  streams : ∀ {s t}, (s, t) ∈ m.hub.streams ↔
    ∃ state, m.hub.transport? t = some state ∧ state.session = s
  /-- A session is bound to its last stream. -/
  last : ∀ {s t}, m.hub.sessions.transport? s = some t → m.hub.lastStream s = some t

/-- The transport to which a session is bound is its own. -/
theorem Bound.owns {m : Moment} (hb : Bound m) {s : String} {t : TransportId} {state : Transport}
    (hs : m.hub.sessions.transport? s = some t) (ht : m.hub.transport? t = some state) :
    state.session = s := by
  obtain ⟨state', ht', hsession⟩ := hb.bound hs
  cases ht.symm.trans ht'
  exact hsession

/-- Two sessions are not bound to one transport. -/
theorem Bound.one_session {m : Moment} (hb : Bound m) {s s' : String} {t : TransportId}
    (hs : m.hub.sessions.transport? s = some t) (hs' : m.hub.sessions.transport? s' = some t) :
    s = s' := by
  obtain ⟨state, ht, hsession⟩ := hb.bound hs
  exact hsession.symm.trans (hb.owns hs' ht)

/-- How a transport may change without a change of its binding. The writers that count are those
that satisfy `p`, and they may be told instead of waiting. -/
structure Follows (p : TaskId → Prop) (told : Endings) (state state' : Transport) : Prop where
  session : state'.session = state.session
  closed : state.closed = true → state'.closed = true
  flushed : state.Flushed → state'.Flushed
  waiting : ∀ {id frame}, p id → (id, frame) ∈ state.waiting →
    (id, frame) ∈ state'.waiting ∨ ∃ r, (id, r) ∈ told

theorem Follows.refl (p : TaskId → Prop) (told : Endings) (state : Transport) :
    Follows p told state state := ⟨rfl, id, id, fun _ => .inl⟩

/-- A task is a loop. -/
def IsLoop (h : Hub) (id : TaskId) : Prop :=
  ∃ t phase, h.tasks.get? id = some (.pushLoop t phase)

/-- What leaves the bindings alone and lets transports follow keeps the invariant. -/
theorem Bound.frame {h h' : Hub} {es es' : Endings} (hb : Bound ⟨h, es⟩)
    (hconfig : h'.config = h.config) (hnext : h'.nextTransport = h.nextTransport)
    (hsessions : ∀ s, h'.sessions.transport? s = h.sessions.transport? s)
    (hstreams : h'.streams = h.streams)
    (htransports : ∀ t, Option.Rel (Follows h'.IsLoop es') (h.transport? t) (h'.transport? t))
    (hfresh : ∀ {id task}, h'.tasks.get? id = some task → id < h'.nextTask)
    (hkeep : h.config.keepaliveInterval ≠ 0 → ∀ {id t phase},
      h.tasks.get? id = some (.pushLoop t phase) →
      ∃ phase', h'.tasks.get? id = some (.pushLoop t phase'))
    (hloops : ∀ {id t phase}, h'.tasks.get? id = some (.pushLoop t phase) →
      (∃ next, phase = .resting next) ∨
      (∃ state frame, h'.transport? t = some state ∧ (id, frame) ∈ state.waiting) ∨
      h.tasks.get? id = some (.pushLoop t phase) ∧ ∀ r, (id, r) ∈ es → (id, r) ∈ es') :
    Bound ⟨h', es'⟩ := by
  have after : ∀ {t state}, h.transport? t = some state →
      ∃ state', h'.transport? t = some state' ∧ Follows h'.IsLoop es' state state' := by
    intro t state ht
    have := htransports t
    rw [ht] at this
    cases hx : h'.transport? t with
    | none => rw [hx] at this; cases this
    | some state' => rw [hx] at this; cases this with | some hf => exact ⟨state', rfl, hf⟩
  have before : ∀ {t state'}, h'.transport? t = some state' →
      ∃ state, h.transport? t = some state ∧ Follows h'.IsLoop es' state state' := by
    intro t state' ht
    have := htransports t
    rw [ht] at this
    cases hx : h.transport? t with
    | none => rw [hx] at this; cases this
    | some state => rw [hx] at this; cases this with | some hf => exact ⟨state, rfl, hf⟩
  have hlast : ∀ s, h'.lastStream s = h.lastStream s := fun s => by simp [lastStream, hstreams]
  constructor
  · exact hfresh
  · intro t state' ht
    obtain ⟨state, ht, -⟩ := before ht
    exact hnext ▸ hb.transportFresh ht
  · intro s t hs
    obtain ⟨state, ht, hsession⟩ := hb.bound ((hsessions s).symm.trans hs)
    obtain ⟨state', ht', hf⟩ := after ht
    exact ⟨state', ht', hf.session.trans hsession⟩
  · intro t state' ht hopen
    obtain ⟨state, ht, hf⟩ := before ht
    have hopen : state.closed = false := by
      cases hc : state.closed with
      | false => rfl
      | true => cases hopen.symm.trans (hf.closed hc)
    exact hf.session ▸ (hsessions _).trans (hb.kept ht hopen)
  · intro hi s t hs
    have hi : h.config.keepaliveInterval ≠ 0 := hconfig ▸ hi
    obtain ⟨id, phase, hid⟩ := hb.loop hi ((hsessions s).symm.trans hs)
    obtain ⟨phase', hid⟩ := hkeep hi hid
    exact ⟨id, phase', hid⟩
  · intro s t state' hs ht
    obtain ⟨state, ht, hf⟩ := before ht
    exact hf.flushed (hb.flushed ((hsessions s).symm.trans hs) ht)
  · intro id t phase hid
    rcases hloops hid with hrest | hwait | ⟨hold, huntold⟩
    · exact .inl hrest
    · exact .inr (.inl hwait)
    · rcases hb.loops hold with hrest | ⟨state, frame, ht, hw⟩ | ⟨r, hr⟩
      · exact .inl hrest
      · obtain ⟨state', ht', hf⟩ := after ht
        rcases hf.waiting ⟨t, phase, hid⟩ hw with hw | hr
        · exact .inr (.inl ⟨state', frame, ht', hw⟩)
        · exact .inr (.inr hr)
      · exact .inr (.inr ⟨r, huntold r hr⟩)
  · intro s t
    show (s, t) ∈ h'.streams ↔ _
    rw [hstreams]
    refine hb.streams.trans ⟨?_, ?_⟩
    · rintro ⟨state, ht, hsession⟩
      obtain ⟨state', ht', hf⟩ := after ht
      exact ⟨state', ht', hf.session.trans hsession⟩
    · rintro ⟨state', ht, hsession⟩
      obtain ⟨state, ht, hf⟩ := before ht
      exact ⟨state, ht, hf.session.symm.trans hsession⟩
  · intro s t hs
    exact (hlast s).trans (hb.last ((hsessions s).symm.trans hs))

/-! ## Transports that follow -/

section Follows

variable {p : TaskId → Prop} {told : Endings} {state : Transport}

/-- A new writer in the line of an open transport. -/
theorem follows_queue (hc : state.closed = false) (w : TaskId × String) :
    Follows p told state { state with line := state.line ++ [w] } where
  session := rfl
  closed := id
  flushed _ hclosed := by cases hc.symm.trans hclosed
  waiting _ hw := by
    refine .inl ?_
    rw [Transport.waiting] at hw ⊢
    rcases List.mem_append.1 hw with hw | hw
    · exact List.mem_append_left _ hw
    · exact List.mem_append_right _ (List.mem_append_left _ hw)

/-- A transport that moves: whoever no longer waits has an ending to be told. -/
theorem follows_settle (now : Nanos) : Follows p (told ++ (state.settle now).2) state
    (state.settle now).1 := by
  obtain ⟨done, hendings, hd⟩ := Transport.settle_served now state
  refine ⟨hd.session, hd.closed, Transport.settle_flushed now, fun {id frame} _ hw => ?_⟩
  rw [hd.waiting] at hw
  rcases List.mem_append.1 hw with hw | hw
  · obtain ⟨e, he, hentry⟩ := List.mem_map.1 hw
    refine .inr ⟨e.result, List.mem_append_right _ ?_⟩
    have hwriter : e.writer = id := congrArg Prod.fst hentry
    rw [hendings, ← hwriter]
    exact List.mem_map_of_mem he
  · exact .inl hw

/-- A call that is given up is missed by nobody else. -/
theorem follows_abandon {id : TaskId} (hp : ¬ p id) :
    Follows p told state (state.abandon id) where
  session := rfl
  closed h := h
  flushed h hclosed := by
    rw [Transport.waiting_abandon, h hclosed]
    rfl
  waiting {writer frame} hw hmem := by
    refine .inl ?_
    rw [Transport.waiting_abandon]
    exact List.mem_filter.2 ⟨hmem, decide_eq_true fun he => hp (he ▸ hw)⟩

theorem rel_refl (o : Option Transport) : Option.Rel (Follows p told) o o := by
  cases o with
  | none => exact .none
  | some state => exact .some (.refl p told state)

/-- One transport follows, the others stay. -/
theorem rel_set {h : Hub} {t : TransportId} {state' : Transport} (ht : h.transport? t = some state)
    (hf : Follows p told state state') (u : TransportId) :
    Option.Rel (Follows p told) (h.transport? u) ((h.transports.set t state').get? u) := by
  rw [Table.get?_set]
  split
  · next hu =>
    subst hu
    rw [ht]
    exact .some hf
  · exact rel_refl _

end Follows

/-! ## Steps that leave the bindings alone -/

section Calm

variable {h h' : Hub} {es es' : Endings}

theorem streams_append (answers : List (TaskId × Answer)) {id : TaskId} {a : Answer}
    (ha : a.stream? = none) : (answers ++ [(id, a)]).filterMap (fun (_, a) => a.stream?) =
      answers.filterMap fun (_, a) => a.stream? := by
  simp [ha]

/-- Neither a transport nor a loop changes. -/
theorem Bound.calm (hb : Bound ⟨h, es⟩) (hconfig : h'.config = h.config)
    (hnext : h'.nextTransport = h.nextTransport)
    (hsessions : ∀ s, h'.sessions.transport? s = h.sessions.transport? s)
    (hstreams : h'.streams = h.streams) (htransports : h'.transports = h.transports)
    (htasks : h'.tasks = h.tasks) (hlast : h.nextTask ≤ h'.nextTask) : Bound ⟨h', es⟩ := by
  refine hb.frame hconfig hnext hsessions hstreams ?_ ?_ ?_ ?_
  · intro t
    simp only [transport?, htransports]
    exact rel_refl _
  · intro id task ht
    exact Nat.lt_of_lt_of_le (hb.taskFresh (htasks ▸ ht)) hlast
  · intro _ id t phase ht
    exact ⟨phase, htasks ▸ ht⟩
  · intro id t phase ht
    exact .inr (.inr ⟨htasks ▸ ht, fun _ hr => hr⟩)

/-- A task other than a loop ends with an answer. -/
theorem Bound.finish (hb : Bound ⟨h, es⟩) {id : TaskId} {task : Task} {a : Answer} (b : Broker)
    (ht : h.tasks.get? id = some task) (hloop : ∀ t phase, task ≠ .pushLoop t phase)
    (ha : a.stream? = none) (hes : ∀ w r, w ≠ id → (w, r) ∈ es → (w, r) ∈ es') :
    Bound ⟨{ h with broker := b }.finish id a, es'⟩ := by
  have other {w : TaskId} {t : TransportId} {phase : LoopPhase}
      (hw : h.tasks.get? w = some (.pushLoop t phase)) : w ≠ id := by
    rintro rfl
    exact hloop t phase (Option.some.inj (ht.symm.trans hw))
  refine hb.frame rfl rfl (fun _ => rfl) (streams_append _ ha) (fun t => rel_refl _) ?_ ?_ ?_
  · exact fun hw => hb.taskFresh (Table.of_get?_erase hw).2
  · intro _ w t phase hw
    exact ⟨phase, (Table.get?_erase_of_ne _ (other hw)).trans hw⟩
  · intro w t phase hw
    obtain ⟨hne, hold⟩ := Table.of_get?_erase hw
    exact .inr (.inr ⟨hold, fun r => hes w r hne⟩)

/-- A task comes or changes, and if it is a loop it rests. -/
theorem Bound.setTask (hb : Bound ⟨h, es⟩) {id n : TaskId} {task : Task} (hid : id < n)
    (hn : h.nextTask ≤ n)
    (hold : ∀ t phase, h.tasks.get? id = some (.pushLoop t phase) →
      ∃ next, task = .pushLoop t (.resting next))
    (hnew : ∀ t phase, task = .pushLoop t phase → ∃ next, phase = .resting next)
    (hes : ∀ w r, w ≠ id → (w, r) ∈ es → (w, r) ∈ es') :
    Bound ⟨{ h with tasks := h.tasks.set id task, nextTask := n }, es'⟩ := by
  refine hb.frame rfl rfl (fun _ => rfl) rfl (fun t => rel_refl _) ?_ ?_ ?_
  · intro w task' hw
    rcases Table.of_get?_set hw with ⟨rfl, -⟩ | ⟨-, hold⟩
    · exact hid
    · exact Nat.lt_of_lt_of_le (hb.taskFresh hold) hn
  · intro _ w t phase hw
    simp only [Table.get?_set]
    split
    · next he =>
      obtain ⟨next, rfl⟩ := hold t phase (he ▸ hw)
      exact ⟨_, rfl⟩
    · exact ⟨phase, hw⟩
  · intro w t phase hw
    rcases Table.of_get?_set hw with ⟨-, hloop⟩ | ⟨hne, hold⟩
    · exact .inl (hnew t phase hloop)
    · exact .inr (.inr ⟨hold, fun r => hes w r hne⟩)

/-- A task is told something that is no news to a loop. -/
theorem Bound.told {id : TaskId} {r : Transport.WriteResult} (hb : Bound ⟨h, (id, r) :: es⟩)
    (b : Broker)
    (hid : ∀ t phase, h.tasks.get? id = some (.pushLoop t phase) → ∃ next, phase = .resting next) :
    Bound ⟨{ h with broker := b }, es⟩ := by
  refine hb.frame rfl rfl (fun _ => rfl) rfl (fun t => rel_refl _) hb.taskFresh
    (fun _ _ _ _ hw => ⟨_, hw⟩) ?_
  intro w t phase hw
  by_cases he : w = id
  · subst he
    exact .inl (hid t phase hw)
  · refine .inr (.inr ⟨hw, fun r' hr => ?_⟩)
    rcases List.mem_cons.1 hr with hr | hr
    · exact absurd (congrArg Prod.fst hr) he
    · exact hr

/-- A command gets in line for an open transport. -/
theorem Bound.called (hb : Bound ⟨h, es⟩) {t : TransportId} {state : Transport} (b : Broker)
    (reply : CommandReply) (frame : String) (ht : h.transport? t = some state)
    (hc : state.closed = false) : Bound ⟨{ (h.spawn (.command reply)).2 with
      broker := b
      transports := h.transports.set t
        { state with line := state.line ++ [(h.nextTask, frame)] } }, es⟩ := by
  have fresh {w : TaskId} {task : Task} (hw : h.tasks.get? w = some task) : w ≠ h.nextTask :=
    Nat.ne_of_lt (hb.taskFresh hw)
  refine hb.frame rfl rfl (fun _ => rfl) rfl (rel_set ht (follows_queue hc _)) ?_ ?_ ?_
  · intro w task hw
    rcases Table.of_get?_set hw with ⟨rfl, -⟩ | ⟨-, hold⟩
    · exact Nat.lt_succ_self h.nextTask
    · exact Nat.lt_succ_of_lt (hb.taskFresh hold)
  · intro _ w u phase hw
    exact ⟨phase, (Table.get?_set_of_ne _ _ (fresh hw)).trans hw⟩
  · intro w u phase hw
    rcases Table.of_get?_set hw with ⟨-, hloop⟩ | ⟨-, hold⟩
    · cases hloop
    · exact .inr (.inr ⟨hold, fun _ hr => hr⟩)

/-- A loop gets in line with its beat. -/
theorem Bound.beat (hb : Bound ⟨h, es⟩) {id : TaskId} {t : TransportId} {phase phase' : LoopPhase}
    {state : Transport} (frame : String) (hid : h.tasks.get? id = some (.pushLoop t phase))
    (ht : h.transport? t = some state) (hc : state.closed = false) : Bound ⟨{ h with
      tasks := h.tasks.set id (.pushLoop t phase')
      transports := h.transports.set t { state with line := state.line ++ [(id, frame)] } }, es⟩ := by
  refine hb.frame rfl rfl (fun _ => rfl) rfl (rel_set ht (follows_queue hc _)) ?_ ?_ ?_
  · intro w task hw
    rcases Table.of_get?_set hw with ⟨rfl, -⟩ | ⟨-, hold⟩
    · exact hb.taskFresh hid
    · exact hb.taskFresh hold
  · intro _ w u phase hw
    simp only [Table.get?_set]
    split
    · next he =>
      subst he
      cases hid.symm.trans hw
      exact ⟨_, rfl⟩
    · exact ⟨phase, hw⟩
  · intro w u phase hw
    rcases Table.of_get?_set hw with ⟨rfl, hloop⟩ | ⟨-, hold⟩
    · cases hloop
      refine .inr (.inl ⟨_, frame, Table.get?_set_self .., ?_⟩)
      simp [Transport.waiting]
    · exact .inr (.inr ⟨hold, fun _ hr => hr⟩)

/-- A transport moves, or is read or left by its reader. -/
theorem Bound.follow (hb : Bound ⟨h, es⟩) {t : TransportId} {state state' : Transport}
    (ht : h.transport? t = some state) (hes : ∀ e ∈ es, e ∈ es')
    (hf : Follows h.IsLoop es' state state') : Bound ⟨h.putTransport t state', es'⟩ := by
  refine hb.frame rfl rfl (fun _ => rfl) rfl (rel_set ht hf) hb.taskFresh
    (fun _ _ _ _ hw => ⟨_, hw⟩) ?_
  exact fun hw => .inr (.inr ⟨hw, fun r => hes _⟩)

/-- A loop without an interval dies after its greeting. -/
theorem Bound.silenced {id : TaskId} {r : Transport.WriteResult} (hb : Bound ⟨h, (id, r) :: es⟩)
    (hi : h.config.keepaliveInterval = 0) : Bound ⟨h.dismiss id, es⟩ := by
  refine hb.frame rfl rfl (fun _ => rfl) rfl (fun t => rel_refl _)
    (fun hw => hb.taskFresh (Table.of_get?_erase hw).2) (fun h => absurd hi h) ?_
  intro w u phase hw
  obtain ⟨hne, hold⟩ := Table.of_get?_erase hw
  refine .inr (.inr ⟨hold, fun r' hr => ?_⟩)
  exact (List.mem_cons.1 hr).resolve_left fun he => hne (congrArg Prod.fst he)

/-- A call is given up. -/
theorem Bound.abandoned (hb : Bound ⟨h, es⟩) (hp : h.path = .streams) {id : TaskId} {task : Task}
    (ht : h.tasks.get? id = some task) (hc : task.isCall = true) :
    Bound ⟨(h.abandon id).2, es⟩ := by
  have other {w : TaskId} {t : TransportId} {phase : LoopPhase}
      (hw : h.tasks.get? w = some (.pushLoop t phase)) : w ≠ id := by
    rintro rfl
    cases ht.symm.trans hw
    cases hc
  rw [abandon_eq hp ht hc]
  refine hb.frame rfl rfl (fun _ => rfl) rfl ?_ ?_ ?_ ?_
  · intro t
    simp only [transport?, Table.get?_mapValues]
    cases h.transports.get? t with
    | none => exact .none
    | some state =>
      refine .some (follows_abandon ?_)
      rintro ⟨u, phase, hu⟩
      simp at hu
  · exact fun hw => hb.taskFresh (Table.of_get?_erase hw).2
  · intro _ w t phase hw
    exact ⟨phase, (Table.get?_erase_of_ne _ (other hw)).trans hw⟩
  · exact fun hw => .inr (.inr ⟨(Table.of_get?_erase hw).2, fun _ hr => hr⟩)

end Calm

/-! ## Steps that unbind and bind -/

section Bind

variable {h h' : Hub} {es es' : Endings}

/-- A transport is closed and unbound, and its loop may end. -/
theorem Bound.unbound (hb : Bound ⟨h, es⟩) (o : Option TransportId) (hconfig : h'.config = h.config)
    (hnext : h'.nextTransport = h.nextTransport) (hlast : h'.nextTask = h.nextTask)
    (hstreams : h'.streams = h.streams) (htransports : h'.transports = shutAny h.transports o)
    (hsessions : ∀ {s t}, h'.sessions.transport? s = some t ↔
      h.sessions.transport? s = some t ∧ o ≠ some t)
    (htasks : ∀ {id task}, h'.tasks.get? id = some task → h.tasks.get? id = some task)
    (hkeep : ∀ {id t phase}, h.tasks.get? id = some (.pushLoop t phase) → o ≠ some t →
      h'.tasks.get? id = some (.pushLoop t phase))
    (hes : ∀ {id task r}, h'.tasks.get? id = some task → (id, r) ∈ es → (id, r) ∈ es') :
    Bound ⟨h', es'⟩ := by
  have lookup : ∀ t, h'.transport? t =
      if o = some t then (h.transport? t).map shut else h.transport? t := by
    intro t
    rw [transport?, htransports, get?_shutAny]
    rfl
  have other : ∀ {t}, o ≠ some t → h'.transport? t = h.transport? t := by
    intro t ho
    rw [lookup, if_neg ho]
  have after : ∀ {t state}, h.transport? t = some state → ∃ state', h'.transport? t = some state' ∧
      state'.session = state.session ∧ state'.waiting = state.waiting := by
    intro t state ht
    by_cases ho : o = some t
    · exact ⟨shut state, by rw [lookup, if_pos ho, ht]; rfl, rfl, rfl⟩
    · exact ⟨state, (other ho).trans ht, rfl, rfl⟩
  have before : ∀ {t state'}, h'.transport? t = some state' → ∃ state, h.transport? t = some state ∧
      state'.session = state.session ∧ (o = some t → state'.closed = true) := by
    intro t state' ht
    by_cases ho : o = some t
    · rw [lookup, if_pos ho] at ht
      obtain ⟨state, hstate, rfl⟩ := Option.map_eq_some_iff.1 ht
      exact ⟨state, hstate, rfl, fun _ => rfl⟩
    · exact ⟨state', (other ho).symm.trans ht, rfl, fun h => absurd h ho⟩
  constructor
  · intro id task hid
    exact hlast ▸ hb.taskFresh (htasks hid)
  · intro t state' ht
    obtain ⟨state, ht, -⟩ := before ht
    exact hnext ▸ hb.transportFresh ht
  · intro s t hs
    obtain ⟨hs, ho⟩ := hsessions.1 hs
    obtain ⟨state, ht, hsession⟩ := hb.bound hs
    exact ⟨state, (other ho).trans ht, hsession⟩
  · intro t state' ht hopen
    have ho : o ≠ some t := by
      intro ho
      obtain ⟨-, -, -, hclosed⟩ := before ht
      cases hopen.symm.trans (hclosed ho)
    exact hsessions.2 ⟨hb.kept ((other ho).symm.trans ht) hopen, ho⟩
  · intro hi s t hs
    obtain ⟨hs, ho⟩ := hsessions.1 hs
    obtain ⟨id, phase, hid⟩ := hb.loop (hconfig ▸ hi) hs
    exact ⟨id, phase, hkeep hid ho⟩
  · intro s t state' hs ht
    obtain ⟨hs, ho⟩ := hsessions.1 hs
    exact hb.flushed hs ((other ho).symm.trans ht)
  · intro id t phase hid
    rcases hb.loops (htasks hid) with hrest | ⟨state, frame, ht, hw⟩ | ⟨r, hr⟩
    · exact .inl hrest
    · obtain ⟨state', ht', -, hwaiting⟩ := after ht
      exact .inr (.inl ⟨state', frame, ht', hwaiting ▸ hw⟩)
    · exact .inr (.inr ⟨r, hes hid hr⟩)
  · intro s t
    show (s, t) ∈ h'.streams ↔ _
    rw [hstreams]
    refine hb.streams.trans ⟨?_, ?_⟩
    · rintro ⟨state, ht, hsession⟩
      obtain ⟨state', ht', hsame, -⟩ := after ht
      exact ⟨state', ht', hsame.trans hsession⟩
    · rintro ⟨state', ht, hsession⟩
      obtain ⟨state, ht, hsame, -⟩ := before ht
      exact ⟨state, ht, hsame.symm.trans hsession⟩
  · intro s t hs
    have hsame : h'.lastStream s = h.lastStream s := by simp [lastStream, hstreams]
    exact hsame.trans (hb.last (hsessions.1 hs).1)

/-- A session without a transport is bound to a new one, whose loop, if it lives, rests. -/
theorem Bound.opened (hb : Bound ⟨h, es⟩) (session : String) (state : Transport) (next : Nanos)
    (hnone : h.sessions.transport? session = none) (hsession : state.session = session)
    (hopen : state.closed = false) (hconfig : h'.config = h.config)
    (hnext : h'.nextTransport = h.nextTransport + 1) (hlast : h.nextTask < h'.nextTask)
    (hstreams : h'.streams = h.streams ++ [(session, h.nextTransport)])
    (htransports : ∀ t, h'.transport? t =
      if t = h.nextTransport then some state else h.transport? t)
    (hsessions : ∀ s, h'.sessions.transport? s =
      if s = session then some h.nextTransport else h.sessions.transport? s)
    (htasks : ∀ id, h'.tasks.get? id =
      if id = h.nextTask then
        if h.config.keepaliveInterval = 0 then none
        else some (.pushLoop h.nextTransport (.resting next))
      else h.tasks.get? id) : Bound ⟨h', es⟩ := by
  have here : h'.transport? h.nextTransport = some state := (htransports _).trans (if_pos rfl)
  have old : ∀ {t state}, h.transport? t = some state → h'.transport? t = some state := by
    intro t state ht
    rw [htransports, if_neg (Nat.ne_of_lt (hb.transportFresh ht)), ht]
  have oldTask : ∀ {id task}, h.tasks.get? id = some task → h'.tasks.get? id = some task := by
    intro id task hid
    rw [htasks, if_neg (Nat.ne_of_lt (hb.taskFresh hid)), hid]
  have binding : ∀ {s t}, h'.sessions.transport? s = some t → s = session ∧ t = h.nextTransport ∨
      s ≠ session ∧ h.sessions.transport? s = some t := by
    intro s t hs
    rw [hsessions] at hs
    split at hs
    · next he => exact .inl ⟨he, (Option.some.inj hs).symm⟩
    · next hne => exact .inr ⟨hne, hs⟩
  have transport : ∀ {t state'}, h'.transport? t = some state' →
      t = h.nextTransport ∧ state' = state ∨ h.transport? t = some state' := by
    intro t state' ht
    rw [htransports] at ht
    split at ht
    · next he => exact .inl ⟨he, (Option.some.inj ht).symm⟩
    · exact .inr ht
  constructor
  · intro id task hid
    show id < h'.nextTask
    rw [htasks] at hid
    split at hid
    · next he => exact he ▸ hlast
    · exact Nat.lt_trans (hb.taskFresh hid) hlast
  · intro t state' ht
    show t < h'.nextTransport
    rw [hnext]
    rcases transport ht with ⟨rfl, -⟩ | ht
    · exact Nat.lt_succ_self _
    · exact Nat.lt_succ_of_lt (hb.transportFresh ht)
  · intro s t hs
    rcases binding hs with ⟨rfl, rfl⟩ | ⟨-, hs⟩
    · exact ⟨state, here, hsession⟩
    · obtain ⟨state', ht, hsession'⟩ := hb.bound hs
      exact ⟨state', old ht, hsession'⟩
  · intro t state' ht hopen'
    show h'.sessions.transport? _ = _
    rcases transport ht with ⟨rfl, rfl⟩ | ht
    · rw [hsessions, if_pos hsession]
    · have hkept := hb.kept ht hopen'
      rw [hsessions, if_neg, hkept]
      intro he
      cases hnone.symm.trans (he ▸ hkept)
  · intro hi s t hs
    have hi : h.config.keepaliveInterval ≠ 0 := hconfig ▸ hi
    rcases binding hs with ⟨-, rfl⟩ | ⟨-, hs⟩
    · exact ⟨h.nextTask, .resting next, by rw [htasks, if_pos rfl, if_neg hi]⟩
    · obtain ⟨id, phase, hid⟩ := hb.loop hi hs
      exact ⟨id, phase, oldTask hid⟩
  · intro s t state' hs ht hclosed
    rcases transport ht with ⟨-, rfl⟩ | ht
    · cases hopen.symm.trans hclosed
    · rcases binding hs with ⟨-, rfl⟩ | ⟨-, hs⟩
      · exact absurd (hb.transportFresh ht) (Nat.lt_irrefl _)
      · exact hb.flushed hs ht hclosed
  · intro id t phase hid
    rw [htasks] at hid
    split at hid
    · split at hid
      · cases hid
      · cases hid
        exact .inl ⟨next, rfl⟩
    · rcases hb.loops hid with hrest | ⟨state', frame, ht, hw⟩ | htold
      · exact .inl hrest
      · exact .inr (.inl ⟨state', frame, old ht, hw⟩)
      · exact .inr (.inr htold)
  · intro s t
    show (s, t) ∈ h'.streams ↔ _
    rw [hstreams, List.mem_append, hb.streams, List.mem_singleton]
    constructor
    · rintro (⟨state', ht, hs⟩ | he)
      · exact ⟨state', old ht, hs⟩
      · cases he
        exact ⟨state, here, hsession⟩
    · rintro ⟨state', ht, hs⟩
      rcases transport ht with ⟨rfl, rfl⟩ | ht
      · exact .inr (by rw [← hs, hsession])
      · exact .inl ⟨state', ht, hs⟩
  · intro s t hs
    rcases binding hs with ⟨rfl, rfl⟩ | ⟨hne, hs⟩
    · simp [lastStream, hstreams]
    · have hsame : h'.lastStream s = h.lastStream s := by
        simp [lastStream, hstreams, Ne.symm hne]
      exact hsame.trans (hb.last hs)

theorem Bound.ended (hb : Bound ⟨h, es⟩) (session : String) :
    Bound ⟨(h.endSession session).2, es⟩ := by
  cases hs : h.sessions.get? session with
  | none =>
    rw [endSession_of_none hs]
    exact hb
  | some s =>
    have hown : h.sessions.transport? session = s.transport := Sessions.transport?_of_get? hs
    rw [endSession_eq hs]
    refine hb.unbound s.transport rfl rfl rfl rfl rfl ?_ id (fun hid _ => hid) (fun _ => id)
    intro s' t
    by_cases he : s' = session
    · subst he
      rw [hown]
      simp [Sessions.transport?]
    · rw [Sessions.transport?, Table.get?_erase_of_ne _ he]
      exact ⟨fun hs' => ⟨hs', fun ho => he (hb.one_session hs' (hown.trans ho))⟩, And.left⟩

/-- The end of a loop unbinds its own transport, and no other. -/
theorem transport?_clearTransport (sessions : Sessions) (session s : String) (t u : TransportId) :
    (sessions.clearTransport session t).2.transport? s = some u ↔
      sessions.transport? s = some u ∧ ¬ (s = session ∧ u = t) := by
  unfold Sessions.clearTransport
  split_ifs with hbound
  · simp only [Sessions.update, Sessions.transport?, Table.get?_modify] at hbound ⊢
    split_ifs with he
    · subst he
      cases hs : sessions.get? s with
      | none => simp
      | some x =>
        rw [hs] at hbound
        have hbound : x.transport = some t := hbound
        simp [hbound, eq_comm]
    · simp [he]
  · refine ⟨fun hs => ⟨hs, ?_⟩, And.left⟩
    rintro ⟨rfl, rfl⟩
    exact hbound hs

theorem Bound.loopEnded (hb : Bound ⟨h, es⟩) {id : TaskId} {t : TransportId} {phase : LoopPhase}
    (hid : h.tasks.get? id = some (.pushLoop t phase))
    (hes : ∀ w r, w ≠ id → (w, r) ∈ es → (w, r) ∈ es') : Bound ⟨h.endLoop id t, es'⟩ := by
  rw [endLoop_eq]
  refine hb.unbound (some t) rfl rfl rfl rfl rfl ?_ ?_ ?_ ?_
  · intro s u
    refine (transport?_clearTransport ..).trans (and_congr_right fun hs => not_congr ?_)
    obtain ⟨state, hu, hsession⟩ := hb.bound hs
    constructor
    · rintro ⟨-, rfl⟩
      rfl
    · rintro ⟨⟩
      have hu : h.transport? t = some state := hu
      exact ⟨by simp [hu, hsession], rfl⟩
  · exact fun hw => (Table.of_get?_erase hw).2
  · intro w u phase' hw ho
    refine (Table.get?_erase_of_ne _ ?_).trans hw
    rintro rfl
    cases hid.symm.trans hw
    exact ho rfl
  · exact fun hw hr => hes _ _ (Table.of_get?_erase hw).1 hr

theorem Bound.subscribed (hb : Bound ⟨h, es⟩) {session : String} {s : Session}
    (hs : h.sessions.get? session = some s) : Bound ⟨(h.startStream session).2, es⟩ := by
  have hown : h.sessions.transport? session = s.transport := Sessions.transport?_of_get? hs
  have hne : s.transport ≠ some h.nextTransport := by
    intro he
    obtain ⟨state, ht, -⟩ := hb.bound (hown.trans he)
    exact Nat.lt_irrefl _ (hb.transportFresh ht)
  let h₁ := { h with
    sessions := h.sessions.set session { s with transport := none }
    transports := shutAny h.transports s.transport }
  have hb₁ : Bound ⟨h₁, es⟩ := by
    refine hb.unbound s.transport rfl rfl rfl rfl rfl ?_ id (fun hid _ => hid) (fun _ => id)
    intro s' t
    simp only [h₁, Sessions.transport?, Table.get?_set]
    split_ifs with he
    · subst he
      simp [hs]
    · exact ⟨fun hs' => ⟨hs', fun ho => he (hb.one_session hs' (hown.trans ho))⟩, And.left⟩
  rw [startStream_eq hs]
  refine hb₁.opened session (h.freshStream session h.nextTask)
    (h.now + h.config.keepaliveInterval) ?_ rfl rfl rfl rfl ?_ ?_ ?_ ?_ ?_
  · simp [h₁, Sessions.transport?]
  · exact Nat.lt_add_of_pos_right (by decide)
  · simp [Hub.streams, h₁, Answer.stream?]
  · intro t
    simp only [transport?, h₁, supplanted, if_neg hne, Table.get?_set, get?_shutAny]
    split_ifs <;> rfl
  · intro s'
    simp only [h₁, Sessions.transport?, Table.get?_set]
    split_ifs <;> rfl
  · intro id
    simp only [h₁, greetedTasks]
    by_cases hi : h.config.keepaliveInterval = 0
    · simp only [hi, if_true, Table.get?_erase, Table.get?_set]
      split_ifs <;> rfl
    · simp only [hi, if_false, Table.get?_set]
      split_ifs <;> rfl

end Bind

/-! ## Every step -/

theorem bound_step {m m' : Moment} {log : List Mark} (hp : m.hub.path = .streams)
    (hb : Bound m) (hs : Step m log m') : Bound m' := by
  cases hs with
  | touched sessions n hlooked =>
    exact hb.calm rfl rfl hlooked.transport rfl rfl rfl (Nat.le_refl _)
  | stored | acked | ticked =>
    exact hb.calm rfl rfl (fun _ => rfl) rfl rfl rfl (Nat.le_refl _)
  | answered ha =>
    exact hb.calm rfl rfl (fun _ => rfl) (streams_append _ ha) rfl rfl (Nat.le_succ _)
  | ended session => exact hb.ended session
  | subscribed hx => exact hb.subscribed hx
  | refused reply e =>
    rename_i h es
    have hspawn : Bound ⟨(h.spawn (.command reply)).2, es⟩ := by
      refine hb.setTask (Nat.lt_succ_self _) (Nat.le_succ _) ?_ (by simp) fun _ _ _ => id
      intro t phase hid
      exact absurd (hb.taskFresh hid) (Nat.lt_irrefl _)
    exact hspawn.finish _ (Table.get?_set_self ..) (by simp) (stream?_commandAnswer ..)
      fun _ _ _ => id
  | called reply o hbound ht hc => exact hb.called _ reply _ ht hc
  | read n ht => exact hb.follow ht (fun _ => id) ⟨rfl, id, id, fun _ => .inl⟩
  | deserted ht => exact hb.follow ht (fun _ => id) ⟨rfl, id, id, fun _ => .inl⟩
  | abandoned ht hc => exact hb.abandoned hp ht hc
  | sweeping timeout hi =>
    refine hb.setTask (Nat.lt_succ_self _) (Nat.le_succ _) ?_ (by simp) fun _ _ _ => id
    intro t phase hid
    exact absurd (hb.taskFresh hid) (Nat.lt_irrefl _)
  | rested ht =>
    refine hb.setTask (hb.taskFresh ht) (Nat.le_refl _) ?_ (by simp) fun _ _ _ => id
    intro t phase hid
    cases ht.symm.trans hid
  | moved ht => exact hb.follow ht (fun e he => List.mem_append_left _ he) (follows_settle _)
  | beat hid ht hc => exact hb.beat _ hid ht hc
  | loopEnded hid => exact hb.loopEnded hid fun _ _ _ => id
  | watched ht htask ha =>
    refine hb.finish _ ht ?_ ha fun _ _ _ => id
    rintro t phase rfl
    obtain ⟨u, hu | hu⟩ := htask <;> cases hu
  | polled ht hr => exact hb.finish _ ht (by simp) (stream?_commandAnswer ..) fun _ _ _ => id
  | unheard r hcommand hloop => exact hb.told _ hloop
  | wrote r ht htask ha =>
    refine hb.finish _ ht ?_ ha fun w r' hne hr => ?_
    · rintro t phase rfl
      obtain hu | hu := htask <;> cases hu
    · exact (List.mem_cons.1 hr).resolve_left fun he => hne (congrArg Prod.fst he)
  | pushed ht hr =>
    refine hb.told _ fun t phase hid => ?_
    cases ht.symm.trans hid
  | failed ht hr =>
    refine hb.finish _ ht (by simp) (stream?_commandAnswer ..) fun w r' hne hr => ?_
    exact (List.mem_cons.1 hr).resolve_left fun he => hne (congrArg Prod.fst he)
  | greeted r ht hi =>
    refine hb.setTask (hb.taskFresh ht) (Nat.le_refl _) ?_ ?_ fun w r' hne hr => ?_
    · intro t phase hid
      cases ht.symm.trans hid
      exact ⟨_, rfl⟩
    · rintro t phase ⟨⟩
      exact ⟨_, rfl⟩
    · exact (List.mem_cons.1 hr).resolve_left fun he => hne (congrArg Prod.fst he)
  | silenced r ht hi => exact hb.silenced hi
  | beaten ht =>
    refine hb.setTask (hb.taskFresh ht) (Nat.le_refl _) ?_ ?_ fun w r' hne hr => ?_
    · intro t phase hid
      cases ht.symm.trans hid
      exact ⟨_, rfl⟩
    · rintro t phase ⟨⟩
      exact ⟨_, rfl⟩
    · exact (List.mem_cons.1 hr).resolve_left fun he => hne (congrArg Prod.fst he)
  | broken ht =>
    refine hb.loopEnded ht fun w r' hne hr => ?_
    exact (List.mem_cons.1 hr).resolve_left fun he => hne (congrArg Prod.fst he)

/-! ## Every schedule -/

theorem keepaliveInterval_ne_zero {config : Config} (hc : config.validate = .ok ()) :
    config.keepaliveInterval ≠ 0 := by
  intro hi
  have hzero : config.keepaliveIntervalSecs = 0 := by
    have hi : config.keepaliveIntervalSecs * 1000000000 = 0 := hi
    omega
  have hfind : config.spans.find? (·.2 = 0) = none := by
    unfold Config.validate at hc
    cases hf : config.spans.find? (·.2 = 0) with
    | none => rfl
    | some p =>
      rw [hf] at hc
      split_ifs at hc
  have := List.find?_eq_none.1 hfind ("keepalive_interval_secs", config.keepaliveIntervalSecs)
    (by simp [Config.spans])
  simp [hzero] at this

theorem bound_new (config : Config) (ids : Nat → String) : Bound ⟨.new config ids, []⟩ where
  taskFresh h := by cases h
  transportFresh h := by cases h
  bound h := by cases h
  kept h := by cases h
  loop _ _ _ h := by cases h
  flushed h := by cases h
  loops h := by cases h
  streams := ⟨nofun, fun ⟨_, h, _⟩ => nomatch h⟩
  last h := by cases h

theorem bound_exec (config : Config) (ids : Nat → String) (actions : List Action) :
    Bound ⟨(Hub.new config ids).exec actions, []⟩ :=
  schedule_induction rfl rfl (bound_new config ids) (fun _ _ _ => bound_step) actions

/-- Sessions and transports agree. -/
structure WellBound (h : Hub) : Prop where
  /-- A live session is bound to its last stream if that is open, and otherwise to none. -/
  last : ∀ {s session}, h.sessions.get? s = some session →
    session.transport = (h.lastStream s).filter fun t => !h.isClosed t
  /-- Of the streams of a session, live or not, that one is open to which it is bound. -/
  streams : ∀ {s t}, (s, t) ∈ h.streams →
    (h.isClosed t = false ↔ h.sessions.transport? s = some t)
  /-- Nobody is bound to a closed transport. -/
  bound : ∀ {s t}, h.sessions.transport? s = some t → (s, t) ∈ h.streams ∧ h.isClosed t = false

theorem mem_streams_of_lastStream {h : Hub} {s : String} {t : TransportId}
    (hl : h.lastStream s = some t) : (s, t) ∈ h.streams := by
  obtain ⟨⟨s', t'⟩, hlast, rfl⟩ := Option.map_eq_some_iff.1 hl
  have hmem := List.mem_filter.1 (List.mem_of_getLast? hlast)
  have hs : s' = s := by simpa using hmem.2
  exact hs ▸ hmem.1

/-- An open stream is bound, whatever else may still move. -/
theorem Bound.transport?_of_open {h : Hub} (hb : Bound ⟨h, []⟩) {s : String} {t : TransportId}
    (hstream : (s, t) ∈ h.streams) (hopen : h.isClosed t = false) :
    h.sessions.transport? s = some t := by
  obtain ⟨state, ht, rfl⟩ := hb.streams.1 hstream
  obtain ⟨state', ht', hopen⟩ := isClosed_eq_false_iff.1 hopen
  cases ht.symm.trans ht'
  exact hb.kept ht hopen

/-- When nothing can move, a bound transport is open: its loop would have ended otherwise. -/
theorem Bound.open_of_still {h : Hub} (hb : Bound ⟨h, []⟩)
    (hi : h.config.keepaliveInterval ≠ 0) (hs : h.Settled) {s : String} {t : TransportId}
    (hbound : h.sessions.transport? s = some t) : h.isClosed t = false := by
  obtain ⟨state, ht, -⟩ := hb.bound hbound
  refine isClosed_eq_false_iff.2 ⟨state, ht, Bool.eq_false_iff.2 fun hclosed => ?_⟩
  have hempty : state.waiting = [] := hb.flushed hbound ht hclosed
  obtain ⟨id, phase, hid⟩ := hb.loop hi hbound
  rcases hb.loops hid with ⟨next, rfl⟩ | ⟨state', frame, ht', hw⟩ | ⟨r, hr⟩
  · have hpoll : h.poll? id (.pushLoop t (.resting next)) = none :=
      Option.bind_eq_none_iff.1 (hs.still (.task id)) _ hid
    have hgone : h.isClosed t = true := by
      have ht : h.transport? t = some state := ht
      simp [isClosed, ht, hclosed]
    simp [poll?, hgone] at hpoll
  · cases ht.symm.trans ht'
    rw [hempty] at hw
    cases hw
  · cases hr

theorem Bound.wellBound {h : Hub} (hb : Bound ⟨h, []⟩) (hi : h.config.keepaliveInterval ≠ 0)
    (hs : h.Settled) : WellBound h where
  last := by
    intro s session hsession
    have hown : h.sessions.transport? s = session.transport := by
      simp [Sessions.transport?, hsession]
    cases ht : session.transport with
    | none =>
      refine (Option.filter_eq_none_iff.2 fun t hl => ?_).symm
      intro hopen
      have hopen : h.isClosed t = false := by simpa using hopen
      have := hb.transport?_of_open (mem_streams_of_lastStream hl) hopen
      rw [hown, ht] at this
      cases this
    | some t =>
      have hbound := hown.trans ht
      have hlast : h.lastStream s = some t := hb.last hbound
      rw [hlast, Option.filter_some, hb.open_of_still hi hs hbound]
      rfl
  streams := fun hstream => ⟨hb.transport?_of_open hstream, hb.open_of_still hi hs⟩
  bound := fun hbound => ⟨hb.streams.2 (hb.bound hbound), hb.open_of_still hi hs hbound⟩

/-- Whatever happened in whatever order: an open stream is bound to its session, the end of a loop
unbinds no transport but its own, and when everything waits, sessions and transports agree. That
comes about whenever nothing happens for a while. -/
theorem streams_bound {config : Config} (ids : Nat → String) (hc : config.validate = .ok ())
    (actions : List Action) :
    let h := (Hub.new config ids).exec actions
    (∀ s t, (s, t) ∈ h.streams → h.isClosed t = false → h.sessions.transport? s = some t) ∧
      (∀ id t s u, u ≠ t → h.sessions.transport? s = some u →
        (h.endLoop id t).sessions.transport? s = some u) ∧
      (h.Settled → WellBound h) ∧ h.settle.Settled ∧ WellBound h.settle := by
  intro h
  have wellBound (actions : List Action) (hs : ((Hub.new config ids).exec actions).Settled) :
      WellBound ((Hub.new config ids).exec actions) := by
    obtain ⟨-, -, hconfig⟩ := sameSetting_exec (h := Hub.new config ids) rfl rfl actions
    exact (bound_exec config ids actions).wellBound (hconfig ▸ keepaliveInterval_ne_zero hc) hs
  have hb : Bound ⟨h, []⟩ := bound_exec config ids actions
  obtain ⟨hpath, htools, -⟩ := sameSetting_exec (h := Hub.new config ids) rfl rfl actions
  obtain ⟨hsettled, moves, hmoves⟩ :=
    settle_settled hpath htools (orderly_exec rfl rfl (orderly_new config ids) actions)
  refine ⟨fun s t => hb.transport?_of_open, fun id t s u hne hs => ?_, wellBound actions,
    hsettled, ?_⟩
  · rw [endLoop_eq]
    exact (transport?_clearTransport ..).2 ⟨hs, fun h => hne h.2⟩
  · have hexec : h.settle = (Hub.new config ids).exec (actions ++ moves.map .move) := by
      rw [exec_append]
      exact hmoves
    have hsettled : h.settle.Settled := hsettled
    rw [hexec] at hsettled ⊢
    exact wellBound _ hsettled

/-- A stream takes the place of another, and the loop of the other ends. -/
def superseded : List Action :=
  [sampleHandshake, sampleStream "S1", sampleStream "S1", .move (.task 1)]

theorem streams_bound_superseded :
    let h := (Hub.new .default sampleId).exec superseded
    Config.default.validate = .ok () ∧ h.streams = [("S1", 0), ("S1", 1)] ∧
    h.sessions.transport? "S1" = some 1 ∧ h.Settled ∧ WellBound h := by
  have settled : ((Hub.new .default sampleId).exec superseded).step? = none := by decide +kernel
  refine ⟨rfl, by decide +kernel, by decide +kernel, settled, ?_⟩
  exact (streams_bound sampleId rfl superseded).2.2.1 settled

end EditorBridge.Hub
