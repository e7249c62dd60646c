import EditorBridge.Proofs.Hub.Course
import EditorBridge.Proofs.Hub.Operation
import EditorBridge.Proofs.Hub.Sweep
/-!
# How long sessions are idle

A service of sweeps ticks at its own times, and late ticks are made up for. Its
next tick is at most an interval away, and from the first sweep on nobody will
have been idle for too long when it comes: `Ticking` says so, and every deed
keeps it. Where everything waits that tick is still to come, so nobody has been
idle for too long yet. Whoever has been seen recently is spared by a sweep.
-/

namespace EditorBridge.Hub

open Moment (Step)
open Sessions (Seen)

/-! ## A service of sweeps -/

/-- A small step leaves a service of sweeps alone, or it is the end of one of its sweeps. -/
theorem sweeper_of_step {m m' : Moment} {log : List Mark} (hp : m.hub.path = .streams)
    (hs : Step m log m') {service : TaskId} {timeout interval next : Nanos}
    (hold : service < m.hub.nextTask)
    (ht : m.hub.tasks.get? service = some (.sweeper timeout interval next)) :
    m'.hub.tasks.get? service = m.hub.tasks.get? service ∨
      next ≤ m.hub.now ∧ m'.hub = { m.hub with
        tasks := m.hub.tasks.set service (.sweeper timeout interval (next + interval)) } ∧
      ∀ s x, m.hub.sessions.get? s = some x → m.hub.now ≤ x.lastSeen + timeout := by
  have hnew : service ≠ m.hub.nextTask := Nat.ne_of_lt hold
  have other {id : TaskId} {task : Task} (hid : m.hub.tasks.get? id = some task)
      (hkind : ∀ timeout interval next, task ≠ .sweeper timeout interval next) : service ≠ id := by
    rintro rfl
    exact hkind _ _ _ (Option.some.inj (hid.symm.trans ht))
  cases hs with
  | touched | stored | acked | ticked | answered | read | deserted | moved | unheard | pushed =>
    exact .inl rfl
  | ended session => exact .inl (by rw [tasks_endSession])
  | subscribed hx =>
    refine .inl ?_
    rw [startStream_eq hx]
    exact get?_greetedTasks _ hnew _
  | refused reply e =>
    exact .inl ((Table.get?_erase_of_ne _ hnew).trans (Table.get?_set_of_ne _ _ hnew))
  | called | sweeping => exact .inl (Table.get?_set_of_ne _ _ hnew)
  | @rested h es id timeout' interval' next' hid hdue hrested =>
    by_cases he : service = id
    · subst he
      cases ht.symm.trans hid
      exact .inr ⟨hdue, rfl, hrested⟩
    · exact .inl (Table.get?_set_of_ne _ _ he)
  | beat hid | greeted _ hid | beaten hid =>
    exact .inl (Table.get?_set_of_ne _ _ (other hid nofun))
  | abandoned hid hc =>
    refine .inl ?_
    rw [abandon_eq hp hid hc]
    exact Table.get?_erase_of_ne _ (other hid (by rintro _ _ _ rfl; cases hc))
  | loopEnded hid | broken hid =>
    refine .inl ?_
    rw [endLoop_eq]
    exact Table.get?_erase_of_ne _ (other hid nofun)
  | polled hid | failed hid | silenced _ hid =>
    exact .inl (Table.get?_erase_of_ne _ (other hid nofun))
  | watched hid htask =>
    refine .inl (Table.get?_erase_of_ne _ (other hid ?_))
    obtain ⟨t, rfl | rfl⟩ := htask <;> nofun
  | wrote _ hid htask =>
    refine .inl (Table.get?_erase_of_ne _ (other hid ?_))
    obtain rfl | rfl := htask <;> nofun

/-- A service of sweeps ticks. Its next tick is not far, and from its first sweep on nobody has been
idle for longer at that tick than the timeout and an interval. -/
structure Ticking (service : TaskId) (timeout interval : Nanos) (h : Hub) : Prop where
  old : service < h.nextTask
  nodup : h.sessions.keys.Nodup
  ticks : ∃ next, h.tasks.get? service = some (.sweeper timeout interval next) ∧
    next ≤ h.now + interval ∧
    (next ≤ h.now ∨
      ∀ s x, h.sessions.get? s = some x → next ≤ x.lastSeen + timeout + interval)

namespace Ticking

variable {service : TaskId} {timeout interval : Nanos} {h h' : Hub}

/-- Something happens to the sessions, and time may pass. -/
theorem aside (hs : Ticking service timeout interval h) (hnow : h.now ≤ h'.now)
    (hnext : h.nextTask ≤ h'.nextTask)
    (htask : h'.tasks.get? service = h.tasks.get? service)
    (hseen : Seen h.now h.sessions h'.sessions) : Ticking service timeout interval h' := by
  obtain ⟨next, ht, hnear, hidle⟩ := hs.ticks
  refine ⟨Nat.lt_of_lt_of_le hs.old hnext, hseen.nodup hs.nodup, next, htask.trans ht,
    Nat.le_trans hnear (Nat.add_le_add_right hnow _), ?_⟩
  rcases hidle with hdue | hidle
  · exact .inl (Nat.le_trans hdue hnow)
  · refine .inr fun s x' hx' => ?_
    rcases hseen.lastSeen hx' with hlast | ⟨x, hx, hlast⟩
    · rw [hlast, Nat.add_right_comm]
      exact Nat.le_trans hnear (Nat.le_add_right _ _)
    · rw [hlast]
      exact hidle s x hx

/-- After a sweep nobody is idle for longer than the timeout, and the next tick is an interval on. -/
theorem ticked (hs : Ticking service timeout interval h) {next : Nanos} (hdue : next ≤ h.now)
    (hrested : ∀ s x, h.sessions.get? s = some x → h.now ≤ x.lastSeen + timeout) :
    Ticking service timeout interval { h with
      tasks := h.tasks.set service (.sweeper timeout interval (next + interval)) } where
  old := hs.old
  nodup := hs.nodup
  ticks := by
    refine ⟨_, Table.get?_set_self .., Nat.add_le_add_right hdue _, .inr fun s x hx => ?_⟩
    exact Nat.add_le_add_right (Nat.le_trans hdue (hrested s x hx)) _

theorem step {m m' : Moment} {log : List Mark} (hp : m.hub.path = .streams)
    (hs : Ticking service timeout interval m.hub) (hstep : Step m log m') :
    Ticking service timeout interval m'.hub := by
  obtain ⟨next, ht, -⟩ := hs.ticks
  rcases sweeper_of_step hp hstep hs.old ht with hsame | ⟨hdue, heq, hrested⟩
  · have onward := onward_step hp hstep
    exact hs.aside onward.now onward.nextTask hsame (seen_of_step hp hstep)
  · rw [heq]
    exact hs.ticked hdue hrested

theorem attended (hs : Ticking service timeout interval h) (ha : Attended h h') :
    Ticking service timeout interval h' :=
  hs.aside (Nat.le_of_eq ha.now.symm) ha.nextTask (ha.tasks service hs.old) ha.seen

theorem performAll (hs : Ticking service timeout interval h) (hsound : h.Sound)
    (deeds : List Deed) : Ticking service timeout interval (h.performAll deeds) :=
  (performAll_induction (fun _ _ hs ha => hs.attended ha) (fun _ _ _ hp hs hstep => hs.step hp hstep)
    hsound hs deeds).2

/-- Where everything waits the next tick is still to come, so nobody has been idle for long. -/
theorem idle_lt (hs : Ticking service timeout interval h) (hi : interval ≠ 0)
    (hsettled : h.Settled) {s : String} {x : Session} (hx : h.sessions.get? s = some x) :
    h.now - x.lastSeen < timeout + interval := by
  obtain ⟨next, ht, -, hidle⟩ := hs.ticks
  have hwaits : ¬ next ≤ h.now := by
    simpa [move?, ht, poll?] using hsettled.still (.task service)
  have hnext : next ≤ x.lastSeen + (timeout + interval) := by
    rw [← Nat.add_assoc]
    exact (hidle.resolve_left hwaits) s x hx
  have hlt : h.now < x.lastSeen + (timeout + interval) :=
    Nat.lt_of_lt_of_le (Nat.lt_of_not_le hwaits) hnext
  rcases Nat.le_total x.lastSeen h.now with hle | hle
  · exact Nat.sub_lt_left_of_lt_add hle hlt
  · rw [Nat.sub_eq_zero_of_le hle]
    exact Nat.lt_of_lt_of_le (Nat.pos_of_ne_zero hi) (Nat.le_add_left ..)

/-- A tick removes those who have been idle for longer than the timeout, and nobody else. -/
theorem get?_of_move (hs : Ticking service timeout interval h)
    (hm : h.move? (.task service) = some h') (s : String) :
    h'.sessions.get? s = if h.expired timeout s then none else h.sessions.get? s := by
  obtain ⟨next, ht, -⟩ := hs.ticks
  obtain ⟨task, ht', hm⟩ := Option.bind_eq_some_iff.1 hm
  cases ht.symm.trans ht'
  obtain ⟨-, hm⟩ := Option.ite_none_right_eq_some.1 hm
  cases hm
  have hmem : s ∈ h.sessions.idle timeout h.now ↔ h.expired timeout s = true :=
    mem_keys_idleSessions hs.nodup
  show (h.sweep timeout).2.sessions.get? s = _
  simp only [get?_sweep, hmem]

/-- Whoever has not been idle for longer than the timeout is spared. -/
theorem spared (hs : Ticking service timeout interval h)
    (hm : h.move? (.task service) = some h') {s : String}
    (hbrief : ∀ x, h.sessions.get? s = some x → h.now - x.lastSeen ≤ timeout) :
    h'.sessions.get? s = h.sessions.get? s := by
  rw [hs.get?_of_move hm, if_neg]
  rw [expired_iff]
  rintro ⟨x, hx, hlong⟩
  exact Nat.not_lt.2 (hbrief x hx) hlong

end Ticking

/-! ## Who has been seen -/

/-- A session has been seen since a moment, if it lives. -/
structure SeenSince (since : Nanos) (s : String) (h : Hub) : Prop where
  past : since ≤ h.now
  seen : ∀ x, h.sessions.get? s = some x → since ≤ x.lastSeen

theorem SeenSince.aside {since : Nanos} {s : String} {h h' : Hub} (hs : SeenSince since s h)
    (hnow : h.now ≤ h'.now) (hseen : Seen h.now h.sessions h'.sessions) : SeenSince since s h' where
  past := Nat.le_trans hs.past hnow
  seen x' hx' := by
    rcases hseen.lastSeen hx' with hlast | ⟨x, hx, hlast⟩
    · exact hlast ▸ hs.past
    · exact hlast ▸ hs.seen x hx

theorem SeenSince.performAll {since : Nanos} {s : String} {h : Hub} (hs : SeenSince since s h)
    (hsound : h.Sound) (deeds : List Deed) : SeenSince since s (h.performAll deeds) :=
  (performAll_induction (P := SeenSince since s)
    (fun _ _ hs ha => hs.aside (Nat.le_of_eq ha.now.symm) ha.seen)
    (fun _ _ _ hp hs hstep => hs.aside (onward_step hp hstep).now (seen_of_step hp hstep))
    hsound hs deeds).2

/-- A session is seen by what is done: it is created or refreshed, touched, given a transport, or
seen by a request. -/
inductive Refreshes (h : Hub) (s : String) : Deed → Prop
  | created : Refreshes h s (.operation (.create s))
  | touched : Refreshes h s (.operation (.touch s))
  | bound (t : TransportId) : Refreshes h s (.operation (.bind s t))
  | requested {r : Http.Request} {x : Session} : (h.request r).2.sessions.get? s = some x →
      x.lastSeen = h.now → Refreshes h s (.action (.event (.request r)))

theorem Refreshes.seen {h : Hub} {s : String} {deed : Deed} (hr : h.Refreshes s deed) {x' : Session}
    (hx' : (h.perform deed).sessions.get? s = some x') : x'.lastSeen = h.now := by
  cases hr with
  | created =>
    have hx' : (h.sessions.create s h.now h.wall).get? s = some x' := hx'
    unfold Sessions.create at hx'
    split at hx' <;> cases (Table.get?_set_self ..).symm.trans hx' <;> rfl
  | touched =>
    have hx' : (h.sessions.touch s h.now).2.get? s = some x' := hx'
    rw [Sessions.touch, Sessions.update, Table.get?_modify, if_pos rfl] at hx'
    obtain ⟨x, -, rfl⟩ := Option.map_eq_some_iff.1 hx'
    rfl
  | bound t =>
    have hx' : (h.bindTransport s t).2.sessions.get? s = some x' := hx'
    unfold bindTransport at hx'
    split at hx'
    · next hnone => cases hnone.symm.trans hx'
    · dsimp only at hx'
      rw [Table.get?_set_self] at hx'
      cases hx'
      split_ifs
      · rfl
      · rw [closeIfAny_eq]
  | requested hx hlast =>
    cases hx.symm.trans hx'
    exact hlast

theorem Refreshes.since {h : Hub} {s : String} {deed : Deed} (hr : h.Refreshes s deed)
    (hs : h.Sound) : SeenSince h.now s (h.perform deed) where
  past := now_perform hs deed
  seen _ hx := Nat.le_of_eq (hr.seen hx).symm

/-! ## The law of idleness -/

/-- The deeds of letting things move. -/
def deedsOf (moves : List Mover) : List Deed := moves.map fun m => .action (.move m)

theorem performAll_deedsOf (h : Hub) (moves : List Mover) :
    h.performAll (deedsOf moves) = h.exec (moves.map .move) := by
  simp only [performAll, deedsOf, exec, List.foldl_map]
  rfl

/-- A service of sweeps starts. -/
theorem ticking_startSweeps {h : Hub} (hn : h.sessions.keys.Nodup) (timeout : Nanos)
    {interval : Nanos} (hi : interval ≠ 0) :
    Ticking h.nextTask timeout interval (h.startSweeps timeout interval) := by
  rw [startSweeps, if_neg hi]
  exact ⟨Nat.lt_succ_self _, hn, h.now, Table.get?_set_self .., Nat.le_add_right ..,
    .inl (Nat.le_refl _)⟩

/-- A service of sweeps bounds how long sessions are idle, and spares those that are not. Whenever
everything waits, and in the end everything does, nobody who lives has been idle for as long as the
timeout and an interval. A move of the service leaves alone who has been idle for no longer than the
timeout, and so every session that was created, touched, bound or otherwise seen so recently. -/
theorem idleness_bounded (config : Config) (ids : Nat → String) (timeout : Nanos) {interval : Nanos}
    (hi : interval ≠ 0) (before after : List Deed) :
    let start := (Hub.new config ids).performAll before
    let deeds := before ++ .action (.event (.startSweeps timeout interval)) :: after
    let h := (Hub.new config ids).performAll deeds
    (h.Settled → ∀ s x, h.sessions.get? s = some x → h.now - x.lastSeen < timeout + interval) ∧
    (h.settle.Settled ∧ ∃ moves, h.settle = h.performAll (deedsOf moves)) ∧
    (∀ h', h.move? (.task start.nextTask) = some h' → ∀ s x, h.sessions.get? s = some x →
      h.now - x.lastSeen ≤ timeout → h'.sessions.get? s = some x) ∧
    ∀ past deed recent s, deeds = past ++ deed :: recent →
      let seen := (Hub.new config ids).performAll past
      seen.Refreshes s deed → h.now ≤ seen.now + timeout →
      ∀ h', h.move? (.task start.nextTask) = some h' → h'.sessions.get? s = h.sessions.get? s := by
  intro start deeds h
  have soundAfter (deeds : List Deed) : ((Hub.new config ids).performAll deeds).Sound :=
    sound_performAll (sound_new config ids) deeds
  have sound : h.Sound := soundAfter deeds
  have ticking : Ticking start.nextTask timeout interval h := by
    have nodup := nodup_performAll (sound_new config ids) List.nodup_nil before
    have started := soundAfter (before ++ [.action (.event (.startSweeps timeout interval))])
    rw [performAll_append] at started
    show Ticking _ _ _ ((Hub.new config ids).performAll _)
    rw [performAll_append]
    exact (ticking_startSweeps nodup timeout hi).performAll started after
  refine ⟨fun hsettled s x hx => ticking.idle_lt hi hsettled hx, ?_, ?_, ?_⟩
  · obtain ⟨settled, moves, heq⟩ := settle_settled sound.path sound.tools sound.orderly
    exact ⟨settled, moves, heq.trans (performAll_deedsOf h moves).symm⟩
  · intro h' hm s x hx hbrief
    rw [← hx]
    refine ticking.spared hm fun y hy => ?_
    cases hx.symm.trans hy
    exact hbrief
  · intro past deed recent s hdeeds seen hrefreshes hrecent h' hm
    have since : SeenSince seen.now s h := by
      have sound : seen.Sound := soundAfter past
      show SeenSince _ _ ((Hub.new config ids).performAll deeds)
      rw [hdeeds, performAll_append]
      exact (hrefreshes.since sound).performAll (sound_performAll sound [deed]) recent
    refine ticking.spared hm fun x hx => Nat.sub_le_iff_le_add'.2 ?_
    exact Nat.le_trans hrecent (Nat.add_le_add_right (since.seen x hx) _)

/-- Time passes. -/
def sampleWait (d : Nanos) : Deed := .action (.event (.advance d))

/-- A bridge with two sessions, one old and one new, when a service of sweeps has started at ten and
its first four ticks are late. The new session is touched before they come. -/
def sampleLate : List Deed :=
  [.operation (.create "S1"), sampleWait 10] ++ .action (.event (.startSweeps 5 2)) ::
    [.operation (.create "S2"), sampleWait 6, .operation (.touch "S2")]

/-- The first of the late ticks removes the old session and spares the new one. -/
theorem idleness_bounded_late :
    (2 : Nanos) ≠ 0 ∧
    (let h := (Hub.new .default sampleId).performAll sampleLate
     h.sessions.keys = ["S1", "S2"] ∧
     ∃ h', h.move? (.task 0) = some h' ∧ h'.sessions.keys = ["S2"] ∧
       h'.sessions.get? "S2" = h.sessions.get? "S2") ∧
    (let h := (Hub.new .default sampleId).performAll
       (sampleLate ++ deedsOf (.replicate 4 (.task 0)) ++ [sampleWait 1])
     h.Settled ∧ h.sessions.keys = ["S2"] ∧
     ∀ s x, h.sessions.get? s = some x → h.now - x.lastSeen < 5 + 2) := by
  have interval : (2 : Nanos) ≠ 0 := by decide
  refine ⟨interval, ⟨by decide, _, rfl, by decide, ?_⟩, rfl, by decide, ?_⟩
  · obtain ⟨-, -, -, spared⟩ := idleness_bounded .default sampleId 5 interval
      [.operation (.create "S1"), sampleWait 10]
      [.operation (.create "S2"), sampleWait 6, .operation (.touch "S2")]
    exact spared sampleLate.dropLast (.operation (.touch "S2")) [] "S2" rfl .touched (by decide) _ rfl
  · obtain ⟨bounded, -⟩ := idleness_bounded .default sampleId 5 interval
      [.operation (.create "S1"), sampleWait 10]
      ([.operation (.create "S2"), sampleWait 6, .operation (.touch "S2")] ++
        deedsOf (.replicate 4 (.task 0)) ++ [sampleWait 1])
    exact bounded rfl

end EditorBridge.Hub
