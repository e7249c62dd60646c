import EditorBridge.Proofs.Broker.Holding
import EditorBridge.Proofs.Hub.Binding
/-!
# The course of one command

Seen from one task that waits for a command, a bridge is small: the task and its
call, the frame in one line or in one channel, perhaps the ending of a write
that has yet to be told, and the answer. `course_step` goes through the small
steps once and finds eight things that can happen to all this; the first is
nothing.
-/

namespace EditorBridge

open Transport (Endings Ended)

/-! ## What belongs to one number -/

namespace Hub

section EntriesOf

variable {α β : Type} {k : Nat}

@[simp] theorem entriesOf_nil : entriesOf k ([] : List (Nat × α)) = [] := rfl

@[simp] theorem entriesOf_append (l l' : List (Nat × α)) :
    entriesOf k (l ++ l') = entriesOf k l ++ entriesOf k l' := by
  simp [entriesOf]

@[simp] theorem entriesOf_cons_self (a : α) (l : List (Nat × α)) :
    entriesOf k ((k, a) :: l) = a :: entriesOf k l := by
  simp [entriesOf]

theorem entriesOf_cons_of_ne {i : Nat} (hi : i ≠ k) (a : α) (l : List (Nat × α)) :
    entriesOf k ((i, a) :: l) = entriesOf k l := by
  simp [entriesOf, hi]

theorem mem_entriesOf {a : α} {l : List (Nat × α)} : a ∈ entriesOf k l ↔ (k, a) ∈ l := by
  simp [entriesOf]

end EntriesOf

end Hub

open Hub (entriesOf mem_entriesOf entriesOf_cons_of_ne)

namespace Transport

/-- What a writer has on a transport: the frames that wait and those that were taken. -/
def linesOf (t : Transport) (k : WriterId) : List String × List String :=
  (entriesOf k t.waiting, entriesOf k t.sent)

/-- The frame of a write that ended well. -/
def Ended.frame? (e : Ended) : Option String :=
  match e.result with
  | .ok () => some e.frame
  | .error _ => none

theorem entriesOf_entry (k : WriterId) (done : List Ended) :
    entriesOf k (done.map Ended.entry) = (done.filter (·.writer = k)).map (·.frame) := by
  induction done with
  | nil => rfl
  | cons e done ih =>
    by_cases he : e.writer = k
    · subst he
      simpa [Ended.entry] using ih
    · simpa [Ended.entry, he, entriesOf_cons_of_ne he] using ih

theorem entriesOf_ending (k : WriterId) (done : List Ended) :
    entriesOf k (done.map Ended.ending) = (done.filter (·.writer = k)).map (·.result) := by
  induction done with
  | nil => rfl
  | cons e done ih =>
    by_cases he : e.writer = k
    · subst he
      simpa [Ended.ending] using ih
    · simpa [Ended.ending, he, entriesOf_cons_of_ne he] using ih

theorem Ended.taken?_eq (e : Ended) : e.taken? = e.frame?.map fun frame => (e.writer, frame) := by
  obtain ⟨writer, frame, result⟩ := e
  cases result <;> rfl

theorem entriesOf_taken (k : WriterId) (done : List Ended) :
    entriesOf k (done.filterMap Ended.taken?) =
      (done.filter (·.writer = k)).filterMap Ended.frame? := by
  induction done with
  | nil => rfl
  | cons e done ih =>
    rw [List.filterMap_cons, Ended.taken?_eq]
    by_cases he : e.writer = k <;> cases hf : e.frame?
    · simp [he, hf, ih]
    · simp [he, hf, ih]
    · simp [he, ih]
    · simp [he, ih, entriesOf_cons_of_ne he]

/-- The law of turns for one writer. -/
theorem settle_linesOf (now : Nanos) (t : Transport) (k : WriterId) :
    ∃ done : List Ended, entriesOf k (settle now t).2 = done.map (·.result) ∧
      (t.linesOf k).1 = done.map (·.frame) ++ ((settle now t).1.linesOf k).1 ∧
      ((settle now t).1.linesOf k).2 = (t.linesOf k).2 ++ done.filterMap Ended.frame? := by
  obtain ⟨done, hendings, hd⟩ := settle_served now t
  refine ⟨done.filter (·.writer = k), ?_, ?_, ?_⟩
  · rw [hendings, entriesOf_ending]
  · simp only [linesOf]
    rw [hd.waiting, Hub.entriesOf_append, entriesOf_entry]
  · simp only [linesOf]
    rw [hd.sent, Hub.entriesOf_append, entriesOf_taken]

end Transport

namespace Hub

open Moment (Step Steps)

/-- What a task has on a transport. -/
def linesOf (h : Hub) (t : TransportId) (k : TaskId) : List String × List String :=
  ((h.transport? t).map (·.linesOf k)).getD ([], [])

theorem sentBy_eq (h : Hub) (t : TransportId) (k : TaskId) : h.sentBy t k = (h.linesOf t k).2 := by
  unfold sentBy linesOf
  cases h.transport? t <;> rfl

theorem linesOf_of_transport? {h : Hub} {t : TransportId} {state : Transport}
    (ht : h.transport? t = some state) (k : TaskId) : h.linesOf t k = state.linesOf k := by
  simp [linesOf, ht]

theorem transport?_putTransport_self (h : Hub) (t : TransportId) (state : Transport) :
    (h.putTransport t state).transport? t = some state := Table.get?_set_self ..

theorem transport?_putTransport_of_ne (h : Hub) {t u : TransportId} (state : Transport)
    (hu : u ≠ t) : (h.putTransport t state).transport? u = h.transport? u :=
  Table.get?_set_of_ne _ _ hu

/-! ## The eight things -/

/-- Nothing has changed for a task. -/
structure Aside (k : TaskId) (m m' : Moment) : Prop where
  now : m.hub.now ≤ m'.hub.now
  last : m.hub.nextTask ≤ m'.hub.nextTask
  task : m'.hub.tasks.get? k = m.hub.tasks.get? k
  lines : ∀ t, m'.hub.linesOf t k = m.hub.linesOf t k
  untold : entriesOf k m'.untold = entriesOf k m.untold
  answers : m'.hub.answersTo k = m.hub.answersTo k

/-- What a step can do to a task that waits for a command, or does no longer. -/
inductive Course (k : TaskId) : Moment → List Mark → Moment → Prop
  | aside {m m' : Moment} {log : List Mark} : Aside k m m' →
      Broker.Apart k m.hub.broker m'.hub.broker → Course k m log m'
  | acked {m m' : Moment} {x : Broker.Claimed} : Aside k m m' →
      (m.hub.broker.ack x.session x.ack x.wall).1 = .ok () →
      m'.hub.broker = (m.hub.broker.ack x.session x.ack x.wall).2 → Course k m [.acked x] m'
  | moved {h : Hub} {es : Endings} {t : TransportId} {state : Transport} :
      h.transport? t = some state →
      Course k ⟨h, es⟩ [] ⟨h.putTransport t (state.settle h.now).1, es ++ (state.settle h.now).2⟩
  | pushed {h : Hub} {es : Endings} {reply : CommandReply} {r : Transport.WriteResult} :
      h.tasks.get? k = some (.command reply) → (h.broker.pushed k r.toBool h.now).1 = none →
      Course k ⟨h, (k, r) :: es⟩ []
        ⟨{ h with broker := (h.broker.pushed k r.toBool h.now).2 }, es⟩
  | failed {h : Hub} {es : Endings} {reply : CommandReply} {r : Transport.WriteResult}
      {x : Except CommandError Broker.Ack} : h.tasks.get? k = some (.command reply) →
      (h.broker.pushed k r.toBool h.now).1 = some x →
      Course k ⟨h, (k, r) :: es⟩ [] ⟨{ h with
        broker := (h.broker.pushed k r.toBool h.now).2 }.finish k (commandAnswer reply x), es⟩
  | polled {h : Hub} {es : Endings} {reply : CommandReply} {x : Except CommandError Broker.Ack} :
      h.tasks.get? k = some (.command reply) → (h.broker.poll k h.now).1 = some x →
      Course k ⟨h, es⟩ [] ⟨{ h with broker := (h.broker.poll k h.now).2 }.finish k
        (commandAnswer reply x), es⟩
  | abandoned {h : Hub} {es : Endings} {task : Task} : h.tasks.get? k = some task →
      task.isCall = true → Course k ⟨h, es⟩ [.abandoned k] ⟨(h.abandon k).2, es⟩
  /-- The task is over, and is told nothing any more. -/
  | gone {h : Hub} {es : Endings} {r : Transport.WriteResult} : h.tasks.get? k = none →
      Course k ⟨h, (k, r) :: es⟩ [] ⟨h, es⟩
  /-- The task waits for something else. -/
  | other {m m' : Moment} {log : List Mark} {task : Task} : m.hub.tasks.get? k = some task →
      (∀ reply, task ≠ .command reply) → m.hub.nextTask ≤ m'.hub.nextTask → Course k m log m'

/-! ## Lines that stay -/

section Lines

variable {h h' : Hub} {k : TaskId}

theorem linesOf_congr {t : TransportId} (ht : h'.transport? t = h.transport? t) :
    h'.linesOf t k = h.linesOf t k := by
  simp [linesOf, ht]

theorem linesOf_shutAny {o : Option TransportId} (hset : h'.transports = shutAny h.transports o)
    (t : TransportId) : h'.linesOf t k = h.linesOf t k := by
  simp only [linesOf, transport?, hset, get?_shutAny]
  split
  · cases h.transports.get? t <;> rfl
  · rfl

/-- One transport changes, but nothing of the task's on it. -/
theorem linesOf_set {t : TransportId} {state state' : Transport}
    (hset : h'.transports = h.transports.set t state') (ht : h.transport? t = some state)
    (hs : state'.linesOf k = state.linesOf k) (u : TransportId) :
    h'.linesOf u k = h.linesOf u k := by
  by_cases hu : u = t
  · subst hu
    rw [linesOf_of_transport? ht, ← hs]
    refine linesOf_of_transport? ?_ k
    rw [transport?, hset, Table.get?_set_self]
  · refine linesOf_congr ?_
    rw [transport?, hset, Table.get?_set_of_ne _ _ hu]
    rfl

theorem linesOf_queue (state : Transport) {w : TaskId} (hw : w ≠ k) (frame : String) :
    Transport.linesOf { state with line := state.line ++ [(w, frame)] } k = state.linesOf k := by
  simp [Transport.linesOf, Transport.waiting, entriesOf_cons_of_ne hw]

theorem entriesOf_filter_of_ne {α : Type} {w : Nat} (hw : w ≠ k) (l : List (Nat × α)) :
    entriesOf k (l.filter (·.1 ≠ w)) = entriesOf k l := by
  induction l with
  | nil => rfl
  | cons e l ih =>
    obtain ⟨i, a⟩ := e
    by_cases hi : i = w
    · subst hi
      simpa [entriesOf_cons_of_ne hw] using ih
    · by_cases hk : i = k
      · subst hk
        simpa [hi] using ih
      · simpa [hi, entriesOf_cons_of_ne hk] using ih

theorem entriesOf_filter_self {α : Type} (l : List (Nat × α)) :
    entriesOf k (l.filter (·.1 ≠ k)) = [] := by
  refine List.eq_nil_iff_forall_not_mem.2 fun a ha => ?_
  have := List.mem_filter.1 (mem_entriesOf.1 ha)
  simp at this

theorem linesOf_abandon (state : Transport) {w : TaskId} (hw : w ≠ k) :
    (state.abandon w).linesOf k = state.linesOf k := by
  have hsent : (state.abandon w).sent = state.sent := rfl
  rw [Transport.linesOf, Transport.linesOf, Transport.waiting_abandon, entriesOf_filter_of_ne hw, hsent]

theorem linesOf_abandon_self (state : Transport) :
    (state.abandon k).linesOf k = ([], (state.linesOf k).2) := by
  have hsent : (state.abandon k).sent = state.sent := rfl
  rw [Transport.linesOf, Transport.linesOf, Transport.waiting_abandon, entriesOf_filter_self, hsent]

end Lines

/-! ## Every step -/

section Steps

variable {h h' : Hub} {es es' : Endings} {k : TaskId}

/-- A task other than this one comes, changes or goes. -/
theorem Aside.tasks (hnow : h'.now = h.now) (hlast : h.nextTask ≤ h'.nextTask)
    (htask : h'.tasks.get? k = h.tasks.get? k) (htransports : h'.transports = h.transports)
    (huntold : entriesOf k es' = entriesOf k es)
    (hanswers : h'.answersTo k = h.answersTo k) : Aside k ⟨h, es⟩ ⟨h', es'⟩ :=
  ⟨Nat.le_of_eq hnow.symm, hlast, htask, fun t => by simp [linesOf, transport?, htransports],
    huntold, hanswers⟩

theorem answersTo_append {h' : Hub} {id : TaskId} {a : Answer}
    (ha : h'.answers = h.answers ++ [(id, a)]) (hid : id ≠ k) : h'.answersTo k = h.answersTo k := by
  simp [answersTo, ha, entriesOf_cons_of_ne hid]

theorem aside_ended (session : String) : Aside k ⟨h, es⟩ ⟨(h.endSession session).2, es⟩ := by
  cases hs : h.sessions.get? session with
  | none =>
    rw [endSession_of_none hs]
    exact .tasks rfl (Nat.le_refl _) rfl rfl rfl rfl
  | some s =>
    rw [endSession_eq hs]
    exact ⟨Nat.le_refl _, Nat.le_refl _, rfl, linesOf_shutAny rfl, rfl, rfl⟩

theorem aside_loopEnded {id : TaskId} (hid : id ≠ k) (t : TransportId)
    (huntold : entriesOf k es' = entriesOf k es) : Aside k ⟨h, es⟩ ⟨h.endLoop id t, es'⟩ := by
  rw [endLoop_eq]
  exact ⟨Nat.le_refl _, Nat.le_refl _, Table.get?_erase_of_ne _ (Ne.symm hid),
    fun u => linesOf_shutAny (o := some t) rfl u, huntold, rfl⟩

/-- A number is not one of the next few. -/
theorem ne_next {k n i count : Nat} (hi : i < count) (hk : k < n ∨ n + count ≤ k) : n + i ≠ k := by
  omega

theorem get?_greetedTasks (h : Hub) {loop k : TaskId} (hk : k ≠ loop) (t : TransportId) :
    (h.greetedTasks loop t).get? k = h.tasks.get? k := by
  unfold greetedTasks
  dsimp only
  split_ifs
  · rw [Table.get?_erase_of_ne _ hk, Table.get?_set_of_ne _ _ hk]
  · rw [Table.get?_set_of_ne _ _ hk, Table.get?_set_of_ne _ _ hk]

/-- A new stream has its greeting, and nothing of anybody else's. -/
theorem linesOf_startStream (hb : Bound ⟨h, es⟩) {session : String} {s : Session}
    (hs : h.sessions.get? session = some s) (hk : k ≠ h.nextTask) (t : TransportId) :
    (h.startStream session).2.linesOf t k = h.linesOf t k := by
  rw [startStream_eq hs]
  by_cases ht : t = h.nextTransport
  · subst ht
    have hnone : h.transport? h.nextTransport = none := by
      refine Option.eq_none_iff_forall_ne_some.2 fun state hstate => ?_
      exact Nat.lt_irrefl _ (hb.transportFresh hstate)
    have hfresh : (h.freshStream session h.nextTask).linesOf k = ([], []) := by
      simp [freshStream, Transport.linesOf, Transport.waiting, Transport.opened, Transport.put,
        entriesOf_cons_of_ne (Ne.symm hk)]
    have hold : h.linesOf h.nextTransport k = ([], []) := by simp [linesOf, hnone]
    rw [hold]
    simp [linesOf, transport?, hfresh]
  · let fresh := Transport.opened session h.config.sseBuffer h.config.sseWriteTimeout
    let h₁ := { h with transports := h.transports.set h.nextTransport fresh }
    have hopened : h₁.linesOf t k = h.linesOf t k :=
      linesOf_congr (Table.get?_set_of_ne _ _ ht)
    let h₂ := { h₁ with
      transports := shutAny h₁.transports (supplanted s h.nextTransport) }
    have hshut : h₂.linesOf t k = h₁.linesOf t k := linesOf_shutAny rfl t
    rw [← hopened, ← hshut]
    exact linesOf_congr (Table.get?_set_of_ne _ _ ht)

theorem aside_subscribed (hb : Bound ⟨h, es⟩) {session : String} {s : Session}
    (hs : h.sessions.get? session = some s) (hk : k < h.nextTask ∨ h.nextTask + 2 ≤ k) :
    Aside k ⟨h, es⟩ ⟨(h.startStream session).2, es⟩ := by
  have hne : k ≠ h.nextTask := (ne_next (i := 0) (by decide) hk).symm
  have hlines := linesOf_startStream hb hs hne
  rw [startStream_eq hs] at hlines ⊢
  exact ⟨Nat.le_refl _, Nat.le_add_right _ 2, get?_greetedTasks h hne _, hlines, rfl,
    answersTo_append rfl (ne_next (by decide) hk)⟩

theorem aside_abandoned (hp : h.path = .streams) {id : TaskId} {task : Task}
    (ht : h.tasks.get? id = some task) (hc : task.isCall = true) (hid : id ≠ k) :
    Aside k ⟨h, es⟩ ⟨(h.abandon id).2, es⟩ := by
  rw [abandon_eq hp ht hc]
  refine ⟨Nat.le_refl _, Nat.le_refl _, Table.get?_erase_of_ne _ (Ne.symm hid), fun t => ?_, rfl,
    rfl⟩
  simp only [linesOf, transport?, Table.get?_mapValues]
  cases h.transports.get? t with
  | none => rfl
  | some state => exact linesOf_abandon state hid

/-- What happens to one task in a small step. -/
theorem course_step {m m' : Moment} {log : List Mark} (hp : m.hub.path = .streams) (hb : Bound m)
    (hs : Step m log m') (k : TaskId) (hk : k < m.hub.nextTask ∨ m'.hub.nextTask ≤ k) :
    Course k m log m' := by
  have new {n : TaskId} (hn : k < n ∨ n + 1 ≤ k) : n ≠ k := ne_next (i := 0) (by decide) hn
  have le (n : TaskId) : n ≤ n := Nat.le_refl n
  have erased {h : Hub} {id : TaskId} (hid : id ≠ k) :
      (h.tasks.erase id).get? k = h.tasks.get? k := Table.get?_erase_of_ne _ (Ne.symm hid)
  have changed {h : Hub} {id : TaskId} {task : Task} (hid : id ≠ k) :
      (h.tasks.set id task).get? k = h.tasks.get? k := Table.get?_set_of_ne _ _ (Ne.symm hid)
  have untold {id : TaskId} {r : Transport.WriteResult} {es : Endings} (hid : id ≠ k) :
      entriesOf k es = entriesOf k ((id, r) :: es) := (entriesOf_cons_of_ne hid r es).symm
  cases hs with
  | touched | stored => exact .aside (.tasks rfl (le _) rfl rfl rfl rfl) (.refl ..)
  | ticked d => exact .aside ⟨Nat.le_add_right _ d, le _, rfl, fun _ => rfl, rfl, rfl⟩ (.refl ..)
  | acked hwall hok => exact .acked (.tasks rfl (le _) rfl rfl rfl rfl) hok rfl
  | answered ha =>
    refine .aside (.tasks rfl (Nat.le_succ _) rfl rfl rfl ?_) (.refl ..)
    exact answersTo_append rfl (new hk)
  | @ended h es session =>
    refine .aside (aside_ended session) ?_
    cases hx : h.sessions.get? session with
    | none =>
      rw [endSession_of_none hx]
      exact .refl ..
    | some s =>
      rw [endSession_eq hx]
      exact .refl ..
  | subscribed hx =>
    refine .aside (aside_subscribed hb hx ?_) ?_
    · rw [startStream_eq hx] at hk
      exact hk
    · rw [startStream_eq hx]
      exact .refl ..
  | refused reply e =>
    have hne := new hk
    refine .aside (.tasks rfl (Nat.le_succ _) ?_ rfl rfl (answersTo_append rfl hne)) (.refl ..)
    exact (Table.get?_erase_of_ne _ hne.symm).trans (changed hne)
  | called reply o hbound ht hc =>
    have hne := new hk
    refine .aside ⟨le _, Nat.le_succ _, changed hne, fun u => ?_, rfl, rfl⟩
      (Broker.apart_enroll o _ hne.symm)
    exact linesOf_set rfl ht (linesOf_queue _ hne _) u
  | read n ht =>
    refine .aside ⟨le _, le _, rfl, fun u => linesOf_set rfl ht ?_ u, rfl, rfl⟩ (.refl ..)
    rfl
  | deserted ht =>
    refine .aside ⟨le _, le _, rfl, fun u => linesOf_set rfl ht ?_ u, rfl, rfl⟩ (.refl ..)
    rfl
  | @abandoned h es id task ht hc =>
    by_cases hid : id = k
    · exact hid ▸ .abandoned ht hc
    · refine .aside (aside_abandoned hp ht hc hid) ?_
      rw [abandon_eq hp ht hc]
      exact Broker.apart_finish (Ne.symm hid)
  | sweeping timeout hi =>
    exact .aside (.tasks rfl (Nat.le_succ _) (changed (new hk)) rfl rfl rfl) (.refl ..)
  | @rested h es id timeout interval next ht =>
    by_cases hid : id = k
    · exact .other (hid ▸ ht) (by simp) (le _)
    · exact .aside (.tasks rfl (le _) (changed hid) rfl rfl rfl) (.refl ..)
  | moved ht => exact .moved ht
  | @beat h es id t next state hbeat ht hc =>
    by_cases hid : id = k
    · exact .other (hid ▸ hbeat) (by simp) (le _)
    · refine .aside ⟨le _, le _, changed hid, fun u => ?_, rfl, rfl⟩ (.refl ..)
      exact linesOf_set rfl ht (linesOf_queue _ hid _) u
  | @loopEnded h es id t next ht =>
    by_cases hid : id = k
    · refine .other (hid ▸ ht) (by simp) ?_
      rewrite [endLoop_eq]
      exact le _
    · refine .aside (aside_loopEnded hid t rfl) ?_
      rw [endLoop_eq]
      exact .refl ..
  | @watched h es id task a ht htask ha =>
    by_cases hid : id = k
    · refine .other (hid ▸ ht) ?_ (le _)
      rintro reply rfl
      obtain ⟨u, hu | hu⟩ := htask <;> cases hu
    · exact .aside (.tasks rfl (le _) (erased hid) rfl rfl (answersTo_append rfl hid)) (.refl ..)
  | @polled h es id reply r ht hr =>
    by_cases hid : id = k
    · subst hid
      exact .polled ht hr
    · exact .aside (.tasks rfl (le _) (erased hid) rfl rfl (answersTo_append rfl hid))
        (Broker.apart_poll (Ne.symm hid) hr)
  | @unheard h es id r hcommand hloop =>
    by_cases hid : id = k
    · subst hid
      cases ht : h.tasks.get? id with
      | none => exact .gone ht
      | some task => exact .other ht (fun reply he => hcommand reply (he ▸ ht)) (le _)
    · exact .aside (.tasks rfl (le _) rfl rfl (untold hid) rfl) (.refl ..)
  | @wrote h es id task a r ht htask ha =>
    by_cases hid : id = k
    · refine .other (hid ▸ ht) ?_ (le _)
      rintro reply rfl
      obtain hu | hu := htask <;> cases hu
    · exact .aside (.tasks rfl (le _) (erased hid) rfl (untold hid) (answersTo_append rfl hid))
        (.refl ..)
  | @pushed h es id reply r ht hr =>
    by_cases hid : id = k
    · subst hid
      exact .pushed ht hr
    · exact .aside (.tasks rfl (le _) rfl rfl (untold hid) rfl) (Broker.apart_pushed _ _ (Ne.symm hid))
  | @failed h es id reply r x ht hr =>
    by_cases hid : id = k
    · subst hid
      exact .failed ht hr
    · exact .aside (.tasks rfl (le _) (erased hid) rfl (untold hid) (answersTo_append rfl hid))
        (Broker.apart_pushed _ _ (Ne.symm hid))
  | @greeted h es id t r ht hi =>
    by_cases hid : id = k
    · exact .other (hid ▸ ht) (by simp) (le _)
    · exact .aside (.tasks rfl (le _) (changed hid) rfl (untold hid) rfl) (.refl ..)
  | @silenced h es id t r ht hi =>
    by_cases hid : id = k
    · exact .other (hid ▸ ht) (by simp) (le _)
    · exact .aside (.tasks rfl (le _) (erased hid) rfl (untold hid) rfl) (.refl ..)
  | @beaten h es id t next ht =>
    by_cases hid : id = k
    · exact .other (hid ▸ ht) (by simp) (le _)
    · exact .aside (.tasks rfl (le _) (changed hid) rfl (untold hid) rfl) (.refl ..)
  | @broken h es id t next e ht =>
    by_cases hid : id = k
    · refine .other (hid ▸ ht) (by simp) ?_
      rewrite [endLoop_eq]
      exact le _
    · refine .aside (aside_loopEnded hid t (untold hid)) ?_
      rw [endLoop_eq]
      exact .refl ..

/-! ## Tasks that wait for no write -/

/-- To a task without a frame in the line nothing happens when a transport moves. -/
theorem aside_moved {t : TransportId} {state : Transport} (ht : h.transport? t = some state)
    (hidle : (h.linesOf t k).1 = []) : Aside k ⟨h, es⟩
      ⟨h.putTransport t (state.settle h.now).1, es ++ (state.settle h.now).2⟩ := by
  obtain ⟨done, hendings, hwaiting, hsent⟩ := Transport.settle_linesOf h.now state k
  rw [linesOf_of_transport? ht] at hidle
  obtain ⟨hdone, hrest⟩ := List.append_eq_nil_iff.1 (hwaiting.symm.trans hidle)
  obtain rfl : done = [] := List.map_eq_nil_iff.1 hdone
  have hsame : (state.settle h.now).1.linesOf k = state.linesOf k := by
    refine Prod.ext (hrest.trans hidle.symm) ?_
    simpa using hsent
  refine ⟨Nat.le_refl _, Nat.le_refl _, rfl, fun u => linesOf_set rfl ht hsame u, ?_, rfl⟩
  simp [hendings]

/-- Nothing in the bridge knows a number. -/
structure Unused (m : Moment) (k : TaskId) : Prop where
  task : m.hub.tasks.get? k = none
  lines : ∀ t, m.hub.linesOf t k = ([], [])
  untold : entriesOf k m.untold = []
  answers : m.hub.answersTo k = []
  entries : ∀ {id p}, m.hub.broker.pending.get? id = some p → p.call ≠ k

theorem Unused.aside {m m' : Moment} (h : Unused m k) (ha : Aside k m m')
    (hentries : ∀ {id p}, m'.hub.broker.pending.get? id = some p → p.call ≠ k) : Unused m' k :=
  ⟨ha.task.trans h.task, fun t => (ha.lines t).trans (h.lines t), ha.untold.trans h.untold,
    ha.answers.trans h.answers, hentries⟩

/-- Numbers from the next one on are unused. -/
theorem unused_step {m m' : Moment} {log : List Mark} (hp : m.hub.path = .streams) (hb : Bound m)
    (h : ∀ n, m.hub.nextTask ≤ n → Unused m n) (hs : Step m log m') (k : TaskId)
    (hk : m'.hub.nextTask ≤ k) : Unused m' k := by
  have hcourse := course_step hp hb hs k (.inr hk)
  have noTask {h' : Hub} {task : Task} (hidle : h'.tasks.get? k = none)
      (ht : h'.tasks.get? k = some task) {P : Prop} : P := by
    cases hidle.symm.trans ht
  cases hcourse with
  | aside ha hapart =>
    have hold := h k (Nat.le_trans ha.last hk)
    exact hold.aside ha fun hp hc => hold.entries (hapart.entries hp hc) hc
  | acked ha hok hbroker =>
    have hold := h k (Nat.le_trans ha.last hk)
    refine hold.aside ha fun {id p} hp hc => ?_
    obtain ⟨p', -, -, heq⟩ := Broker.ack_eq hok
    rw [hbroker, heq] at hp
    have hp : (m.hub.broker.pending.erase _).get? id = some p := hp
    exact hold.entries (Table.of_get?_erase hp).2 hc
  | @moved h' es t state ht =>
    have hold := h k hk
    exact hold.aside (aside_moved ht (congrArg Prod.fst (hold.lines t))) hold.entries
  | pushed ht => exact noTask (h k hk).task ht
  | failed ht => exact noTask (h k hk).task ht
  | polled ht => exact noTask (h k hk).task ht
  | @abandoned h' es task ht hc =>
    rw [abandon_eq hp ht hc] at hk
    exact noTask (h k hk).task ht
  | gone ht =>
    have hold := h k hk
    have := hold.untold
    rw [entriesOf_cons_self] at this
    cases this
  | other ht hcommand hle => exact noTask (h k (Nat.le_trans hle hk)).task ht

theorem unused_new (config : Config) (ids : Nat → String) (k : TaskId) :
    Unused ⟨.new config ids, []⟩ k :=
  ⟨rfl, fun _ => rfl, rfl, rfl, nofun⟩

theorem unused_exec (config : Config) (ids : Nat → String) (actions : List Action) (k : TaskId)
    (hk : ((Hub.new config ids).exec actions).nextTask ≤ k) :
    Unused ⟨(Hub.new config ids).exec actions, []⟩ k := by
  let P (m : Moment) : Prop := Bound m ∧ ∀ n, m.hub.nextTask ≤ n → Unused m n
  have hP : P ⟨(Hub.new config ids).exec actions, []⟩ := by
    refine schedule_induction rfl rfl ⟨bound_new config ids, fun n _ => unused_new config ids n⟩
      (fun m m' log hp hm hs => ?_) actions
    exact ⟨bound_step hp hm.1 hs, fun n hn => unused_step hp hm.1 hm.2 hs n hn⟩
  exact hP.2 k hk

end Steps

end Hub

end EditorBridge
