import EditorBridge.Proofs.Broker.Holding
import EditorBridge.Proofs.Broker.Resolution
import EditorBridge.Proofs.Table
import Mathlib.Data.List.Nodup
/-!
# What is pending

An entry has its call: while it is there, the call that waits for it is in
progress, and the entry says which session and command the call is for. So
nothing is pending when no call is in progress, whatever ids were given out. If
no other call got its id, a call in progress has its entry in turn until an
acknowledgement is accepted for it, and no event of another call takes the entry
out.
-/

namespace EditorBridge.Broker

/-- A call was registered, and neither has it ended nor did its caller go away. -/
structure Record.InProgress (l : Record) (call : CallId) : Prop where
  registered : ∃ id o, l.Registered call id o
  results : l.results call = []
  stays : l.abandoned call = false

/-- No acknowledgement was accepted for a command, be it still on its way to the call. -/
structure Run.Unacknowledged (r : Run) (call : CallId) (id : String) : Prop where
  coming : r.underway.get? call = none
  accepted : r.record.accepted id = []

/-- The id of a call is its own, as it is among the first 2^64 calls of a run at the least. -/
def Run.Alone (r : Run) (call : CallId) (id : String) : Prop :=
  r.calls ≤ 2 ^ 64 ∨ r.record.OwnId call id

/-- The entry of a call. -/
def Order.entry (o : Order) (call : CallId) : Pending := ⟨o.session, o.command, call⟩

/-- The events that may take out an entry: those that end its call, and an acknowledgement of the
command from the session it went to. -/
inductive Event.Frees (id : String) (p : Pending) : Event → Prop
  | failed : Frees id p (.pushed p.call false)
  | looked : Frees id p (.poll p.call)
  | left : Frees id p (.abandon p.call)
  | acked (a : Ack) (wall : Timestamp) : a.commandId = id → Frees id p (.ack p.session a wall)

/-! ## Entries and their calls -/

/-- The call that is over by an entry of the record. -/
def Entry.over? : Entry → Option CallId
  | .abandoned c | .ended c _ => some c
  | _ => none

/-- Every entry has its call, and every call is in progress. -/
structure Run.Tended (r : Run) : Prop where
  nodup : r.broker.pending.keys.Nodup
  entry : ∀ {id p}, r.broker.pending.get? id = some p →
    ∃ c o, r.broker.calls.get? p.call = some c ∧ c.commandId = id ∧
      r.record.Registered p.call id o ∧ p = o.entry p.call
  busy : ∀ {call c}, r.broker.calls.get? call = some c →
    r.record.results call = [] ∧ r.record.abandoned call = false

theorem nodup_discard {b : Broker} (id : String) (h : b.pending.keys.Nodup) :
    (b.discard id).pending.keys.Nodup := by
  unfold discard
  split
  · exact Table.nodup_erase id h
  · exact h

theorem nodup_finish {b : Broker} (call : CallId) (h : b.pending.keys.Nodup) :
    (b.finish call).pending.keys.Nodup := by
  unfold finish
  split
  · exact h
  · exact nodup_discard _ h

namespace Run

variable {d : Nanos} {r r' : Run} {call : CallId} {id : String} {o : Order}

namespace Tended

theorem start (d : Nanos) : Tended (.start (.empty d)) :=
  ⟨.nil, nofun, nofun⟩

/-- The record may say of a call that it is over once it is, and otherwise anything. -/
theorem note (h : r.Tended) {e : Entry}
    (he : ∀ call, e.over? = some call → r.broker.calls.get? call = none) : (r.note e).Tended where
  nodup := h.nodup
  entry hp := by
    obtain ⟨c, o, hc, hid, hr, hpo⟩ := h.entry hp
    exact ⟨c, o, hc, hid, (registered_note ..).2 (.inl hr), hpo⟩
  busy {call c} hc := by
    have hne : e.over? ≠ some call := by
      intro h'
      cases (he _ h').symm.trans hc
    obtain ⟨hr, ha⟩ := h.busy hc
    cases e <;> simp_all [Entry.over?]

theorem note_underway (h : r.Tended) {e : Entry} (he : e.over? = none) : (r.note e).Tended :=
  h.note (by simp [he])

theorem note_over (h : r.Tended) {e : Entry} (he : e.over? = some call)
    (hc : r.broker.calls.get? call = none) : (r.note e).Tended := by
  refine h.note fun other ho => ?_
  obtain rfl := Option.some.inj (he.symm.trans ho)
  exact hc

/-- Entries may go, and calls may change as long as they keep their ids. -/
theorem change (h : r.Tended) {b : Broker} (u : Table CallId Claimed) (hn : b.pending.keys.Nodup)
    (hp : ∀ {id p}, b.pending.get? id = some p → r.broker.pending.get? id = some p)
    (hkept : ∀ {call c}, r.broker.calls.get? call = some c →
      ∃ c', b.calls.get? call = some c' ∧ c'.commandId = c.commandId)
    (hnew : ∀ {call c}, b.calls.get? call = some c → ∃ c', r.broker.calls.get? call = some c') :
    Tended { r with broker := b, underway := u } where
  nodup := hn
  entry hp' := by
    obtain ⟨c, o, hc, hid, hr, he⟩ := h.entry (hp hp')
    obtain ⟨c', hc', hid'⟩ := hkept hc
    exact ⟨c', o, hc', hid'.trans hid, hr, he⟩
  busy hc := let ⟨_, hc'⟩ := hnew hc; h.busy hc'

/-- When a call ends, the entries that stay are those of other calls. -/
theorem finish (h : r.Tended) {c : Call} (hc : r.broker.calls.get? call = some c) :
    Tended { r with broker := r.broker.finish call } where
  nodup := nodup_finish call h.nodup
  entry {id p} hp := by
    have hp := hp
    rw [pending_finish _ hc] at hp
    split at hp
    · cases hp
    next hid =>
    obtain ⟨c', o, hc', hid', hr, he⟩ := h.entry hp
    have hne : p.call ≠ call := by
      rintro rfl
      cases hc.symm.trans hc'
      exact hid hid'.symm
    obtain ⟨m, hm⟩ := (apart_finish hne).held hc'
    exact ⟨_, o, hm, hid', hr, he⟩
  busy hc' := let ⟨_, hc'⟩ := of_calls_finish _ hc'; h.busy hc'

/-- A new call comes with its entry; an entry that had its id goes. -/
theorem registered (h : r.Tended) (hs : r.Sound d) (o : Order) (wall : Timestamp) :
    Tended ({ r with
      broker := r.broker.enroll r.calls o wall
      calls := r.calls + 1 }.note
        (.registered r.calls (commandId wall (r.broker.sequence + 1)) o)) where
  nodup := Table.nodup_set _ _ h.nodup
  entry {id p} hp := by
    simp only [broker_note, pending_enroll] at hp
    split at hp
    · next hid =>
      cases hp
      exact ⟨_, o, calls_enroll_self .., hid.symm, by simp [hid], rfl⟩
    · obtain ⟨c, o', hc, hid, hr, he⟩ := h.entry hp
      have hne := Nat.ne_of_lt (hs.registered_lt hr)
      obtain ⟨m, hm⟩ := (apart_enroll o wall hne).held hc
      exact ⟨_, o', hm, hid, (registered_note ..).2 (.inl hr), he⟩
  busy {call c} hc := by
    by_cases hn : call = r.calls
    · simpa [hn] using ⟨results_fresh hs, abandoned_fresh hs⟩
    · obtain ⟨m, hm⟩ := of_calls_enroll hn hc
      simpa using h.busy hm

end Tended

theorem tended_step (h : r.Tended) (hs : r.Sound d) (hstep : r.Stepped r') : r'.Tended := by
  cases hstep with
  | nothing => exact h
  | advanced d => exact ⟨h.nodup, h.entry, h.busy⟩
  | disowned => exact h.note_underway rfl
  | refused e =>
    have later : Tended { r with calls := r.calls + 1 } := ⟨h.nodup, h.entry, h.busy⟩
    refine later.note_over rfl ?_
    exact Option.eq_none_iff_forall_ne_some.2 fun c hc => Nat.lt_irrefl _ (hs.call_lt hc)
  | registered o wall => exact h.registered hs o wall
  | @failed call c hc =>
    have pushed : Tended ({ r with broker := r.broker.finish call }.note (.pushed call false)) :=
      (h.finish hc).note_underway rfl
    exact pushed.note_over rfl (calls_finish_self call r.broker)
  | @waits call c hc =>
    have waits := h.change (b := { r.broker with
        calls := r.broker.calls.set call { c with phase := .awaiting (r.now + c.timeout) } })
      r.underway h.nodup id ?_ ?_
    · exact waits.note_underway rfl
    · intro other c' hc'
      by_cases ho : other = call
      · subst ho
        cases hc.symm.trans hc'
        exact ⟨_, Table.get?_set_self .., rfl⟩
      · exact ⟨c', (Table.get?_set_of_ne _ _ ho).trans hc', rfl⟩
    · intro other c' hc'
      by_cases ho : other = call
      · exact ⟨c, ho ▸ hc⟩
      · exact ⟨c', (Table.get?_set_of_ne _ _ ho).symm.trans hc'⟩
  | claimed a wall hp =>
    exact h.change _ (Table.nodup_erase _ h.nodup) (fun hp => (Table.of_get?_erase hp).2)
      (fun hc => ⟨_, hc, rfl⟩) (fun hc => ⟨_, hc⟩)
  | @arrived call x hx =>
    have arrived := h.change (b := r.broker.post call (.delivered (x.ack.stamped x.wall)))
      (r.underway.erase call) h.nodup id ?_ ?_
    · exact arrived.note_underway rfl
    · intro other c' hc'
      by_cases ho : other = call
      · subst ho
        exact ⟨_, (calls_post ..).trans ((if_pos rfl).trans (congrArg _ hc')), rfl⟩
      · exact ⟨c', (calls_post ..).trans ((if_neg ho).trans hc'), rfl⟩
    · intro other c' hc'
      rw [calls_post] at hc'
      split at hc'
      · next ho =>
        obtain ⟨c, hc, -⟩ := Option.map_eq_some_iff.1 hc'
        exact ⟨c, ho ▸ hc⟩
      · exact ⟨c', hc'⟩
  | ended hc | left hc => exact (h.finish hc).note_over rfl (calls_finish_self ..)

theorem tended_run (d : Nanos) (events : List Event) : (run (.empty d) events).Tended :=
  (run_induction (P := fun r => r.Sound d ∧ r.Tended) _ ⟨.start d, .start d⟩
    (fun _ _ ⟨hs, h⟩ hstep => ⟨sound_step hs hstep, tended_step h hs hstep⟩) events).2

/-! ## Calls and their entries -/

variable {limit : Nanos} {v : Course} {c : Call}

/-- A call in progress has its entry as long as no acknowledgement was accepted for it. -/
theorem entry_iff_of_open (h : Open o limit v c) :
    v.entry.isSome ↔ v.coming = none ∧ v.accepted = [] := by
  obtain ⟨-, -, -, ha, -, -⟩ := h
  generalize c.mailbox = m at ha
  cases ha with
  | awaited hp _ hx hacc => simp [hp, hx, hacc]
  | coming hp hx => simp [hp, hx]
  | arrived hp _ hacc => simp [hp, hacc]

theorem entry_iff_of_stage (h : Stage o limit v) :
    v.entry.isSome ↔ (v.results = [] ∧ v.abandoned = false) ∧ v.coming = none ∧ v.accepted = [] := by
  cases h with
  | pushing h | awaiting h => simp [entry_iff_of_open h, h.results, h.abandoned]
  | answered h _ _ _ _ hres | expired h _ _ _ _ hres | failed h _ hres => simp [h.entry, hres]
  | abandoned h hb => simp [h.entry, hb]

/-- What is pending under an id that is a call's own is the entry of that call. -/
theorem entry_eq {events : List Event} (hr : (run (.empty d) events).record.Registered call id o)
    (hown : (run (.empty d) events).record.OwnId call id) {p : Pending}
    (hp : (run (.empty d) events).broker.pending.get? id = some p) : p = o.entry call := by
  obtain ⟨_, o', -, -, hr', he⟩ := (tended_run d events).entry hp
  obtain rfl := hown _ _ hr'
  obtain ⟨-, rfl⟩ := (sound_run d events).unique hr hr'
  exact he

/-- A call whose id is its own is in progress and unacknowledged exactly if its entry is there. -/
theorem pending_iff {events : List Event} (hr : (run (.empty d) events).record.Registered call id o)
    (hown : (run (.empty d) events).record.OwnId call id) :
    (run (.empty d) events).broker.pending.get? id = some (o.entry call) ↔
      (run (.empty d) events).record.InProgress call ∧
        (run (.empty d) events).Unacknowledged call id := by
  have h := entry_iff_of_stage (stage_run d events call id o hr hown)
  constructor
  · intro hp
    obtain ⟨⟨hres, hab⟩, hx, hacc⟩ := h.1 (Option.isSome_of_eq_some hp)
    exact ⟨⟨⟨id, o, hr⟩, hres, hab⟩, hx, hacc⟩
  · rintro ⟨⟨-, hres, hab⟩, hx, hacc⟩
    obtain ⟨p, hp⟩ := Option.isSome_iff_exists.1 (h.2 ⟨⟨hres, hab⟩, hx, hacc⟩)
    exact entry_eq hr hown hp ▸ hp

/-! ## How an entry goes -/

section Going

variable {p : Pending}

/-- The end of another call leaves an entry where it is. -/
theorem pending_finish_other (h : r.Sound d) (hr : r.record.Registered call id o)
    (hi : r.record.OwnId call id) {other : CallId} (ho : other ≠ call) :
    (r.broker.finish other).pending.get? id = r.broker.pending.get? id := by
  cases hc : r.broker.calls.get? other with
  | none => simp [Broker.finish, hc]
  | some c => exact (finish_other h hr hi hc ho).2

/-- An entry goes by an event that ends its own call, or by an acknowledgement of its session. -/
theorem pending_step (h : r.Sound d) (hp : r.broker.pending.get? id = some p) (e : Event)
    (hi : (r.step e).record.OwnId p.call id) :
    (r.step e).broker.pending.get? id = some p ∨ e.Frees id p := by
  obtain ⟨o, hr⟩ := h.entry hp
  have own := ownId_of_step (r.step_cases e) hi
  have other : ∀ {call}, call ≠ p.call → (r.broker.finish call).pending.get? id = some p :=
    fun ho => (pending_finish_other h hr own ho).trans hp
  cases e with
  | call o' reachable wall =>
    rcases start_cases r.broker r.calls o' reachable wall with ⟨e, he⟩ | ⟨-, he⟩
    · exact .inl (by simpa [step, he] using hp)
    · refine .inl ?_
      simp only [step, he, broker_note]
      rw [pending_enroll, if_neg, hp]
      rintro rfl
      have hcall := hi r.calls o' (by simp [step, he])
      exact absurd (h.registered_lt hr) (hcall ▸ Nat.lt_irrefl _)
  | pushed call delivered =>
    simp only [step]
    split
    · rcases pushed_cases r.broker call delivered r.now with ⟨-, he⟩ | ⟨c, -, ⟨-, he⟩ | ⟨hd, he⟩⟩
      · exact .inl (by simpa [he] using hp)
      · exact .inl (by simpa [he] using hp)
      · by_cases hc : call = p.call
        · exact .inr (hd ▸ hc ▸ .failed)
        · exact .inl (by simpa [he] using other hc)
    · exact .inl hp
  | ack session a wall =>
    simp only [step, claim]
    cases hq : r.broker.pending.get? a.commandId with
    | none => exact .inl hp
    | some q =>
      by_cases hsession : q.session = session
      · simp only [hsession, if_true]
        by_cases hid : a.commandId = id
        · rw [hid, hp] at hq
          cases hq
          exact .inr (hsession ▸ .acked a wall hid)
        · exact .inl ((Table.get?_erase_of_ne _ (Ne.symm hid)).trans hp)
      · exact .inl (by simpa [hsession] using hp)
  | deliver call =>
    simp only [step]
    split <;> exact .inl hp
  | poll call =>
    rcases poll_broker r.broker call r.now with he | he
    · exact .inl (by simpa [step, he] using hp)
    · by_cases hc : call = p.call
      · exact .inr (hc ▸ .looked)
      · exact .inl (by simpa [step, he] using other hc)
  | abandon call =>
    simp only [step]
    split
    · by_cases hc : call = p.call
      · exact .inr (hc ▸ .left)
      · exact .inl (other hc)
    · exact .inl hp
  | advance d => exact .inl hp

end Going

/-! ## Nothing is pending in vain -/

namespace Tended

theorem inProgress (h : r.Tended) {p : Pending} (hp : r.broker.pending.get? id = some p) :
    r.record.InProgress p.call := by
  obtain ⟨c, o, hc, -, hr, -⟩ := h.entry hp
  obtain ⟨hres, hab⟩ := h.busy hc
  exact ⟨⟨id, o, hr⟩, hres, hab⟩

/-- No call has two entries. -/
theorem nodup_calls (h : r.Tended) (hs : r.Sound d) :
    (r.broker.pending.map fun e => e.2.call).Nodup := by
  refine List.Nodup.map_on ?_ (List.Nodup.of_map _ h.nodup)
  rintro ⟨id, p⟩ hp ⟨id', p'⟩ hp' (hcall : p.call = p'.call)
  replace hp := Table.get?_of_mem h.nodup hp
  replace hp' := Table.get?_of_mem h.nodup hp'
  obtain ⟨_, o, -, -, hr, -⟩ := h.entry hp
  obtain ⟨_, o', -, -, hr', -⟩ := h.entry hp'
  obtain ⟨rfl, -⟩ := hs.unique hr (hcall ▸ hr')
  cases hp.symm.trans hp'
  rfl

theorem outstanding_eq_zero (h : r.Tended) (hidle : ∀ call, ¬ r.record.InProgress call) :
    r.broker.outstanding = 0 := by
  refine List.length_eq_zero_iff.2 (List.eq_nil_iff_forall_not_mem.2 ?_)
  rintro ⟨id, p⟩ hp
  exact hidle p.call (h.inProgress (Table.get?_of_mem h.nodup hp))

end Tended

/-- A call that is refused is answered at once and leaves the broker as it was. -/
theorem step_refused (r : Run) {reachable : Bool} {wall : Timestamp}
    (h : Text.blank o.session ∨ Text.blank o.command ∨ reachable = false) :
    ∃ e, r.step (.call o reachable wall) =
      { r with calls := r.calls + 1 }.note (.ended r.calls (.error e)) := by
  rcases start_cases r.broker r.calls o reachable wall with ⟨e, he⟩ | ⟨hr, he⟩
  · exact ⟨e, by simp [step, he]⟩
  · subst hr
    have hblank : Text.blank o.session ∨ Text.blank o.command := by simpa using h
    simp [Broker.start, hblank] at he

end Run

/-- In every run the entries are those of calls in progress, one each, with the session and the
command of the call. A call whose id is its own has its entry exactly until an acknowledgement is
accepted for it, and only its own end or that acknowledgement takes the entry out. -/
theorem pending_exact (d : Nanos) (events : List Event) :
    let r := run (.empty d) events
    (r.broker.pending.keys.Nodup ∧ (r.broker.pending.map fun e => e.2.call).Nodup) ∧
    (∀ id p, (id, p) ∈ r.broker.pending →
      ∃ o, r.record.Registered p.call id o ∧ p = o.entry p.call ∧ r.record.InProgress p.call) ∧
    (∀ call id o, r.record.Registered call id o → r.Alone call id →
      ((id, o.entry call) ∈ r.broker.pending ↔
        r.record.InProgress call ∧ r.Unacknowledged call id)) ∧
    ((∀ call, ¬ r.record.InProgress call) → r.broker.outstanding = 0) ∧
    (∀ (o : Order) reachable wall, Text.blank o.session ∨ Text.blank o.command ∨ reachable = false →
      ∃ e, r.step (.call o reachable wall) =
        { r with calls := r.calls + 1 }.note (.ended r.calls (.error e))) ∧
    ∀ e id p, (id, p) ∈ r.broker.pending → (r.step e).Alone p.call id →
      (id, p) ∈ (r.step e).broker.pending ∨ e.Frees id p := by
  intro r
  have hs : r.Sound d := Run.sound_run d events
  have h : r.Tended := Run.tended_run d events
  have own : ∀ events call id o, (run (.empty d) events).record.Registered call id o →
      (run (.empty d) events).Alone call id → (run (.empty d) events).record.OwnId call id :=
    fun _ _ _ _ => Run.ownId_of_or
  refine ⟨⟨h.nodup, h.nodup_calls hs⟩, ?_, ?_, h.outstanding_eq_zero, ?_, ?_⟩
  · intro id p hp
    have hp := Table.get?_of_mem h.nodup hp
    obtain ⟨_, o, -, -, hr, he⟩ := h.entry hp
    exact ⟨o, hr, he, h.inProgress hp⟩
  · intro call id o hr halone
    rw [Table.mem_iff_get? h.nodup]
    exact Run.pending_iff hr (own _ _ _ _ hr halone)
  · intro o reachable wall hrefused
    exact r.step_refused hrefused
  · intro e id p hp halone
    have hp := Table.get?_of_mem h.nodup hp
    have hnext : r.step e = run (.empty d) (events ++ [e]) := by simp [r, run]
    obtain ⟨o, hr⟩ := hs.entry hp
    have hown : (r.step e).record.OwnId p.call id := by
      rw [hnext] at halone ⊢
      refine own _ _ _ o ?_ halone
      rw [← hnext]
      exact Run.registered_step (r.step_cases e) hr
    exact (Run.pending_step hs hp e hown).imp_left Table.mem_of_get?

/-- Two calls are out; the acknowledgement of the first takes out the first entry alone. -/
theorem pending_exact_twoCalls :
    let r := run (.empty 7) [.call sampleOrder true sampleWall, .call sampleOrder true sampleWall,
      .ack "s1" sampleAck sampleWall]
    (commandId sampleWall 1, sampleOrder.entry 0) ∉ r.broker.pending ∧
    (commandId sampleWall 2, sampleOrder.entry 1) ∈ r.broker.pending := by
  intro r
  have exact := (pending_exact 7 [.call sampleOrder true sampleWall,
    .call sampleOrder true sampleWall, .ack "s1" sampleAck sampleWall]).2.2.1
  have first : r.record.Registered 0 (commandId sampleWall 1) sampleOrder := ⟨0, .head _⟩
  have second : r.record.Registered 1 (commandId sampleWall 2) sampleOrder := ⟨0, .tail _ (.head _)⟩
  constructor
  · rw [exact 0 _ _ first (.inl (by decide))]
    rintro ⟨-, hcoming, -⟩
    exact absurd hcoming (by decide)
  · rw [exact 1 _ _ second (.inl (by decide))]
    exact ⟨⟨⟨_, _, second⟩, rfl, rfl⟩, rfl, rfl⟩

end EditorBridge.Broker
