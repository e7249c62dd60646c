import EditorBridge.Proofs.Broker.Pending
/-!
# How long a call stays unresolved

The time of a call is counted from the end of its push. However ids were given
out, a call that has not ended and still has its caller is in its push, or it
has its deadline ahead once whatever can move has moved: until something comes
for it, its entry is there to be timed out.
-/

namespace EditorBridge.Broker

/-- A call has not ended, and its caller has not gone. -/
def Record.Unresolved (l : Record) (call : CallId) : Prop :=
  l.results call = [] ∧ l.abandoned call = false

namespace Run

variable {d start : Nanos} {r r' : Run} {call : CallId} {o : Order} {c : Call}

theorem unresolved_note {e : Entry} : (r.note e).record.Unresolved call ↔
    r.record.Unresolved call ∧ e.over? ≠ some call := by
  unfold Record.Unresolved
  cases e <;> simp [Entry.over?] <;> grind

/-- How a call stands that was registered at a time. -/
structure Standing (d : Nanos) (r : Run) (call : CallId) (start : Nanos) (o : Order) (c : Call) :
    Prop where
  registered : ∃ id, (start, .registered call id o) ∈ r.record
  past : start ≤ r.now
  held : r.broker.calls.get? call = some c
  timeout : c.timeout = o.limit d
  /-- While nothing has come for it, it has its entry, or what comes is on its way. -/
  waits : c.mailbox = .empty →
    (∃ p, r.broker.pending.get? c.commandId = some p ∧ p.call = call) ∨
      (r.underway.get? call).isSome
  phase : c.phase = .pushing ∧ r.record.pushes call = [] ∨
    ∃ t, start ≤ t ∧ c.phase = .awaiting (t + o.limit d) ∧ r.record.pushes call = [(t, true)]

namespace Standing

/-- An entry of the record is nothing to a call, unless it is about its push. -/
theorem note (h : r.Standing d call start o c) {e : Entry} (he : ∀ b, e ≠ .pushed call b) :
    (r.note e).Standing d call start o c where
  registered := h.registered.imp fun _ hm => List.mem_append_left _ hm
  past := h.past
  held := h.held
  timeout := h.timeout
  waits := h.waits
  phase := by
    have hpushes : (r.note e).record.pushes call = r.record.pushes call := by
      rw [pushes_note]
      cases e with
      | pushed other b =>
        have hne : other ≠ call := fun ho => he b (by rw [ho])
        simp [hne]
      | _ => simp
    rw [hpushes]
    exact h.phase

/-- What the broker does for other calls at most takes the entry, and then tells the call. -/
theorem apart (h : r.Standing d call start o c) {b : Broker} {u : Table CallId Claimed} {n : Nat}
    (ha : Apart call r.broker b) (hu : u.get? call = r.underway.get? call) :
    ∃ c, Standing d { r with broker := b, underway := u, calls := n } call start o c := by
  rcases ha.mail with ⟨hcall, hkept⟩ | ⟨id, p, -, -, -, hcall⟩
  · refine ⟨c, h.registered, h.past, hcall.trans h.held, h.timeout, fun hm => ?_, h.phase⟩
    rcases h.waits hm with ⟨p, hp, hpc⟩ | hx
    · exact .inl ⟨p, hkept hp hpc, hpc⟩
    · exact .inr (by rwa [hu])
  · exact ⟨{ c with mailbox := .lost }, h.registered, h.past, by rw [hcall, h.held]; rfl, h.timeout,
      nofun, h.phase⟩

/-- With nothing left to move a call is in its push, or before its deadline. -/
theorem early (h : r.Standing d call start o c) (hq : r.Quiet) :
    r.record.pushes call = [] ∨
      ∃ t, start ≤ t ∧ r.record.pushes call = [(t, true)] ∧ r.now < t + o.limit d := by
  rcases h.phase with ⟨-, hv⟩ | ⟨t, hle, hp, hv⟩
  · exact .inl hv
  · refine .inr ⟨t, hle, hv, early_of_poll_none h.held (fun hm => ?_) hp (hq.2 call)⟩
    rcases h.waits hm with hentry | hx
    · exact hentry
    · simp [hq.1] at hx

end Standing

/-- Every call that is unresolved stands in some way. -/
def Attended (d : Nanos) (r : Run) : Prop :=
  ∀ call < r.calls, r.record.Unresolved call → ∃ start o c, r.Standing d call start o c

/-- A new call begins in its push, with its entry. -/
theorem standing_registered (h : r.Sound d) (o : Order) (wall : Timestamp) :
    ({ r with
      broker := r.broker.enroll r.calls o wall
      calls := r.calls + 1 }.note
        (.registered r.calls (commandId wall (r.broker.sequence + 1)) o)).Standing d r.calls r.now o
      (o.toCall (commandId wall (r.broker.sequence + 1)) (o.limit r.broker.defaultTimeout)) where
  registered := ⟨_, List.mem_append_right _ List.mem_cons_self⟩
  past := Nat.le_refl _
  held := calls_enroll_self ..
  timeout := congrArg o.limit h.default
  waits _ := .inl ⟨_, (pending_enroll ..).trans (if_pos rfl), rfl⟩
  phase := .inl ⟨rfl, by simpa using pushes_fresh h⟩

/-- An acknowledgement that is accepted takes the entry of its call and sets out for it. -/
theorem Standing.claimed (h : r.Standing d call start o c) {p : Pending} {id : String}
    (hp : r.broker.pending.get? id = some p) (x : Claimed) :
    Standing d { r with
      broker := { r.broker with pending := r.broker.pending.erase id }
      underway := r.underway.set p.call x } call start o c := by
  refine ⟨h.registered, h.past, h.held, h.timeout, fun hm => ?_, h.phase⟩
  by_cases hcall : p.call = call
  · exact .inr (by simp [hcall])
  · rcases h.waits hm with ⟨q, hq, hqc⟩ | hx
    · have hid : c.commandId ≠ id := by
        rintro rfl
        cases hp.symm.trans hq
        exact hcall hqc
      exact .inl ⟨q, (Table.get?_erase_of_ne _ hid).trans hq, hqc⟩
    · exact .inr (by rwa [Table.get?_set_of_ne _ _ (Ne.symm hcall)])

/-- What arrives lies in the mailbox of its call. -/
theorem Standing.arrived (h : r.Standing d call start o c) (other : CallId) (a : Ack) :
    ∃ c, Standing d { r with
      broker := r.broker.post other (.delivered a)
      underway := r.underway.erase other } call start o c := by
  by_cases ho : call = other
  · subst ho
    exact ⟨{ c with mailbox := .delivered a }, h.registered, h.past,
      (calls_post ..).trans ((if_pos rfl).trans (congrArg _ h.held)), h.timeout, nofun, h.phase⟩
  · refine ⟨c, h.registered, h.past, (calls_post ..).trans ((if_neg ho).trans h.held), h.timeout,
      fun hm => (h.waits hm).imp_right fun hx => ?_, h.phase⟩
    rwa [Table.get?_erase_of_ne _ ho]

/-- A push that ends well starts the time. -/
theorem Standing.waiting (h : r.Standing d call start o c) (hp : c.phase = .pushing) :
    ({ r with
      broker := { r.broker with
        calls := r.broker.calls.set call { c with phase := .awaiting (r.now + c.timeout) } } }.note
      (.pushed call true)).Standing d call start o
        { c with phase := .awaiting (r.now + c.timeout) } := by
  have hnone : r.record.pushes call = [] := by
    rcases h.phase with ⟨-, hv⟩ | ⟨t, -, hp', -⟩
    · exact hv
    · cases hp.symm.trans hp'
  exact ⟨h.registered.imp fun _ hm => List.mem_append_left _ hm, h.past, Table.get?_set_self ..,
    h.timeout, h.waits, .inr ⟨r.now, h.past, by rw [h.timeout], by simp [hnone]⟩⟩

theorem attended_step (hs : r.Sound d) (h : r.Attended d) (hstep : r.Stepped r') :
    r'.Attended d := by
  intro call hlt hun
  have aside (n : Nat) {b : Broker} (hun : r.record.Unresolved call) (hlt : call < r.calls)
      (ha : Apart call r.broker b) :
      ∃ start o c, Standing d { r with broker := b, calls := n } call start o c :=
    let ⟨start, o, _, hst⟩ := h call hlt hun
    ⟨start, o, hst.apart ha rfl⟩
  have ends {other : CallId} {r₁ : Run} {e : Entry} (hun : (r₁.note e).record.Unresolved call)
      (he : e.over? = some other) : r₁.record.Unresolved call ∧ call ≠ other := by
    obtain ⟨hun, hne⟩ := unresolved_note.1 hun
    exact ⟨hun, fun ho => hne (he.trans (congrArg some ho.symm))⟩
  cases hstep with
  | nothing => exact h call hlt hun
  | refused e =>
    obtain ⟨hun, hne⟩ := ends hun rfl
    have hlt : call < r.calls := Nat.lt_of_le_of_ne (Nat.le_of_lt_succ hlt) hne
    obtain ⟨start, o, c, hst⟩ := aside (r.calls + 1) hun hlt (.refl call r.broker)
    exact ⟨start, o, c, hst.note nofun⟩
  | registered o wall =>
    by_cases hn : call = r.calls
    · subst hn
      exact ⟨_, _, _, standing_registered hs o wall⟩
    · have hlt : call < r.calls := Nat.lt_of_le_of_ne (Nat.le_of_lt_succ hlt) hn
      obtain ⟨start, o', c, hst⟩ := aside (r.calls + 1) (unresolved_note.1 hun).1 hlt
        (apart_enroll o wall hn)
      exact ⟨start, o', c, hst.note nofun⟩
  | @failed other =>
    obtain ⟨hun, hne⟩ := ends hun rfl
    obtain ⟨start, o, c, hst⟩ := aside r.calls (unresolved_note.1 hun).1 hlt (apart_finish hne)
    have pushed := hst.note (e := .pushed other false) fun b he => hne (by cases he; rfl)
    exact ⟨start, o, c, pushed.note nofun⟩
  | @waits other c hc hp =>
    obtain ⟨hun, -⟩ := unresolved_note.1 hun
    by_cases ho : call = other
    · subst ho
      obtain ⟨start, o, c', hst⟩ := h call hlt hun
      cases hc.symm.trans hst.held
      exact ⟨start, o, _, hst.waiting hp⟩
    · obtain ⟨start, o, c, hst⟩ := aside r.calls hun hlt (apart_set _ ho)
      exact ⟨start, o, c, hst.note fun b he => ho (by cases he; rfl)⟩
  | disowned =>
    obtain ⟨start, o, c, hst⟩ := h call hlt (unresolved_note.1 hun).1
    exact ⟨start, o, c, hst.note nofun⟩
  | claimed a wall hp =>
    obtain ⟨start, o, c, hst⟩ := h call hlt hun
    exact ⟨start, o, c, hst.claimed hp _⟩
  | arrived =>
    obtain ⟨start, o, c, hst⟩ := h call hlt (unresolved_note.1 hun).1
    obtain ⟨c, hst⟩ := hst.arrived _ _
    exact ⟨start, o, c, hst.note nofun⟩
  | ended | left =>
    obtain ⟨hun, hne⟩ := ends hun rfl
    obtain ⟨start, o, c, hst⟩ := aside r.calls hun hlt (apart_finish hne)
    exact ⟨start, o, c, hst.note nofun⟩
  | advanced span =>
    obtain ⟨start, o, c, hst⟩ := h call hlt hun
    exact ⟨start, o, c, hst.registered, Nat.le_add_right_of_le hst.past, hst.held, hst.timeout,
      hst.waits, hst.phase⟩

theorem attended_run (d : Nanos) (events : List Event) : (run (.empty d) events).Attended d := by
  refine (run_induction (P := fun r => r.Sound d ∧ r.Attended d) _ ⟨.start d, ?_⟩ ?_ events).2
  · exact fun call hlt => absurd hlt (Nat.not_lt_zero _)
  · rintro r r' ⟨hs, h⟩ hstep
    exact ⟨sound_step hs hstep, attended_step hs h hstep⟩

end Run

/-- When nothing is left to move, an unresolved call is in its push, or before its deadline, and
this is counted from the end of the push. -/
theorem unresolved_early (d : Nanos) (events : List Event) (call : CallId) :
    let r := run (.empty d) events
    r.Quiet → call < r.calls → r.record.Unresolved call →
    ∃ start id o, (start, .registered call id o) ∈ r.record ∧
      (r.record.pushes call = [] ∨
        ∃ t, start ≤ t ∧ r.record.pushes call = [(t, true)] ∧ r.now < t + o.limit d) := by
  intro r hq hlt hun
  obtain ⟨start, o, c, h⟩ := Run.attended_run d events call hlt hun
  obtain ⟨id, hid⟩ := h.registered
  exact ⟨start, id, o, hid, h.early hq⟩

/-- The push takes three of the clock's units, so the timeout of two ends after five. -/
theorem unresolved_early_slowPush :
    let r := run (.empty 7) [.call sampleOrder true sampleWall, .advance 3, .pushed 0 true,
      .advance 1]
    r.Quiet ∧ 0 < r.calls ∧ r.record.Unresolved 0 ∧
    ∃ start id o, (start, .registered 0 id o) ∈ r.record ∧
      (r.record.pushes 0 = [] ∨
        ∃ t, start ≤ t ∧ r.record.pushes 0 = [(t, true)] ∧ r.now < t + o.limit 7) := by
  intro r
  have hq : r.Quiet := ⟨rfl, fun call => by cases call <;> rfl⟩
  exact ⟨hq, by decide, ⟨rfl, rfl⟩, unresolved_early 7 _ 0 hq (by decide) ⟨rfl, rfl⟩⟩

/-- A call whose push goes on outlasts its timeout. -/
theorem unresolved_in_push :
    let r := run (.empty 7) [.call sampleOrder true sampleWall, .advance 5]
    r.Quiet ∧ (0, .registered 0 (commandId sampleWall 1) sampleOrder) ∈ r.record ∧
    r.record.Unresolved 0 ∧ 0 + sampleOrder.limit 7 ≤ r.now := by
  refine ⟨⟨rfl, fun call => ?_⟩, .head _, ⟨rfl, rfl⟩, by decide⟩
  cases call <;> rfl

/-! ## Orders that wait -/

variable {o : Order} {default wait : Nanos}

/-- An order waits for a time: in every run in which its push succeeds, its caller stays and no
acknowledgement is accepted for it, its call ends that long after the push and not before, with a
timeout of that time. -/
def Order.Waits (o : Order) (default wait : Nanos) : Prop :=
  ∀ (events : List Event) (call : CallId) (id : String) (t : Nanos),
    let r := run (.empty default) events
    r.record.Registered call id o → r.calls ≤ 2 ^ 64 ∨ r.record.OwnId call id →
    (t, true) ∈ r.record.pushes call → r.record.abandoned call = false →
    r.record.accepted id = [] →
    r.record.results call = [] ∧ (r.Quiet → r.now < t + wait) ∨
    ∃ u, t + wait ≤ u ∧ r.record.results call = [(u, .error (.ackTimeout wait))]

theorem waits_limit (o : Order) (default : Nanos) : o.Waits default (o.limit default) := by
  intro events call id t r hr hown hpush hstays hnone
  have hend {t' : Nanos} (hv : r.record.pushes call = [(t', true)]) : t' = t := by
    simpa [hv, eq_comm] using hpush
  cases Run.stage_run default events call id o hr (Run.ownId_of_or hr hown) with
  | pushing _ _ hv =>
    have hv : r.record.pushes call = [] := hv
    simp [hv] at hpush
  | awaiting h hp hv =>
    obtain ⟨o', hr'⟩ := (Run.sound_run default events).call h.call
    have hid := ((Run.sound_run default events).unique hr hr').1
    exact .inl ⟨h.results, hend hv ▸ Run.awaiting_early h hid hp⟩
  | answered _ _ _ ha =>
    have ha : r.record.accepted id = [_] := ha
    simp [hnone] at ha
  | expired _ _ hv _ hd hres => exact .inr ⟨_, hend hv ▸ hd, hres⟩
  | failed _ hv =>
    have hv : r.record.pushes call = [(_, false)] := hv
    simp [hv] at hpush
  | abandoned _ hb => cases hb.symm.trans hstays

/-- An order that is not acknowledged and looked after at its deadline. -/
def patience (o : Order) (default : Nanos) : List Event :=
  [.call o true ⟨0, 0⟩, .pushed 0 true, .advance (o.limit default), .poll 0]

theorem record_patience (default : Nanos) (hsession : Text.blank o.session = false)
    (hcommand : Text.blank o.command = false) :
    (run (.empty default) (patience o default)).record =
      [(0, .registered 0 (commandId ⟨0, 0⟩ 1) o), (0, .pushed 0 true),
        (o.limit default, .ended 0 (.error (.ackTimeout (o.limit default))))] := by
  let id := commandId ⟨0, 0⟩ 1
  let limit := o.limit default
  let waiting : Call := ⟨id, o.session, o.command, limit, .awaiting (0 + limit), .empty⟩
  let broker : Broker := ⟨default, 1, [(id, ⟨o.session, o.command, 0⟩)], [(0, waiting)]⟩
  let before : Record := [(0, .registered 0 id o), (0, .pushed 0 true)]
  have hcall : (Run.start (empty default)).step (.call o true ⟨0, 0⟩) =
      ⟨(empty default).enroll 0 o ⟨0, 0⟩, [], 0, 1, [(0, .registered 0 id o)]⟩ := by
    simp [Run.step, Run.start, Run.note, start, hsession, hcommand, empty, id]
  have hpushed : Run.step ⟨(empty default).enroll 0 o ⟨0, 0⟩, [], 0, 1, [(0, .registered 0 id o)]⟩
      (.pushed 0 true) = ⟨broker, [], 0, 1, before⟩ := rfl
  have hpoll : (broker.poll 0 (0 + limit)).1 = some (.error (.ackTimeout limit)) := by
    simp [poll, broker, waiting, Table.get?_cons, Table.has]
  have hend : (Run.step ⟨broker, [], 0 + limit, 1, before⟩ (.poll 0)).record =
      before ++ [(0 + limit, .ended 0 (.error (.ackTimeout limit)))] := by
    simp only [Run.step, Run.endCall, hpoll]
    rfl
  calc (run (.empty default) (patience o default)).record
      = ((((Run.start (empty default)).step (.call o true ⟨0, 0⟩)).step (.pushed 0 true)).step
          (.advance limit) |>.step (.poll 0)).record := rfl
    _ = (Run.step ⟨broker, [], 0 + limit, 1, before⟩ (.poll 0)).record := by
        rw [hcall, hpushed]
        rfl
    _ = _ := by
        rw [hend, Nat.zero_add]
        rfl

/-- An order waits as long as its limit says, and for no other time. -/
theorem waits_iff (hsession : Text.blank o.session = false)
    (hcommand : Text.blank o.command = false) :
    o.Waits default wait ↔ wait = o.limit default := by
  refine ⟨fun h => ?_, fun h => h ▸ waits_limit o default⟩
  have hrecord := record_patience default hsession hcommand
  have hend := h (patience o default) 0 (commandId ⟨0, 0⟩ 1) 0
  simp only [hrecord] at hend
  have hown (other : CallId) (o' : Order)
      (hr : Record.Registered [(0, .registered 0 (commandId ⟨0, 0⟩ 1) o), (0, .pushed 0 true),
        (o.limit default, .ended 0 (.error (.ackTimeout (o.limit default))))] other
        (commandId ⟨0, 0⟩ 1) o') : other = 0 := by
    simp [Record.Registered] at hr
    exact hr.1
  rcases hend ⟨0, .head _⟩ (.inr hown) (.head _) rfl rfl with ⟨hnone, -⟩ | ⟨u, -, hone⟩
  · cases hnone
  · simp [Record.results] at hone
    exact hone.2.symm

end EditorBridge.Broker
