import EditorBridge.Proofs.Broker.Step
/-!
# The course of one command

A run seen from one of its commands is small: a call, an entry, perhaps an
acknowledgement on its way, and what the record says about the three. Provided
that no other call got the same id, an event either leaves all of it alone or
takes one of six steps, whatever happens to other commands at the same time.
What holds in every course is then a case analysis over those six.
-/

namespace EditorBridge.Broker

/-! ## What the record says after one more entry -/

section Note

open Record

variable (r : Run) (e : Entry) (call : CallId) (id : String) (o : Order)

@[simp] theorem registered_note : (r.note e).record.Registered call id o ↔
    r.record.Registered call id o ∨ e = .registered call id o := by
  simp only [Registered, Run.record_note, List.mem_append, List.mem_singleton, Prod.mk.injEq, exists_or]
  simp [eq_comm]

@[simp] theorem pushes_note : (r.note e).record.pushes call = r.record.pushes call ++
    match e with
    | .pushed c delivered => if c = call then [(r.now, delivered)] else []
    | _ => [] := by
  rw [pushes, Run.record_note, List.filterMap_append]
  cases e <;> simp [pushes]
  split <;> simp [*]

@[simp] theorem abandoned_note : (r.note e).record.abandoned call = (r.record.abandoned call ||
    match e with
    | .abandoned c => c = call
    | _ => false) := by
  rw [abandoned, Run.record_note, List.any_append]
  cases e <;> simp [abandoned]

@[simp] theorem accepted_note : (r.note e).record.accepted id = r.record.accepted id ++
    match e with
    | .acked session a wall (.ok ()) => if a.commandId = id then [⟨session, a, wall⟩] else []
    | _ => [] := by
  rw [accepted, Run.record_note, List.filterMap_append]
  cases e with
  | acked session a wall x => rcases x with _ | ⟨⟩ <;> simp [accepted]; split <;> simp [*]
  | _ => simp [accepted]

@[simp] theorem results_note : (r.note e).record.results call = r.record.results call ++
    match e with
    | .ended c result => if c = call then [(r.now, result)] else []
    | _ => [] := by
  rw [results, Run.record_note, List.filterMap_append]
  cases e <;> simp [results]
  split <;> simp [*]

end Note

/-! ## The books of a run -/

/-- The call an entry of a record is about. -/
def Entry.call? : Entry → Option CallId
  | .registered c _ _ | .pushed c _ | .abandoned c | .ended c _ => some c
  | .acked .. => none

namespace Run

/-- Everything in a run goes back to a registration, and a call is registered once. -/
structure Sound (d : Nanos) (r : Run) : Prop where
  default : r.broker.defaultTimeout = d
  earlier : ∀ {t e call}, (t, e) ∈ r.record → e.call? = some call → call < r.calls
  unique : ∀ {call id id' o o'}, r.record.Registered call id o → r.record.Registered call id' o' →
    id' = id ∧ o' = o
  call : ∀ {call c}, r.broker.calls.get? call = some c →
    ∃ o, r.record.Registered call c.commandId o
  entry : ∀ {id p}, r.broker.pending.get? id = some p → ∃ o, r.record.Registered p.call id o
  coming : ∀ {call x}, r.underway.get? call = some x →
    ∃ o, r.record.Registered call x.ack.commandId o
  acked : ∀ {t s a w}, (t, .acked s a w (.ok ())) ∈ r.record →
    ∃ call o, r.record.Registered call a.commandId o

namespace Sound

variable {d : Nanos} {r : Run}

theorem registered_lt (h : r.Sound d) {call : CallId} {id : String} {o : Order}
    (hr : r.record.Registered call id o) : call < r.calls :=
  let ⟨_, hr⟩ := hr
  h.earlier hr rfl

theorem call_lt (h : r.Sound d) {call : CallId} {c : Call} (hc : r.broker.calls.get? call = some c) :
    call < r.calls :=
  let ⟨_, hr⟩ := h.call hc
  h.registered_lt hr

/-- An entry other than a registration keeps the books, if it is about what is in them. -/
theorem note (h : r.Sound d) {e : Entry} (he : ∀ call id o, e ≠ .registered call id o)
    (hc : ∀ call, e.call? = some call → call < r.calls)
    (ha : ∀ s a w, e = .acked s a w (.ok ()) → ∃ call o, r.record.Registered call a.commandId o) :
    (r.note e).Sound d where
  default := h.default
  earlier hm hc' := by
    rcases List.mem_append.1 hm with hm | hm
    · exact h.earlier hm hc'
    · cases List.mem_singleton.1 hm
      exact hc _ hc'
  unique h₁ h₂ := by
    simp only [registered_note, he, or_false] at h₁ h₂
    exact h.unique h₁ h₂
  call hc := by simpa only [registered_note, he, or_false] using h.call hc
  entry hp := by simpa only [registered_note, he, or_false] using h.entry hp
  coming hx := by simpa only [registered_note, he, or_false] using h.coming hx
  acked hm := by
    simp only [registered_note, he, or_false]
    rcases List.mem_append.1 hm with hm | hm
    · exact h.acked hm
    · cases List.mem_singleton.1 hm
      exact ha _ _ _ rfl

/-- So do changes of the broker that bring in neither calls nor entries. -/
theorem change (h : r.Sound d) {b : Broker} {u : Table CallId Claimed}
    (hd : b.defaultTimeout = r.broker.defaultTimeout)
    (hc : ∀ {call c}, b.calls.get? call = some c →
      ∃ c', r.broker.calls.get? call = some c' ∧ c'.commandId = c.commandId)
    (hp : ∀ {id p}, b.pending.get? id = some p → r.broker.pending.get? id = some p)
    (hu : ∀ {call x}, u.get? call = some x → ∃ o, r.record.Registered call x.ack.commandId o) :
    Sound d { r with broker := b, underway := u } where
  default := hd.trans h.default
  earlier := h.earlier
  unique := h.unique
  call hc' := by
    obtain ⟨c', hc', hi⟩ := hc hc'
    exact hi ▸ h.call hc'
  entry hp' := h.entry (hp hp')
  coming := hu
  acked := h.acked

/-- And so does the end of a call. -/
theorem finish (h : r.Sound d) {call : CallId} {c : Call} (hc : r.broker.calls.get? call = some c) :
    Sound d { r with broker := r.broker.finish call } := by
  refine h.change ?_ ?_ ?_ h.coming
  · exact default_finish
  · intro other c' h'
    obtain ⟨m, hm⟩ := of_calls_finish _ h'
    exact ⟨_, hm, rfl⟩
  · intro id p hp
    rw [pending_finish _ hc] at hp
    split at hp
    · cases hp
    · exact hp

theorem start (d : Nanos) : Sound d (.start (.empty d)) := by
  constructor <;> simp [Run.start, empty, Record.Registered]

end Sound

theorem sound_registered {d : Nanos} {r : Run} (h : r.Sound d) (o : Order) (wall : Timestamp) :
    Sound d ({ r with
      broker := r.broker.enroll r.calls o wall
      calls := r.calls + 1 }.note
        (.registered r.calls (commandId wall (r.broker.sequence + 1)) o)) where
  default := (default_enroll ..).trans h.default
  earlier hm hc := by
    rcases List.mem_append.1 hm with hm | hm
    · exact Nat.lt_succ_of_lt (h.earlier hm hc)
    · cases List.mem_singleton.1 hm
      cases hc
      exact Nat.lt_succ_self _
  unique h₁ h₂ := by
    simp only [registered_note, Entry.registered.injEq] at h₁ h₂
    rcases h₁ with h₁ | ⟨rfl, rfl, rfl⟩ <;> rcases h₂ with h₂ | ⟨he, rfl, rfl⟩
    · exact h.unique h₁ h₂
    · exact absurd (h.registered_lt h₁) (he ▸ Nat.lt_irrefl _)
    · exact absurd (h.registered_lt h₂) (Nat.lt_irrefl _)
    · exact ⟨rfl, rfl⟩
  call {call c} hc := by
    simp only [registered_note, Entry.registered.injEq]
    by_cases he : call = r.calls
    · subst he
      cases (calls_enroll_self ..).symm.trans hc
      exact ⟨o, .inr ⟨rfl, rfl, rfl⟩⟩
    · obtain ⟨m, hm⟩ := of_calls_enroll he hc
      exact (h.call hm).imp fun _ => .inl
  entry {id p} hp := by
    simp only [registered_note, Entry.registered.injEq]
    simp only [broker_note, pending_enroll] at hp
    split at hp
    · next hi =>
      cases hp
      exact ⟨o, .inr ⟨rfl, hi.symm, rfl⟩⟩
    · exact (h.entry hp).imp fun _ => .inl
  coming hx := by
    simp only [registered_note]
    exact (h.coming hx).imp fun _ => .inl
  acked hm := by
    simp only [registered_note]
    rcases List.mem_append.1 hm with hm | hm
    · exact (h.acked hm).imp fun _ => .imp fun _ => .inl
    · cases List.mem_singleton.1 hm

theorem sound_step {d : Nanos} {r r' : Run} (h : r.Sound d) (hs : r.Stepped r') : r'.Sound d := by
  cases hs with
  | nothing => exact h
  | refused e =>
    have later : Sound d { r with calls := r.calls + 1 } :=
      ⟨h.default, fun hm hc => Nat.lt_succ_of_lt (h.earlier hm hc), h.unique, h.call, h.entry,
        h.coming, h.acked⟩
    exact later.note (by simp) (by simp [Entry.call?]) (by simp)
  | registered o wall => exact sound_registered h o wall
  | failed hc =>
    have hl := h.call_lt hc
    have pushed := (h.finish hc).note (e := .pushed _ false) (by simp)
      (by simpa [Entry.call?] using hl) (by simp)
    exact pushed.note (by simp) (by simpa [Entry.call?] using hl) (by simp)
  | @waits call c hc =>
    have waits := h.change (b := { r.broker with
        calls := r.broker.calls.set call { c with phase := .awaiting (r.now + c.timeout) } })
      rfl (fun {other c'} hc' => ?_) id h.coming
    · exact waits.note (by simp) (by simpa [Entry.call?] using h.call_lt hc) (by simp)
    · rcases Table.of_get?_set hc' with ⟨rfl, rfl⟩ | ⟨-, hold⟩
      · exact ⟨c, hc, rfl⟩
      · exact ⟨c', hold, rfl⟩
  | disowned => exact h.note (by simp) (by simp [Entry.call?]) (by simp)
  | claimed a wall hp =>
    refine h.change rfl (fun hc => ⟨_, hc, rfl⟩) (fun hp' => (Table.of_get?_erase hp').2)
      (fun hx => ?_)
    rcases Table.of_get?_set hx with ⟨rfl, rfl⟩ | ⟨-, hold⟩
    · exact h.entry hp
    · exact h.coming hold
  | @arrived call x hx =>
    have arrived := h.change (b := r.broker.post call (.delivered (x.ack.stamped x.wall)))
      (u := r.underway.erase call) rfl (fun {other c'} hc' => ?_) id
      (fun hx' => h.coming (Table.of_get?_erase hx').2)
    · exact arrived.note (by simp) (by simp [Entry.call?])
        (by simpa using ⟨call, h.coming hx⟩)
    · rw [calls_post] at hc'
      split at hc'
      · next ho =>
        obtain ⟨c, hc, rfl⟩ := Option.map_eq_some_iff.1 hc'
        exact ⟨c, ho ▸ hc, rfl⟩
      · exact ⟨c', hc', rfl⟩
  | ended hc =>
    exact (h.finish hc).note (by simp) (by simpa [Entry.call?] using h.call_lt hc) (by simp)
  | left hc =>
    exact (h.finish hc).note (by simp) (by simpa [Entry.call?] using h.call_lt hc) (by simp)
  | advanced d => exact ⟨h.default, h.earlier, h.unique, h.call, h.entry, h.coming, h.acked⟩

theorem sound_run (d : Nanos) (events : List Event) : (run (.empty d) events).Sound d :=
  run_induction _ (.start d) (fun _ _ => sound_step) events

/-- A call and its id are each other's only if no other call has the id. -/
theorem Sound.call_iff_id {d : Nanos} {r : Run} (h : r.Sound d) {call : CallId} {id : String}
    {o : Order} (hr : r.record.Registered call id o) (hi : r.record.OwnId call id)
    {call' : CallId} {id' : String} {o' : Order} (hr' : r.record.Registered call' id' o') :
    call' = call ↔ id' = id := by
  constructor
  · rintro rfl
    exact (h.unique hr hr').1
  · rintro rfl
    exact hi _ _ hr'

end Run

/-! ## One command -/

/-- What there is of a command: its call and its entry, its acknowledgement on the way, and what the
record says of it. -/
structure Course where
  call : Option Call
  entry : Option Pending
  coming : Option Claimed
  pushes : List (Nanos × Bool)
  accepted : List Claimed
  results : List (Nanos × Except CommandError Ack)
  abandoned : Bool

/-- What can happen to a command. -/
inductive Course.Step (now : Nanos) (v : Course) : Course → Prop
  | failed {c : Call} : v.call = some c → c.phase = .pushing →
      Step now v { v with
        call := none
        entry := none
        pushes := v.pushes ++ [(now, false)]
        results := v.results ++ [(now, .error (.transportUnavailable c.session))] }
  | waits {c : Call} : v.call = some c → c.phase = .pushing →
      Step now v { v with
        call := some { c with phase := .awaiting (now + c.timeout) }
        pushes := v.pushes ++ [(now, true)] }
  | claimed {p : Pending} {x : Claimed} : v.entry = some p → x.session = p.session →
      Step now v { v with entry := none, coming := some x }
  | arrived {x : Claimed} : v.coming = some x →
      Step now v { v with
        call := v.call.map fun c => { c with mailbox := .delivered (x.ack.stamped x.wall) }
        coming := none
        accepted := v.accepted ++ [x] }
  | ended {c : Call} {result : Except CommandError Ack} :
      v.call = some c → Run.Ends c now v.entry result →
      Step now v { v with call := none, entry := none, results := v.results ++ [(now, result)] }
  | left {c : Call} : v.call = some c →
      Step now v { v with call := none, entry := none, abandoned := true }

namespace Run

/-- The run seen from a command. -/
def course (r : Run) (call : CallId) (id : String) : Course where
  call := r.broker.calls.get? call
  entry := r.broker.pending.get? id
  coming := r.underway.get? call
  pushes := r.record.pushes call
  accepted := r.record.accepted id
  results := r.record.results call
  abandoned := r.record.abandoned call

section

variable {d : Nanos} {r r' : Run} {call : CallId} {id : String} {o : Order}

/-- The end of another call is nothing to a command. -/
theorem finish_other (h : r.Sound d) (hr : r.record.Registered call id o)
    (hi : r.record.OwnId call id) {other : CallId} {c : Call}
    (hc : r.broker.calls.get? other = some c) (ho : other ≠ call) :
    (r.broker.finish other).calls.get? call = r.broker.calls.get? call ∧
      (r.broker.finish other).pending.get? id = r.broker.pending.get? id := by
  obtain ⟨o', hr'⟩ := h.call hc
  have hid : c.commandId ≠ id := fun he => ho ((h.call_iff_id hr hi hr').2 he)
  refine ⟨calls_finish _ hc ho.symm fun p hp he => ?_, ?_⟩
  · obtain ⟨o', hp⟩ := h.entry hp
    exact hid ((h.call_iff_id hr hi hp).1 he)
  · rw [pending_finish _ hc, if_neg hid.symm]

/-- With its own call goes its entry. -/
theorem finish_own (h : r.Sound d) (hr : r.record.Registered call id o) {c : Call}
    (hc : r.broker.calls.get? call = some c) :
    (r.broker.finish call).calls.get? call = none ∧
      (r.broker.finish call).pending.get? id = none := by
  obtain ⟨o', hr'⟩ := h.call hc
  refine ⟨calls_finish_self _ _, ?_⟩
  rw [pending_finish _ hc, if_pos (h.unique hr' hr).1]

/-- What was registered stays so. -/
theorem registered_step (hs : r.Stepped r') (hr : r.record.Registered call id o) :
    r'.record.Registered call id o := by
  cases hs <;> simp [hr]

/-- An id that is a call's own after an event was so before. -/
theorem ownId_of_step (hs : r.Stepped r') (hi : r'.record.OwnId call id) :
    r.record.OwnId call id :=
  fun other o' hr' => hi other o' (registered_step hs hr')

/-- An event leaves a command alone or takes one of its steps. -/
theorem course_step (h : r.Sound d) (hr : r.record.Registered call id o)
    (hi : r'.record.OwnId call id) (hs : r.Stepped r') :
    r'.course call id = r.course call id ∨
      Course.Step r.now (r.course call id) (r'.course call id) := by
  have own := ownId_of_step hs hi
  cases hs with
  | nothing => exact .inl rfl
  | advanced d => exact .inl rfl
  | disowned => exact .inl (by simp [course])
  | refused e =>
    have hn := Nat.ne_of_gt (h.registered_lt hr)
    exact .inl (by simp [course, hn])
  | registered o' wall =>
    have hn := Nat.ne_of_lt (h.registered_lt hr)
    have hid : commandId wall (r.broker.sequence + 1) ≠ id := by
      rintro rfl
      exact hn.symm (hi r.calls o' (by simp))
    have hcalls : (r.broker.enroll r.calls o' wall).calls.get? call = r.broker.calls.get? call := by
      refine calls_enroll hn fun p hp he => ?_
      obtain ⟨o', hp⟩ := h.entry hp
      exact hid ((h.call_iff_id hr own hp).1 he)
    exact .inl (by simp [course, pending_enroll, hcalls, hid.symm])
  | @failed other c hc hp =>
    by_cases ho : other = call
    · subst ho
      obtain ⟨hcalls, hpending⟩ := finish_own h hr hc
      have : Course.Step r.now (r.course other id) _ := .failed hc hp
      exact .inr (by simpa [course, hcalls, hpending] using this)
    · obtain ⟨hcalls, hpending⟩ := finish_other h hr own hc ho
      exact .inl (by simp [course, hcalls, hpending, ho])
  | @waits other c hc hp =>
    by_cases ho : other = call
    · subst ho
      have : Course.Step r.now (r.course other id) _ := .waits hc hp
      exact .inr (by simpa [course] using this)
    · exact .inl (by simp [course, Table.get?_set_of_ne, ho, Ne.symm ho])
  | @claimed p a wall hp =>
    obtain ⟨o', hr'⟩ := h.entry hp
    by_cases ho : a.commandId = id
    · have hcall := (h.call_iff_id hr own hr').2 ho
      have : Course.Step r.now (r.course call id) _ :=
        .claimed (x := ⟨p.session, a, wall⟩) (ho ▸ hp) rfl
      exact .inr (by simpa [course, hcall, ho] using this)
    · have hcall : call ≠ p.call := fun he => ho ((h.call_iff_id hr own hr').1 he.symm)
      exact .inl (by simp [course, Table.get?_set_of_ne, Table.get?_erase_of_ne, Ne.symm ho, hcall])
  | @arrived other x hx =>
    obtain ⟨o', hr'⟩ := h.coming hx
    by_cases ho : other = call
    · subst ho
      have hid := (h.unique hr hr').1
      have : Course.Step r.now (r.course other id) _ := .arrived hx
      exact .inr (by simpa [course, calls_post, hid] using this)
    · have hid : x.ack.commandId ≠ id := fun he => ho ((h.call_iff_id hr own hr').2 he)
      exact .inl (by
        simp [course, calls_post, Table.get?_erase_of_ne, hid, Ne.symm ho])
  | @ended other c result hc he =>
    by_cases ho : other = call
    · subst ho
      obtain ⟨o', hr'⟩ := h.call hc
      obtain ⟨hcalls, hpending⟩ := finish_own h hr hc
      rw [(h.unique hr hr').1] at he
      have : Course.Step r.now (r.course other id) _ := .ended hc he
      exact .inr (by simpa [course, hcalls, hpending] using this)
    · obtain ⟨hcalls, hpending⟩ := finish_other h hr own hc ho
      exact .inl (by simp [course, hcalls, hpending, ho])
  | @left other c hc =>
    by_cases ho : other = call
    · subst ho
      obtain ⟨hcalls, hpending⟩ := finish_own h hr hc
      have : Course.Step r.now (r.course other id) _ := .left hc
      exact .inr (by simpa [course, hcalls, hpending] using this)
    · obtain ⟨hcalls, hpending⟩ := finish_other h hr own hc ho
      exact .inl (by simp [course, hcalls, hpending, ho])

/-! ## The beginning of a course -/

theorem pushes_fresh (h : r.Sound d) : r.record.pushes r.calls = [] := by
  refine List.filterMap_eq_nil_iff.2 fun ⟨t, e⟩ hm => ?_
  cases e with
  | pushed c delivered => exact if_neg (Nat.ne_of_lt (h.earlier hm rfl))
  | _ => rfl

theorem results_fresh (h : r.Sound d) : r.record.results r.calls = [] := by
  refine List.filterMap_eq_nil_iff.2 fun ⟨t, e⟩ hm => ?_
  cases e with
  | ended c result => exact if_neg (Nat.ne_of_lt (h.earlier hm rfl))
  | _ => rfl

theorem abandoned_fresh (h : r.Sound d) : r.record.abandoned r.calls = false := by
  refine List.any_eq_false.2 fun ⟨t, e⟩ hm => ?_
  cases e with
  | abandoned c => simpa using Nat.ne_of_lt (h.earlier hm rfl)
  | _ => simp

theorem underway_fresh (h : r.Sound d) : r.underway.get? r.calls = none := by
  refine Option.eq_none_iff_forall_ne_some.2 fun x hx => ?_
  obtain ⟨o, hr⟩ := h.coming hx
  exact Nat.lt_irrefl _ (h.registered_lt hr)

/-- No acknowledgement has been accepted for an id that was not given out. -/
theorem accepted_fresh (h : r.Sound d) (hid : ∀ call o, ¬ r.record.Registered call id o) :
    r.record.accepted id = [] := by
  refine List.filterMap_eq_nil_iff.2 fun ⟨t, e⟩ hm => ?_
  cases e with
  | acked session a wall result =>
    rcases result with _ | ⟨⟩
    · rfl
    · refine if_neg ?_
      rintro rfl
      obtain ⟨call, o, hr⟩ := h.acked hm
      exact hid _ _ hr
  | _ => rfl

/-- A command begins with its call and its entry, under an id that was not given out before. -/
theorem course_registered (h : r.Sound d) (wall : Timestamp)
    (hid : id = commandId wall (r.broker.sequence + 1))
    (hn : ∀ call o, ¬ r.record.Registered call id o) :
    ({ r with
      broker := r.broker.enroll r.calls o wall
      calls := r.calls + 1 }.note (.registered r.calls id o)).course r.calls id =
    ⟨some (o.toCall id (o.limit d)), some ⟨o.session, o.command, r.calls⟩, none, [], [], [],
      false⟩ := by
  simp [course, calls_enroll_self, pending_enroll, ← hid, h.default, underway_fresh h,
    pushes_fresh h, accepted_fresh h hn, results_fresh h, abandoned_fresh h]

end

end Run

end EditorBridge.Broker
