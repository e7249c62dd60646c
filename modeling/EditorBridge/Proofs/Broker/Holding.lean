import EditorBridge.Proofs.Broker.Step
/-!
# What a call has in the broker

A call in progress has itself in the broker, and its entry as long as nothing
has come for it. What the broker does for other calls leaves both alone, unless
their ids clash: then the entry goes, and the call is told that it is lost. An
entry is never put back, so at most one thing comes for a call.
-/

namespace EditorBridge.Broker

variable {b b' : Broker} {call other : CallId} {c : Call}

/-- What a call in progress has in the broker. -/
structure Holds (b : Broker) (call : CallId) (c : Call) : Prop where
  held : b.calls.get? call = some c
  /-- No entry is the call's but the one under its id, for its session. -/
  own : ∀ {id p}, b.pending.get? id = some p → p.call = call →
    id = c.commandId ∧ p.session = c.session
  waits : c.mailbox = .empty → ∃ p, b.pending.get? c.commandId = some p ∧ p.call = call
  taken : c.mailbox ≠ .empty → ∀ {id p}, b.pending.get? id = some p → p.call ≠ call

/-- What a broker may do to a call when it is busy with others. -/
structure Apart (call : CallId) (b b' : Broker) : Prop where
  entries : ∀ {id p}, b'.pending.get? id = some p → p.call = call → b.pending.get? id = some p
  mail : (b'.calls.get? call = b.calls.get? call ∧
      ∀ {id p}, b.pending.get? id = some p → p.call = call → b'.pending.get? id = some p) ∨
    ∃ id p, b.pending.get? id = some p ∧ p.call = call ∧
      (∀ p', b'.pending.get? id = some p' → p'.call ≠ call) ∧
      b'.calls.get? call = (b.calls.get? call).map fun c => { c with mailbox := .lost }

/-- A call keeps what it has, or loses its entry before anything came for it. -/
theorem Holds.apart (h : Holds b call c) (ha : Apart call b b') :
    ∃ m, (m = c.mailbox ∨ c.mailbox = .empty ∧ m = .lost) ∧
      Holds b' call { c with mailbox := m } := by
  have own : ∀ {id p}, b'.pending.get? id = some p → p.call = call →
      id = c.commandId ∧ p.session = c.session := fun hp hc => h.own (ha.entries hp hc) hc
  rcases ha.mail with ⟨hcall, hkept⟩ | ⟨id, p, hp, hpc, hgone, hcall⟩
  · refine ⟨c.mailbox, .inl rfl, hcall.trans h.held, own, fun hm => ?_, fun hm id p hp hc => ?_⟩
    · obtain ⟨p, hp, hc⟩ := h.waits hm
      exact ⟨p, hkept hp hc, hc⟩
    · exact h.taken hm (ha.entries hp hc) hc
  · have hempty : c.mailbox = .empty := Decidable.byContradiction fun hm => h.taken hm hp hpc
    refine ⟨.lost, .inr ⟨hempty, rfl⟩, by rw [hcall, h.held]; rfl, own, nofun, ?_⟩
    intro _ id' p' hp' hc'
    obtain ⟨rfl, -⟩ := own hp' hc'
    obtain ⟨rfl, -⟩ := h.own hp hpc
    exact hgone p' hp' hc'

/-- Nothing but its mailbox changes in a call that the broker is not busy with. -/
theorem Apart.held (h : Apart call b b') (hc : b.calls.get? call = some c) :
    ∃ m, b'.calls.get? call = some { c with mailbox := m } := by
  rcases h.mail with ⟨hcall, -⟩ | ⟨_, _, -, -, -, hcall⟩
  · exact ⟨c.mailbox, hcall.trans hc⟩
  · exact ⟨.lost, by rw [hcall, hc]; rfl⟩

/-! ## The operations -/

theorem Apart.refl (call : CallId) (b : Broker) : Apart call b b :=
  ⟨fun h _ => h, .inl ⟨rfl, fun h _ => h⟩⟩

/-- An entry is taken out, whoever waits for it, and then something is done for another call. -/
theorem apart_discard (id : String) (hcalls : b'.calls.get? call = (b.discard id).calls.get? call)
    (hpending : ∀ {id' p}, p.call = call →
      (b'.pending.get? id' = some p ↔ id' ≠ id ∧ b.pending.get? id' = some p)) :
    Apart call b b' := by
  refine ⟨fun hp hc => ((hpending hc).1 hp).2, ?_⟩
  cases hid : b.pending.get? id with
  | none =>
    refine .inl ⟨by rw [hcalls]; simp [discard, hid], fun {id' p} hp hc => (hpending hc).2 ⟨?_, hp⟩⟩
    rintro rfl
    cases hid.symm.trans hp
  | some p =>
    by_cases hc : p.call = call
    · refine .inr ⟨id, p, hid, hc, fun p' hp' hc' => ((hpending hc').1 hp').1 rfl, ?_⟩
      rw [hcalls]
      simp [discard, hid, hc, calls_post]
    · refine .inl ⟨?_, fun {id' p'} hp' hc' => (hpending hc').2 ⟨?_, hp'⟩⟩
      · rw [hcalls]
        simp [discard, hid, calls_post, Ne.symm hc]
      · rintro rfl
        cases hid.symm.trans hp'
        exact hc hc'

theorem apart_enroll (o : Order) (wall : Timestamp) (hne : call ≠ other) :
    Apart call b (b.enroll other o wall) := by
  refine apart_discard (commandId wall (b.sequence + 1)) ?_ ?_
  · simp only [enroll, register]
    rw [Table.get?_set_of_ne _ _ hne]
    simp only [discard]
    split <;> rfl
  · intro id' p hc
    rw [pending_enroll]
    split
    · next he =>
      refine ⟨fun hp => ?_, fun h => absurd he h.1⟩
      cases hp
      exact absurd hc (Ne.symm hne)
    · next hn => simp [hn]

theorem apart_finish (hne : call ≠ other) : Apart call b (b.finish other) := by
  cases hother : b.calls.get? other with
  | none =>
    have hsame : b.finish other = b := by simp [finish, hother]
    rw [hsame]
    exact .refl call b
  | some c =>
    refine apart_discard c.commandId ?_ fun {id' p} _ => ?_
    · rw [finish_eq hother]
      simp only [discard]
      split
      · simp only [post, Table.get?_modify, Table.get?_erase]
        split_ifs with he hp
        · exact absurd (he.trans hp) hne
        · rfl
        · rfl
      · exact Table.get?_erase_of_ne _ hne
    · rw [pending_finish _ hother]
      split <;> simp [*]

/-- The push of another call has ended well. -/
theorem apart_set (c : Call) (hne : call ≠ other) :
    Apart call b { b with calls := b.calls.set other c } :=
  ⟨fun h _ => h, .inl ⟨Table.get?_set_of_ne _ _ hne, fun h _ => h⟩⟩

theorem ack_eq {session : String} {a : Ack} {wall : Timestamp}
    (h : (b.ack session a wall).1 = .ok ()) :
    ∃ p, b.pending.get? a.commandId = some p ∧ p.session = session ∧ (b.ack session a wall).2 =
      { b with pending := b.pending.erase a.commandId }.post p.call
        (.delivered (a.stamped wall)) := by
  unfold ack claim at h ⊢
  cases hp : b.pending.get? a.commandId with
  | none => simp [hp] at h
  | some p =>
    by_cases hs : p.session = session
    · exact ⟨p, rfl, hs, by simp [hs]⟩
    · simp [hp, hs] at h

/-- An acknowledgement is for another call, or it is what comes for this one. -/
theorem Holds.ack {session : String} {a : Ack} {wall : Timestamp} (h : Holds b call c)
    (hok : (b.ack session a wall).1 = .ok ()) :
    Apart call b (b.ack session a wall).2 ∨
      session = c.session ∧ a.commandId = c.commandId ∧
        Holds (b.ack session a wall).2 call { c with mailbox := .delivered (a.stamped wall) } := by
  obtain ⟨p, hp, hs, hb⟩ := ack_eq hok
  rw [hb]
  have erased : ∀ {id p'}, (b.pending.erase a.commandId).get? id = some p' ↔
      id ≠ a.commandId ∧ b.pending.get? id = some p' := by
    intro id p'
    rw [Table.get?_erase]
    split <;> simp [*]
  by_cases hc : p.call = call
  · obtain ⟨hid, hsession⟩ := h.own hp hc
    have gone : ∀ {id p'}, (b.pending.erase a.commandId).get? id = some p' → p'.call ≠ call := by
      intro id p' hp' hc'
      obtain ⟨hne, hp'⟩ := erased.1 hp'
      exact hne ((h.own hp' hc').1.trans hid.symm)
    refine .inr ⟨hs.symm.trans hsession, hid, ?_, ?_, fun hm => ?_, fun _ => gone⟩
    · rw [calls_post, if_pos hc.symm, hc]
      exact congrArg _ h.held
    · exact fun hp' hc' => absurd hc' (gone hp')
    · cases hm
  · refine .inl ⟨fun hp' _ => (erased.1 hp').2, .inl ⟨?_, fun {id p'} hp' hc' => ?_⟩⟩
    · rw [calls_post, if_neg (Ne.symm hc)]
    · refine erased.2 ⟨?_, hp'⟩
      rintro rfl
      cases hp.symm.trans hp'
      exact hc hc'

/-- A new call has its entry, if no entry was its before. -/
theorem holds_enroll (o : Order) (wall : Timestamp)
    (hfresh : ∀ {id p}, b.pending.get? id = some p → p.call ≠ call) :
    Holds (b.enroll call o wall) call
      (o.toCall (commandId wall (b.sequence + 1)) (o.limit b.defaultTimeout)) := by
  refine ⟨calls_enroll_self .., fun {id p} hp hc => ?_, fun _ => ?_, fun hm => absurd rfl hm⟩
  · rw [pending_enroll] at hp
    split at hp
    · next he =>
      cases hp
      exact ⟨he, rfl⟩
    · exact absurd hc (hfresh hp)
  · exact ⟨_, (pending_enroll ..).trans (if_pos rfl), rfl⟩

/-! ## Pushes and looks -/

/-- The push of a call ends: it begins to wait, or it is over. -/
theorem pushed_cases (b : Broker) (call : CallId) (delivered : Bool) (now : Nanos) :
    (b.calls.get? call = none ∧ b.pushed call delivered now = (none, b)) ∨
    ∃ c, b.calls.get? call = some c ∧
      (delivered = true ∧ b.pushed call delivered now = (none, { b with
        calls := b.calls.set call { c with phase := .awaiting (now + c.timeout) } }) ∨
      delivered = false ∧ b.pushed call delivered now =
        (some (.error (.transportUnavailable c.session)), b.finish call)) := by
  unfold pushed
  split
  · next h => exact .inl ⟨h, rfl⟩
  · next c h =>
    refine .inr ⟨c, h, ?_⟩
    cases delivered
    · exact .inr ⟨rfl, rfl⟩
    · exact .inl ⟨rfl, rfl⟩

/-- A look ends a call with what came for it, or with an error. -/
theorem poll_cases {now : Nanos} {r : Except CommandError Ack} (h : b.calls.get? call = some c)
    (hr : (b.poll call now).1 = some r) :
    (b.poll call now).2 = b.finish call ∧ ∃ deadline, c.phase = .awaiting deadline ∧
      ((∃ a, c.mailbox = .delivered a ∧ r = .ok a) ∨ ∃ e, r = .error e) := by
  unfold poll at hr ⊢
  rw [h] at hr ⊢
  rcases hphase : c.phase with _ | deadline <;> rcases hmail : c.mailbox with _ | a | _ <;>
    simp only [hphase, hmail] at hr ⊢
  · cases hr
  · cases hr
  · cases hr
  · split_ifs at hr ⊢ with hd
    · cases hr
      exact ⟨rfl, deadline, rfl, .inr ⟨_, rfl⟩⟩
  · cases hr
    exact ⟨trivial, deadline, rfl, .inl ⟨a, rfl, rfl⟩⟩
  · cases hr
    exact ⟨trivial, deadline, rfl, .inr ⟨_, rfl⟩⟩

/-- A look leaves the broker as it is or ends the call. -/
theorem poll_broker (b : Broker) (call : CallId) (now : Nanos) :
    (b.poll call now).2 = b ∨ (b.poll call now).2 = b.finish call := by
  unfold poll
  split
  · exact .inl rfl
  · split
    · exact .inl rfl
    · exact .inr rfl
    · exact .inr rfl
    · split_ifs
      · exact .inr rfl
      · exact .inl rfl

theorem apart_pushed (delivered : Bool) (now : Nanos) (hne : call ≠ other) :
    Apart call b (b.pushed other delivered now).2 := by
  rcases pushed_cases b other delivered now with ⟨-, h⟩ | ⟨c, -, ⟨-, h⟩ | ⟨-, h⟩⟩ <;> rw [h]
  · exact .refl call b
  · exact apart_set _ hne
  · exact apart_finish hne

theorem apart_poll {now : Nanos} {r : Except CommandError Ack} (hne : call ≠ other)
    (hr : (b.poll other now).1 = some r) : Apart call b (b.poll other now).2 := by
  cases hother : b.calls.get? other with
  | none => simp [poll, hother] at hr
  | some c =>
    rw [(poll_cases hother hr).1]
    exact apart_finish hne

/-- A call that looks in vain is before its deadline, if its entry is there until something comes
for it. -/
theorem early_of_poll_none {now deadline : Nanos} (hheld : b.calls.get? call = some c)
    (hwaits : c.mailbox = .empty → ∃ p, b.pending.get? c.commandId = some p ∧ p.call = call)
    (hphase : c.phase = .awaiting deadline) (hr : (b.poll call now).1 = none) : now < deadline := by
  unfold poll at hr
  rw [hheld] at hr
  rcases hmail : c.mailbox with _ | a | _ <;> simp only [hphase, hmail] at hr
  · obtain ⟨p, hp, -⟩ := hwaits hmail
    have hhas : b.pending.has c.commandId = true := by simp [Table.has, hp]
    split_ifs at hr with hd
    · rw [hhas] at hd
      simpa using hd
  · cases hr
  · cases hr

theorem Holds.poll_none {now deadline : Nanos} (h : Holds b call c)
    (hphase : c.phase = .awaiting deadline) (hr : (b.poll call now).1 = none) : now < deadline :=
  early_of_poll_none h.held h.waits hphase hr

end EditorBridge.Broker
