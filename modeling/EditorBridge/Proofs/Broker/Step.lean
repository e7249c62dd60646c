import EditorBridge.Broker.Run
import Mathlib.Tactic.SplitIfs
/-!
# What one event does to a run

`step_cases` sums up the operations of the broker: an event does one of eleven
things. The theorems about runs are case analyses over those and do not look at
the operations again.
-/

namespace EditorBridge.Broker

/-! ## Calls and entries after an operation -/

section Operations

variable (b : Broker) (call other : CallId) (id other' : String)

@[simp] theorem pending_post (m : Mailbox) : (b.post call m).pending = b.pending := rfl

@[simp] theorem sequence_post (m : Mailbox) : (b.post call m).sequence = b.sequence := rfl

theorem calls_post (m : Mailbox) : (b.post call m).calls.get? other =
    if other = call then (b.calls.get? call).map fun c => { c with mailbox := m }
    else b.calls.get? other :=
  Table.get?_modify ..

@[simp] theorem sequence_discard : (b.discard id).sequence = b.sequence := by
  unfold discard
  split <;> rfl

@[simp] theorem default_discard : (b.discard id).defaultTimeout = b.defaultTimeout := by
  unfold discard
  split <;> rfl

theorem pending_discard : (b.discard id).pending.get? other' =
    if other' = id then none else b.pending.get? other' := by
  unfold discard
  split
  · exact Table.get?_erase ..
  · next h => by_cases hi : other' = id <;> simp [hi, h]

/-- Taking out an entry touches no call but the one that waits for it. -/
theorem calls_discard (h : ∀ p, b.pending.get? id = some p → p.call ≠ call) :
    (b.discard id).calls.get? call = b.calls.get? call := by
  unfold discard
  split
  · next p hp => exact (calls_post ..).trans (if_neg (Ne.symm (h p hp)))
  · rfl

/-- Taking out an entry adds no call, and changes at most the mailbox of one. -/
theorem of_calls_discard {c : Call} (h : (b.discard id).calls.get? call = some c) :
    ∃ m, b.calls.get? call = some { c with mailbox := m } := by
  unfold discard at h
  split at h
  · next p _ =>
    replace h : (b.post p.call .lost).calls.get? call = some c := h
    rw [calls_post] at h
    split at h
    · next he =>
      subst he
      obtain ⟨c', hc', rfl⟩ := Option.map_eq_some_iff.1 h
      exact ⟨c'.mailbox, hc'⟩
    · exact ⟨c.mailbox, h⟩
  · exact ⟨c.mailbox, h⟩

variable {b call}

theorem finish_eq {c : Call} (h : b.calls.get? call = some c) :
    b.finish call = { b with calls := b.calls.erase call }.discard c.commandId := by
  simp [finish, h]

@[simp] theorem sequence_finish : (b.finish call).sequence = b.sequence := by
  unfold finish
  split <;> simp

@[simp] theorem default_finish : (b.finish call).defaultTimeout = b.defaultTimeout := by
  unfold finish
  split <;> simp

theorem pending_finish {c : Call} (h : b.calls.get? call = some c) :
    (b.finish call).pending.get? id =
      if id = c.commandId then none else b.pending.get? id := by
  rw [finish_eq h, pending_discard]

theorem calls_finish_self (call : CallId) (b : Broker) : (b.finish call).calls.get? call = none := by
  unfold finish
  split
  · next h => exact h
  · cases h : (discard _ _).calls.get? call with
    | none => rfl
    | some c =>
      obtain ⟨m, hm⟩ := of_calls_discard _ _ _ h
      simp at hm

/-- The end of a call touches no other call but one that waits for an entry with the same id. -/
theorem calls_finish {c : Call} (h : b.calls.get? call = some c) (ho : other ≠ call)
    (hp : ∀ p, b.pending.get? c.commandId = some p → p.call ≠ other) :
    (b.finish call).calls.get? other = b.calls.get? other := by
  rw [finish_eq h, calls_discard { b with calls := b.calls.erase call } other _ hp]
  exact Table.get?_erase_of_ne _ ho

theorem of_calls_finish {c : Call} (h : (b.finish call).calls.get? other = some c) :
    ∃ m, b.calls.get? other = some { c with mailbox := m } := by
  unfold finish at h
  split at h
  · exact ⟨c.mailbox, h⟩
  · obtain ⟨m, hm⟩ := of_calls_discard _ _ _ h
    exact ⟨m, (Table.of_get?_erase hm).2⟩

/-! ## A new call -/

/-- A call is refused, or it is enrolled and its notification has to be pushed. -/
theorem start_cases (b : Broker) (call : CallId) (o : Order) (reachable : Bool) (wall : Timestamp) :
    (∃ e, b.start call o reachable wall = (.error e, b)) ∨
    reachable = true ∧ b.start call o reachable wall =
      (.ok (notification (commandId wall (b.sequence + 1)) o), b.enroll call o wall) := by
  unfold start
  split_ifs with hb hr
  · exact .inl ⟨_, rfl⟩
  · exact .inl ⟨_, rfl⟩
  · exact .inr ⟨by simpa using hr, rfl⟩

variable (b call) (o : Order) (wall : Timestamp)

@[simp] theorem default_enroll : (b.enroll call o wall).defaultTimeout = b.defaultTimeout := by
  simp [enroll, register]

theorem pending_enroll : (b.enroll call o wall).pending.get? id =
    if id = commandId wall (b.sequence + 1) then some ⟨o.session, o.command, call⟩
    else b.pending.get? id := by
  simp only [enroll, register]
  exact Table.get?_set ..

theorem calls_enroll_self : (b.enroll call o wall).calls.get? call =
    some (o.toCall (commandId wall (b.sequence + 1)) (o.limit b.defaultTimeout)) :=
  Table.get?_set_self ..

variable {b call o wall other}

/-- A new call touches no other but one that waits for an entry with its id. -/
theorem calls_enroll (ho : other ≠ call)
    (hp : ∀ p, b.pending.get? (commandId wall (b.sequence + 1)) = some p → p.call ≠ other) :
    (b.enroll call o wall).calls.get? other = b.calls.get? other := by
  simp only [enroll, register]
  rw [Table.get?_set_of_ne _ _ ho]
  exact calls_discard _ _ _ hp

theorem of_calls_enroll {c : Call} (ho : other ≠ call)
    (h : (b.enroll call o wall).calls.get? other = some c) :
    ∃ m, b.calls.get? other = some { c with mailbox := m } := by
  simp only [enroll, register] at h
  rw [Table.get?_set_of_ne _ _ ho] at h
  exact of_calls_discard { b with sequence := b.sequence + 1 } _ _ h

end Operations

/-! ## Events -/

namespace Run

@[simp] theorem broker_note (r : Run) (e : Entry) : (r.note e).broker = r.broker := rfl

@[simp] theorem underway_note (r : Run) (e : Entry) : (r.note e).underway = r.underway := rfl

@[simp] theorem now_note (r : Run) (e : Entry) : (r.note e).now = r.now := rfl

@[simp] theorem calls_note (r : Run) (e : Entry) : (r.note e).calls = r.calls := rfl

theorem record_note (r : Run) (e : Entry) : (r.note e).record = r.record ++ [(r.now, e)] := rfl

@[simp] theorem broker_endCall (r : Run) (call : CallId)
    (m : Option (Except CommandError Ack) × Broker) : (r.endCall call m).broker = m.2 := by
  unfold endCall
  split <;> rfl

/-- How a call in progress can end when it looks after itself, at a time and next to what is
registered under its id. -/
inductive Ends (c : Call) (now : Nanos) (entry : Option Pending) : Except CommandError Ack → Prop
  | answered {deadline a} : c.phase = .awaiting deadline → c.mailbox = .delivered a →
      Ends c now entry (.ok a)
  | lost {deadline} : c.phase = .awaiting deadline → c.mailbox = .lost →
      Ends c now entry (.error (.unknownCommand c.commandId))
  | expired {deadline p} : c.phase = .awaiting deadline → c.mailbox = .empty → deadline ≤ now →
      entry = some p → Ends c now entry (.error (.ackTimeout c.timeout))

/-- What an event can do. -/
inductive Stepped (r : Run) : Run → Prop
  | nothing : Stepped r r
  | refused (e : CommandError) : e = .invalidRequest ∨ (∃ s, e = .transportUnavailable s) →
      Stepped r ({ r with calls := r.calls + 1 }.note (.ended r.calls (.error e)))
  | registered (o : Order) (wall : Timestamp) :
      Stepped r ({ r with
        broker := r.broker.enroll r.calls o wall
        calls := r.calls + 1 }.note (.registered r.calls (commandId wall (r.broker.sequence + 1)) o))
  | failed {call : CallId} {c : Call} : r.broker.calls.get? call = some c → c.phase = .pushing →
      Stepped r (({ r with broker := r.broker.finish call }.note (.pushed call false)).note
        (.ended call (.error (.transportUnavailable c.session))))
  | waits {call : CallId} {c : Call} : r.broker.calls.get? call = some c → c.phase = .pushing →
      Stepped r ({ r with
        broker := { r.broker with
          calls := r.broker.calls.set call { c with phase := .awaiting (r.now + c.timeout) } } }.note
        (.pushed call true))
  | disowned (session : String) (a : Ack) (wall : Timestamp) (e : CommandError) :
      Stepped r (r.note (.acked session a wall (.error e)))
  | claimed {p : Pending} (a : Ack) (wall : Timestamp) :
      r.broker.pending.get? a.commandId = some p →
      Stepped r { r with
        broker := { r.broker with pending := r.broker.pending.erase a.commandId }
        underway := r.underway.set p.call ⟨p.session, a, wall⟩ }
  | arrived {call : CallId} {x : Claimed} : r.underway.get? call = some x →
      Stepped r ({ r with
        broker := r.broker.post call (.delivered (x.ack.stamped x.wall))
        underway := r.underway.erase call }.note (.acked x.session x.ack x.wall (.ok ())))
  | ended {call : CallId} {c : Call} {result : Except CommandError Ack} :
      r.broker.calls.get? call = some c →
      Ends c r.now (r.broker.pending.get? c.commandId) result →
      Stepped r ({ r with broker := r.broker.finish call }.note (.ended call result))
  | left {call : CallId} {c : Call} : r.broker.calls.get? call = some c →
      Stepped r ({ r with broker := r.broker.finish call }.note (.abandoned call))
  | advanced (d : Nanos) : Stepped r { r with now := r.now + d }

theorem stepped_call (r : Run) (o : Order) (reachable : Bool) (wall : Timestamp) :
    r.Stepped (r.step (.call o reachable wall)) := by
  by_cases hb : Text.blank o.session ∨ Text.blank o.command
  · simpa [step, Broker.start, hb] using Stepped.refused _ (.inl rfl)
  cases reachable
  · simpa [step, Broker.start, hb] using Stepped.refused _ (.inr ⟨o.session, rfl⟩)
  · simpa [step, Broker.start, hb] using Stepped.registered o wall

theorem stepped_pushed (r : Run) (call : CallId) (delivered : Bool) :
    r.Stepped (r.step (.pushed call delivered)) := by
  simp only [step]
  split
  · next h =>
    obtain ⟨c, hc, hp⟩ := (Option.any_eq_true ..).1 h
    replace hp := of_decide_eq_true hp
    cases delivered
    · simpa [endCall, pushed, note, hc, hp] using Stepped.failed hc hp
    · simpa [endCall, pushed, note, hc, hp] using Stepped.waits hc hp
  · exact .nothing

theorem stepped_ack (r : Run) (session : String) (a : Ack) (wall : Timestamp) :
    r.Stepped (r.step (.ack session a wall)) := by
  simp only [step, claim]
  cases hp : r.broker.pending.get? a.commandId with
  | none => exact .disowned ..
  | some p =>
    by_cases hs : p.session = session
    · subst hs
      simpa using Stepped.claimed a wall hp
    · simpa [hs] using Stepped.disowned session a wall _

theorem stepped_poll (r : Run) (call : CallId) : r.Stepped (r.step (.poll call)) := by
  have h : (r.broker.poll call r.now = (none, r.broker)) ∨ ∃ c result,
      r.broker.calls.get? call = some c ∧
      Ends c r.now (r.broker.pending.get? c.commandId) result ∧
      r.broker.poll call r.now = (some result, r.broker.finish call) := by
    unfold poll
    split
    · exact .inl rfl
    · next c hc =>
      split
      · exact .inl rfl
      · next hp hm => exact .inr ⟨c, _, hc, .answered hp hm, rfl⟩
      · next hp hm => exact .inr ⟨c, _, hc, .lost hp hm, rfl⟩
      · next deadline hp hm =>
        split_ifs with hd
        · obtain ⟨p, hp'⟩ := Option.isSome_iff_exists.1 hd.2
          exact .inr ⟨c, _, hc, .expired hp hm hd.1 hp', rfl⟩
        · exact .inl rfl
  rcases h with h | ⟨c, result, hc, he, h⟩ <;> simp only [step, endCall, h]
  · exact .nothing
  · exact .ended hc he

/-- What an event does, in eleven cases. -/
theorem step_cases (r : Run) (e : Event) : r.Stepped (r.step e) := by
  cases e with
  | call o reachable wall => exact r.stepped_call o reachable wall
  | pushed call delivered => exact r.stepped_pushed call delivered
  | ack session a wall => exact r.stepped_ack session a wall
  | poll call => exact r.stepped_poll call
  | advance d => exact .advanced d
  | deliver call =>
    simp only [step]
    split
    · exact .nothing
    · next h => exact .arrived h
  | abandon call =>
    simp only [step]
    split
    · next h =>
      obtain ⟨c, hc⟩ := Option.isSome_iff_exists.1 h
      exact .left hc
    · exact .nothing

end Run

/-- What holds at the start and is kept by every event holds after every run. -/
theorem run_induction {P : Run → Prop} (b : Broker) (start : P (.start b))
    (step : ∀ r r', P r → r.Stepped r' → P r') (events : List Event) : P (run b events) := by
  suffices ∀ r, P r → P (events.foldl Run.step r) from this _ start
  induction events with
  | nil => exact fun _ h => h
  | cons e events ih => exact fun r h => ih _ (step r _ h (r.step_cases e))

end EditorBridge.Broker
