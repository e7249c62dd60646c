import EditorBridge.Proofs.Broker.Pending
/-!
# Acknowledgements of strangers

A session owns a command while it is pending for that session. An acknowledgement
from anyone else is refused, and that is all that comes of it: a run goes the
same way without it. Which acknowledgements are those of strangers is told by
the run that has them all, so the simulation below walks along that run and
leaves them out as they come.
-/

namespace EditorBridge.Broker

/-- Whether a command is pending for a session. -/
def owns (b : Broker) (session id : String) : Bool :=
  (b.pending.get? id).any fun p => p.session = session

/-- Whether an event is an acknowledgement from a session that does not own the command. -/
def Event.foreign (b : Broker) : Event → Bool
  | .ack session a _ => !b.owns session a.commandId
  | _ => false

/-- The events of a run without the acknowledgements of strangers. -/
def Run.purged (r : Run) : List Event → List Event
  | [] => []
  | e :: events =>
    if e.foreign r.broker then (r.step e).purged events else e :: (r.step e).purged events

/-- Whether an entry of a record is an acknowledgement that was refused. -/
def Entry.refusal : Entry → Bool
  | .acked _ _ _ (.error _) => true
  | _ => false

/-- A record without the acknowledgements that were refused. -/
def Record.unrefused (l : Record) : Record := l.filter fun x => !x.2.refusal

/-- A run whose record says nothing of acknowledgements that were refused. -/
def Run.unrefused (r : Run) : Run := { r with record := r.record.unrefused }

/-! ## What comes of an acknowledgement -/

variable {b : Broker} {session id : String}

theorem owns_iff : b.owns session id = true ↔ ∃ p, b.pending.get? id = some p ∧ p.session = session := by
  simp [owns, Option.any_eq_true]

/-- A session owns the commands that were registered for it, as long as their calls are in progress
and unacknowledged. -/
theorem owns_iff_inProgress {d : Nanos} {events : List Event} {call : CallId} {o : Order}
    (hr : (run (.empty d) events).record.Registered call id o)
    (hown : (run (.empty d) events).record.OwnId call id) :
    (run (.empty d) events).broker.owns session id = true ↔
      o.session = session ∧ (run (.empty d) events).record.InProgress call ∧
        (run (.empty d) events).Unacknowledged call id := by
  rw [owns_iff, ← Run.pending_iff hr hown]
  constructor
  · rintro ⟨p, hp, hs⟩
    obtain rfl := Run.entry_eq hr hown hp
    exact ⟨hs, hp⟩
  · rintro ⟨hs, hp⟩
    exact ⟨_, hp, hs⟩

/-- Who owns a command gets its entry; who does not is told whether it is another's. -/
theorem claim_eq (b : Broker) (session id : String) :
    b.owns session id = true ∧ (∃ call, b.claim session id =
      (.ok call, { b with pending := b.pending.erase id })) ∨
    b.owns session id = false ∧ b.claim session id =
      (.error (if b.pending.has id then .sessionMismatch id else .unknownCommand id), b) := by
  unfold claim
  cases hp : b.pending.get? id with
  | none => exact .inr ⟨by simp [owns, hp], by simp [Table.has, hp]⟩
  | some p =>
    by_cases hs : p.session = session
    · exact .inl ⟨by simp [owns, hp, hs], p.call, by simp [hs]⟩
    · exact .inr ⟨by simp [owns, hp, hs], by simp [hs, Table.has, hp]⟩

/-! ## Records without refusals -/

namespace Record

variable (l : Record)

theorem results_unrefused (call : CallId) : l.unrefused.results call = l.results call := by
  rw [unrefused, results, List.filterMap_filter]
  refine List.filterMap_congr fun entry _ => ?_
  obtain ⟨t, e⟩ := entry
  cases e with
  | acked _ _ _ result => cases result <;> rfl
  | _ => rfl

end Record

namespace Run

variable (r : Run)

@[simp] theorem broker_unrefused : r.unrefused.broker = r.broker := rfl

@[simp] theorem underway_unrefused : r.unrefused.underway = r.underway := rfl

@[simp] theorem now_unrefused : r.unrefused.now = r.now := rfl

@[simp] theorem calls_unrefused : r.unrefused.calls = r.calls := rfl

theorem unrefused_note {e : Entry} (he : e.refusal = false) :
    (r.note e).unrefused = r.unrefused.note e := by
  simp [unrefused, Record.unrefused, note, he]

theorem unrefused_note_refusal {e : Entry} (he : e.refusal = true) :
    (r.note e).unrefused = r.unrefused := by
  simp [unrefused, Record.unrefused, note, he]

theorem unrefused_endCall (call : CallId) (m : Option (Except CommandError Ack) × Broker) :
    (r.endCall call m).unrefused = r.unrefused.endCall call m := by
  unfold endCall
  split
  · exact unrefused_note _ rfl
  · rfl

/-! ## Two runs side by side -/

/-- The acknowledgement of a stranger is refused. -/
theorem step_foreign {session : String} {a : Ack} (wall : Timestamp)
    (h : r.broker.owns session a.commandId = false) :
    r.step (.ack session a wall) = r.note (.acked session a wall (.error
      (if r.broker.pending.has a.commandId then .sessionMismatch a.commandId
        else .unknownCommand a.commandId))) := by
  rcases claim_eq r.broker session a.commandId with ⟨ho, -⟩ | ⟨-, he⟩
  · rw [h] at ho
    cases ho
  · simp only [step, he]

/-- No other event looks at the record. -/
theorem unrefused_step (e : Event) (h : e.foreign r.broker = false) :
    (r.step e).unrefused = r.unrefused.step e := by
  cases e with
  | call o reachable wall =>
    rcases start_cases r.broker r.calls o reachable wall with ⟨e, he⟩ | ⟨-, he⟩ <;>
      simp only [step, broker_unrefused, calls_unrefused, he] <;> exact unrefused_note _ rfl
  | pushed call delivered =>
    by_cases hp : r.broker.isPushing call = true
    · have hp' : r.unrefused.broker.isPushing call = true := hp
      simp only [step, if_pos hp, if_pos hp']
      rw [unrefused_endCall, unrefused_note _ rfl]
      rfl
    · have hp' : ¬ r.unrefused.broker.isPushing call = true := hp
      simp only [step, if_neg hp, if_neg hp']
  | ack session a wall =>
    rcases claim_eq r.broker session a.commandId with ⟨-, call, he⟩ | ⟨ho, -⟩
    · simp only [step, broker_unrefused, underway_unrefused, he]
      rfl
    · simp [Event.foreign, ho] at h
  | deliver call =>
    simp only [step, broker_unrefused, underway_unrefused]
    split
    · rfl
    · exact unrefused_note _ rfl
  | poll call => exact unrefused_endCall _ _ _
  | abandon call =>
    by_cases hc : r.broker.calls.has call = true
    · have hc' : r.unrefused.broker.calls.has call = true := hc
      simp only [step, if_pos hc, if_pos hc']
      exact unrefused_note _ rfl
    · have hc' : ¬ r.unrefused.broker.calls.has call = true := hc
      simp only [step, if_neg hc, if_neg hc']
  | advance d => rfl

/-- What a stranger's acknowledgement leaves is its refusal. -/
theorem unrefused_step_foreign (e : Event) (h : e.foreign r.broker = true) :
    (r.step e).unrefused = r.unrefused := by
  cases e with
  | ack session a wall =>
    rw [step_foreign r wall (by simpa [Event.foreign] using h)]
    exact unrefused_note_refusal _ rfl
  | _ => cases h

theorem purged_cons_foreign {e : Event} (events : List Event) (h : e.foreign r.broker = true) :
    r.purged (e :: events) = (r.step e).purged events := by
  simp [purged, h]

theorem purged_cons_own {e : Event} (events : List Event) (h : e.foreign r.broker = false) :
    r.purged (e :: events) = e :: (r.step e).purged events := by
  simp [purged, h]

/-- Without the acknowledgements of strangers a run goes the same way. -/
theorem foldl_purged (events : List Event) :
    (r.purged events).foldl step r.unrefused = (events.foldl step r).unrefused := by
  induction events generalizing r with
  | nil => rfl
  | cons e events ih =>
    cases h : e.foreign r.broker
    · rw [purged_cons_own r events h, List.foldl_cons, List.foldl_cons, ← unrefused_step r e h, ih]
    · rw [purged_cons_foreign r events h, List.foldl_cons, ← unrefused_step_foreign r e h, ih]

theorem purged_append (before after : List Event) :
    r.purged (before ++ after) = r.purged before ++ (before.foldl step r).purged after := by
  induction before generalizing r with
  | nil => rfl
  | cons e before ih =>
    cases h : e.foreign r.broker
    · simp [purged_cons_own r _ h, ih]
    · simp [purged_cons_foreign r _ h, ih]

end Run

/-- Leaving out the acknowledgements of those who do not own the command changes nothing else: at
every point of the run the same commands are pending, the same calls have ended with the same
results at the same times, and every acknowledgement that stays is answered as before. Each one that
is left out was refused, by what was pending in that moment. -/
theorem foreign_acks_inert (b : Broker) (before after : List Event) :
    let r := run b before
    let q := run b ((Run.start b).purged before)
    (Run.start b).purged (before ++ after) = (Run.start b).purged before ++ r.purged after ∧
    (∀ call, q.record.results call = r.record.results call) ∧
    q.record = r.record.unrefused ∧
    q.broker.outstanding = r.broker.outstanding ∧
    (∀ e : Event, e.foreign r.broker = false →
      r.purged (e :: after) = e :: (r.step e).purged after ∧
        (q.step e).record = (r.step e).record.unrefused) ∧
    ∀ session a wall, r.broker.owns session a.commandId = false →
      r.purged (.ack session a wall :: after) = (r.step (.ack session a wall)).purged after ∧
        r.step (.ack session a wall) = r.note (.acked session a wall (.error
          (if r.broker.pending.has a.commandId then .sessionMismatch a.commandId
            else .unknownCommand a.commandId))) := by
  intro r q
  have same : q = r.unrefused := Run.foldl_purged (.start b) before
  refine ⟨Run.purged_append _ _ _, ?_, ?_, ?_, ?_, ?_⟩
  · intro call
    rw [same]
    exact r.record.results_unrefused call
  · rw [same]
    rfl
  · rw [same]
    rfl
  · intro e he
    rw [same, ← r.unrefused_step e he]
    exact ⟨r.purged_cons_own after he, rfl⟩
  · intro session a wall ho
    refine ⟨r.purged_cons_foreign after ?_, r.step_foreign wall ho⟩
    simp [Event.foreign, ho]

/-- One command, a stranger's acknowledgement before it is answered and one that comes too late. -/
example :
    (Run.start (.empty 7)).purged [.call sampleOrder true sampleWall, .pushed 0 true,
      .ack "s2" sampleAck sampleWall, .ack "s1" sampleAck sampleWall, .deliver 0,
      .ack "s1" sampleAck sampleWall, .poll 0] =
    [.call sampleOrder true sampleWall, .pushed 0 true, .ack "s1" sampleAck sampleWall, .deliver 0,
      .poll 0] := by decide +kernel

end EditorBridge.Broker
