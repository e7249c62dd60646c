import EditorBridge.Proofs.Broker.Resolution
import EditorBridge.Proofs.Table
/-!
# Commands that do not collide

An id is given out once, whatever the clock says, as long as the numbers last. So
a new entry stands behind those that are pending and takes the place of none,
and nobody who waits for an answer loses it to another command: no mailbox is
ever told that its answer is lost, and no call ends in a command that is
unknown.
-/

namespace EditorBridge.Broker

namespace Run

variable {d : Nanos} {r r' : Run} {call : CallId} {id : String} {o : Order} {wall : Timestamp}

/-- The id that the next command gets. -/
def nextId (r : Run) (wall : Timestamp) : String := commandId wall (r.broker.sequence + 1)

/-- A command has come under an id that nobody had before. Its entry stands behind those that were
pending, and the calls in progress are left as they were. -/
structure Joins (r : Run) (o : Order) (wall : Timestamp) (r' : Run) : Prop where
  issued : r'.record.issued = r.record.issued ++ [r.nextId wall]
  fresh : r.nextId wall ∉ r.record.issued
  vacant : r.broker.pending.get? (r.nextId wall) = none
  pending : r'.broker.pending = r.broker.pending ++ [(r.nextId wall, ⟨o.session, o.command, r.calls⟩)]
  calls : ∀ {call c}, r.broker.calls.get? call = some c → r'.broker.calls.get? call = some c

/-! ## What was given out stays so -/

theorem record_step (hs : r.Stepped r') : r.record <+: r'.record := by
  cases hs with
  | nothing | claimed | advanced => exact List.prefix_rfl
  | failed => exact (List.prefix_append ..).trans (List.prefix_append ..)
  | _ => exact List.prefix_append ..

theorem issued_foldl (r : Run) (events : List Event) :
    r.record.issued <+: (events.foldl step r).record.issued := by
  induction events generalizing r with
  | nil => exact List.prefix_rfl
  | cons e events ih => exact ((record_step (r.step_cases e)).filterMap _).trans (ih (r.step e))

/-! ## A new command -/

theorem Sound.issued_of_pending (h : r.Sound d) {p : Pending}
    (hp : r.broker.pending.get? id = some p) : id ∈ r.record.issued :=
  let ⟨o, hr⟩ := h.entry hp
  Record.mem_issued.2 ⟨_, o, hr⟩

/-- Registering under an id at which nothing is pending adds an entry and does nothing else. -/
theorem register_of_vacant {b : Broker} (p : Pending) (h : b.pending.get? id = none) :
    b.register id p = { b with pending := b.pending ++ [(id, p)] } := by
  rw [register, Table.set_of_get?_none p h]
  simp [discard, h]

/-- A command whose id nobody had joins those that are there. -/
theorem joins_registered (h : r.Sound d) (hfresh : r.nextId wall ∉ r.record.issued) :
    r.Joins o wall ({ r with
      broker := r.broker.enroll r.calls o wall
      calls := r.calls + 1 }.note (.registered r.calls (r.nextId wall) o)) := by
  have vacant : r.broker.pending.get? (r.nextId wall) = none :=
    Option.eq_none_iff_forall_ne_some.2 fun _ hp => hfresh (h.issued_of_pending hp)
  have added := register_of_vacant (b := { r.broker with sequence := r.broker.sequence + 1 })
    ⟨o.session, o.command, r.calls⟩ vacant
  refine ⟨?_, hfresh, vacant, ?_, fun {call c} hc => ?_⟩
  · exact List.filterMap_append
  · simp only [broker_note, enroll]
    exact congrArg (·.pending) added
  · have hne : call ≠ r.calls := Nat.ne_of_lt (h.call_lt hc)
    refine (calls_enroll hne fun p hp => ?_).trans hc
    cases vacant.symm.trans hp

/-- A call is refused, and that is all, or it joins the others, if its id is new. -/
theorem call_joins (h : r.Sound d) (o : Order) (reachable : Bool) (wall : Timestamp)
    (hn : (r.step (.call o reachable wall)).record.issued.Nodup) :
    (∃ e, r.step (.call o reachable wall) =
        { r with calls := r.calls + 1 }.note (.ended r.calls (.error e))) ∨
      r.Joins o wall (r.step (.call o reachable wall)) := by
  rcases start_cases r.broker r.calls o reachable wall with ⟨e, he⟩ | ⟨-, he⟩
  · exact .inl ⟨e, by simp [step, he]⟩
  · refine .inr ?_
    simp only [step, he] at hn ⊢
    refine joins_registered h fun hm => ?_
    rw [record_note, Record.issued, List.filterMap_append] at hn
    exact (List.nodup_append.1 hn).2.2 _ hm _ List.mem_cons_self rfl

/-! ## Nobody loses an answer -/

/-- An end in the record was there before or is what is noted. -/
theorem of_mem_results_note {e : Entry} {x : Nanos × Except CommandError Ack}
    (hx : x ∈ (r.note e).record.results call) : x ∈ r.record.results call ∨ e = .ended call x.2 := by
  rw [results_note] at hx
  refine (List.mem_append.1 hx).imp_right fun hx => ?_
  cases e with
  | ended c result =>
    obtain ⟨rfl, hmem⟩ := List.mem_ite_nil_right.1 hx
    rw [List.mem_singleton.1 hmem]
  | _ => cases hx

/-- How a call ends that never got as far as an id, and one whose push failed. -/
def Unsent (result : Except CommandError Ack) : Prop :=
  result = .error .invalidRequest ∨ ∃ s, result = .error (.transportUnavailable s)

/-- A call that was never registered was refused. -/
theorem unsent_of_unregistered (d : Nanos) (events : List Event) :
    ∀ call, (∀ id o, ¬ (run (.empty d) events).record.Registered call id o) →
      ∀ x ∈ (run (.empty d) events).record.results call, Unsent x.2 := by
  refine (run_induction (P := fun r => r.Sound d ∧ ∀ call,
    (∀ id o, ¬ r.record.Registered call id o) → ∀ x ∈ r.record.results call, Unsent x.2)
    _ ?_ ?_ events).2
  · exact ⟨.start d, fun _ _ _ hx => nomatch hx⟩
  · rintro r r' ⟨h, hunsent⟩ hs
    refine ⟨sound_step h hs, fun call hn x hx => ?_⟩
    have before := hunsent call fun id o hr => hn id o (registered_step hs hr)
    cases hs with
    | nothing | claimed | advanced => exact before x hx
    | refused e he =>
      rcases of_mem_results_note hx with hx | hx
      · exact before x hx
      · obtain ⟨-, hx⟩ := Entry.ended.inj hx
        rw [← hx]
        exact he.imp (congrArg _) fun ⟨s, hs⟩ => ⟨s, congrArg _ hs⟩
    | @failed other c hc =>
      rcases of_mem_results_note hx with hx | hx
      · exact before x ((of_mem_results_note hx).resolve_right nofun)
      · exact .inr ⟨c.session, (Entry.ended.inj hx).2.symm⟩
    | @ended other c result hc =>
      rcases of_mem_results_note hx with hx | hx
      · exact before x hx
      · obtain ⟨rfl, -⟩ := Entry.ended.inj hx
        obtain ⟨o, hr⟩ := h.call hc
        exact absurd ((registered_note ..).2 (.inl hr)) (hn c.commandId o)
    | _ => exact before x ((of_mem_results_note hx).resolve_right nofun)

end Run

/-- Nothing is lost of a command: neither its answer nor the command itself. -/
structure Course.Whole (v : Course) : Prop where
  mail : ∀ {c}, v.call = some c → c.mailbox ≠ .lost
  ends : ∀ x ∈ v.results, ∀ id, x.2 ≠ .error (.unknownCommand id)

theorem Open.whole {o : Order} {limit : Nanos} {v : Course} {c : Call} (h : Open o limit v c) :
    v.Whole where
  mail {c'} hc' hlost := by
    cases h.call.symm.trans hc'
    have answer := h.answer
    rw [hlost] at answer
    cases answer
  ends := by simp [h.results]

/-- A command whose id is its own stays whole. -/
theorem Stage.whole {o : Order} {limit : Nanos} {v : Course} (h : Stage o limit v) : v.Whole := by
  cases h with
  | pushing h | awaiting h => exact h.whole
  | answered h _ _ _ _ hres | expired h _ _ _ _ hres | failed h _ hres | abandoned h _ hres =>
    exact ⟨by simp [h.call], by simp [hres]⟩

/-- Among the commands of a run no two have the same id, whatever the clock says, as long as no more
than 2^64 were given out. So whoever comes is refused or joins the commands that are there, none of
which is replaced; no call is told that its answer is lost, and none ends in an unknown command. -/
theorem ids_distinct (d : Nanos) (events : List Event) :
    let r := run (.empty d) events
    r.record.issued.length ≤ 2 ^ 64 →
    r.record.issued.Nodup ∧
    (∀ before o reachable wall after, events = before ++ .call o reachable wall :: after →
      let now := run (.empty d) before
      let next := now.step (.call o reachable wall)
      (∃ e, next = { now with calls := now.calls + 1 }.note (.ended now.calls (.error e))) ∨
        now.Joins o wall next) ∧
    (∀ call c, r.broker.calls.get? call = some c → c.mailbox ≠ .lost) ∧
    ∀ t call id, (t, .ended call (.error (.unknownCommand id))) ∉ r.record := by
  intro r hlength
  have sound : r.Sound d := Run.sound_run d events
  have numbered : r.Numbered := Run.numbered_run d events
  have nodup : r.record.issued.Nodup := Run.nodup_issued numbered hlength
  have whole {call id o} (hr : r.record.Registered call id o) : (r.course call id).Whole :=
    (Run.stage_run d events call id o hr (Run.ownId numbered hlength hr)).whole
  refine ⟨nodup, ?_, ?_, ?_⟩
  · rintro before o reachable wall after rfl
    refine Run.call_joins (Run.sound_run d before) o reachable wall ?_
    have grown := Run.issued_foldl ((run (.empty d) before).step (.call o reachable wall)) after
    refine grown.sublist.nodup ?_
    simpa [r, run] using nodup
  · intro call c hc
    obtain ⟨o, hr⟩ := sound.call hc
    exact (whole hr).mail hc
  · intro t call id hm
    have hx : (t, .error (.unknownCommand id)) ∈ r.record.results call :=
      List.mem_filterMap.2 ⟨_, hm, if_pos rfl⟩
    by_cases hr : ∃ id o, r.record.Registered call id o
    · obtain ⟨id', o, hr⟩ := hr
      exact (whole hr).ends _ hx id rfl
    · simp only [not_exists] at hr
      rcases Run.unsent_of_unregistered d events call hr _ hx with he | ⟨s, he⟩ <;> cases he

/-- Clocks that stand still, go back before the epoch, and are out of range. -/
theorem ids_distinct_clocks :
    let r := run (.empty 7) [.call sampleOrder true ⟨0, 5⟩, .call sampleOrder true ⟨0, 5⟩,
      .call sampleOrder true ⟨-1, 5⟩, .call sampleOrder true ⟨9223372037, 0⟩]
    r.record.issued.length ≤ 2 ^ 64 ∧
    r.record.issued = ["cmd-5-1", "cmd-5-2", "cmd--999999995-3", "cmd-0-4"] ∧
    r.record.issued.Nodup := by
  intro r
  have issued : r.record.issued = ["cmd-5-1", "cmd-5-2", "cmd--999999995-3", "cmd-0-4"] := by
    decide +kernel
  have hlength : r.record.issued.length ≤ 2 ^ 64 := by rw [issued]; decide
  exact ⟨hlength, issued, (ids_distinct 7 _ hlength).1⟩

end EditorBridge.Broker
