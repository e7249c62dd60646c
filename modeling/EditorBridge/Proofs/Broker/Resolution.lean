import EditorBridge.Proofs.Broker.Course
import EditorBridge.Proofs.Broker.Ids
/-!
# What becomes of a command

An acknowledgement, the end of the time, the end of the push and the going of
the caller race for one entry. A command whose push succeeded ends once, with
the one acknowledgement that was accepted for it or, at its deadline, without
any. A command whose push failed ends there and then, and does not ask whether
an acknowledgement was accepted in the meantime: its outcome is in keeping with
the acknowledgements exactly if none was.
-/

namespace EditorBridge.Broker

variable {o : Order} {limit : Nanos} {v v' : Course}

/-! ## The stages of a command -/

/-- Where the answer is while the call is in progress, by what lies in its mailbox: it can still
come, it has been accepted, or it has arrived. -/
inductive Answer (o : Order) (v : Course) : Mailbox → Prop
  | awaited {p : Pending} : v.entry = some p → p.session = o.session → v.coming = none →
      v.accepted = [] → Answer o v .empty
  | coming {x : Claimed} : v.entry = none → v.coming = some x → x.session = o.session →
      v.accepted = [] → Answer o v .empty
  | arrived {x : Claimed} : v.entry = none → v.coming = none → v.accepted = [x] →
      x.session = o.session → Answer o v (.delivered (x.ack.stamped x.wall))

theorem Answer.congr {m : Mailbox} (h : Answer o v m) (he : v'.entry = v.entry)
    (hx : v'.coming = v.coming) (ha : v'.accepted = v.accepted) : Answer o v' m := by
  cases h with
  | awaited hp hs hx' ha' => exact .awaited (he.trans hp) hs (hx.trans hx') (ha.trans ha')
  | coming hp hx' hs ha' => exact .coming (he.trans hp) (hx.trans hx') hs (ha.trans ha')
  | arrived hp hx' ha' hs => exact .arrived (he.trans hp) (hx.trans hx') (ha.trans ha') hs

/-- The call of a command is in progress. -/
structure Open (o : Order) (limit : Nanos) (v : Course) (c : Call) : Prop where
  call : v.call = some c
  session : c.session = o.session
  timeout : c.timeout = limit
  answer : Answer o v c.mailbox
  results : v.results = []
  abandoned : v.abandoned = false

/-- The call of a command is over, and its entry is gone. -/
structure Closed (v : Course) : Prop where
  call : v.call = none
  entry : v.entry = none

/-- How far a command has got. -/
inductive Stage (o : Order) (limit : Nanos) (v : Course) : Prop
  | pushing {c : Call} : Open o limit v c → c.phase = .pushing → v.pushes = [] → Stage o limit v
  | awaiting {c : Call} {t : Nanos} : Open o limit v c → c.phase = .awaiting (t + limit) →
      v.pushes = [(t, true)] → Stage o limit v
  | answered {t u : Nanos} {x : Claimed} : Closed v → v.coming = none → v.pushes = [(t, true)] →
      v.accepted = [x] → x.session = o.session →
      v.results = [(u, .ok (x.ack.stamped x.wall))] → Stage o limit v
  | expired {t u : Nanos} : Closed v → v.coming = none → v.pushes = [(t, true)] →
      v.accepted = [] → t + limit ≤ u → v.results = [(u, .error (.ackTimeout limit))] →
      Stage o limit v
  | failed {t : Nanos} : Closed v → v.pushes = [(t, false)] →
      v.results = [(t, .error (.transportUnavailable o.session))] → Stage o limit v
  | abandoned : Closed v → v.abandoned = true → v.results = [] → Stage o limit v

/-- Taking the entry of a command in progress sets its answer on the way. -/
theorem Open.claimed {c : Call} (h : Open o limit v c) {p : Pending} {x : Claimed}
    (hp : v.entry = some p) (hx : x.session = p.session) :
    Open o limit { v with entry := none, coming := some x } c := by
  obtain ⟨hc, hs, ht, ha, hr, hb⟩ := h
  generalize hm : c.mailbox = m at ha
  cases ha with
  | awaited hp' hps hx' hacc =>
    have hsession : x.session = o.session := by
      cases hp.symm.trans hp'
      exact hx.trans hps
    exact ⟨hc, hs, ht, hm ▸ .coming rfl rfl hsession hacc, hr, hb⟩
  | coming hp' => cases hp.symm.trans hp'
  | arrived hp' => cases hp.symm.trans hp'

/-- The arrival of the answer puts it where the call will look. -/
theorem Open.arrived {c : Call} (h : Open o limit v c) {x : Claimed} (hx : v.coming = some x) :
    Open o limit { v with
      call := v.call.map fun c => { c with mailbox := .delivered (x.ack.stamped x.wall) }
      coming := none
      accepted := v.accepted ++ [x] } { c with mailbox := .delivered (x.ack.stamped x.wall) } := by
  obtain ⟨hc, hs, ht, ha, hr, hb⟩ := h
  generalize c.mailbox = m at ha
  cases ha with
  | awaited _ _ hx' => cases hx.symm.trans hx'
  | coming hp hx' hxs hacc =>
    cases hx.symm.trans hx'
    exact ⟨by simp [hc], hs, ht, .arrived hp rfl (by simp [hacc]) hxs, hr, hb⟩
  | arrived _ hx' => cases hx.symm.trans hx'

/-- A call that looks after itself ends with the answer that arrived, or at its deadline with none. -/
theorem Open.ended {c : Call} (h : Open o limit v c) {t now : Nanos}
    (hp : c.phase = .awaiting (t + limit)) (hv : v.pushes = [(t, true)])
    {result : Except CommandError Ack} (he : Run.Ends c now v.entry result) :
    Stage o limit
      { v with call := none, entry := none, results := v.results ++ [(now, result)] } := by
  obtain ⟨hc, hs, ht, ha, hr, hb⟩ := h
  cases he with
  | answered _ hm =>
    rw [hm] at ha
    cases ha with
    | arrived _ hx hacc hxs =>
      exact .answered (u := now) ⟨rfl, rfl⟩ hx hv hacc hxs (by simp [hr])
  | lost _ hm =>
    rw [hm] at ha
    cases ha
  | expired hp' hm hd he =>
    rw [hm] at ha
    cases hp.symm.trans hp'
    cases ha with
    | awaited _ _ hx hacc => exact .expired ⟨rfl, rfl⟩ hx hv hacc hd (by simp [hr, ht])
    | coming he' => cases he.symm.trans he'

/-- Of a call that is over only the answer on its way can still move. -/
theorem Closed.step (h : Closed v) {now : Nanos} (hs : Course.Step now v v') :
    Closed v' ∧ v'.pushes = v.pushes ∧ v'.results = v.results ∧ v'.abandoned = v.abandoned ∧
      v.coming ≠ none := by
  obtain ⟨hc, he⟩ := h
  cases hs with
  | failed hc' => cases hc.symm.trans hc'
  | waits hc' => cases hc.symm.trans hc'
  | claimed he' => cases he.symm.trans he'
  | arrived hx => exact ⟨⟨by simp [hc], he⟩, rfl, rfl, rfl, by simp [hx]⟩
  | ended hc' => cases hc.symm.trans hc'
  | left hc' => cases hc.symm.trans hc'

theorem Stage.step {now : Nanos} (h : Stage o limit v) (hs : Course.Step now v v') :
    Stage o limit v' := by
  cases h with
  | @pushing c h hp hv =>
    cases hs with
    | failed hc' hp' =>
      cases h.call.symm.trans hc'
      exact .failed (t := now) ⟨rfl, rfl⟩ (by simp [hv]) (by simp [h.results, h.session])
    | waits hc' hp' =>
      cases h.call.symm.trans hc'
      exact .awaiting (t := now)
        ⟨rfl, h.session, h.timeout, h.answer.congr rfl rfl rfl, h.results, h.abandoned⟩
        (by simp [h.timeout]) (by simp [hv])
    | claimed he hx => exact .pushing (h.claimed he hx) hp hv
    | arrived hx => exact .pushing (h.arrived hx) hp hv
    | ended hc' he =>
      cases h.call.symm.trans hc'
      cases he with
      | answered hp' => cases hp.symm.trans hp'
      | lost hp' => cases hp.symm.trans hp'
      | expired hp' => cases hp.symm.trans hp'
    | left => exact .abandoned ⟨rfl, rfl⟩ rfl h.results
  | @awaiting c t h hp hv =>
    cases hs with
    | failed hc' hp' =>
      cases h.call.symm.trans hc'
      cases hp.symm.trans hp'
    | waits hc' hp' =>
      cases h.call.symm.trans hc'
      cases hp.symm.trans hp'
    | claimed he hx => exact .awaiting (h.claimed he hx) hp hv
    | arrived hx => exact .awaiting (h.arrived hx) hp hv
    | ended hc' he =>
      cases h.call.symm.trans hc'
      exact h.ended hp hv he
    | left => exact .abandoned ⟨rfl, rfl⟩ rfl h.results
  | answered h hx => exact absurd hx (h.step hs).2.2.2.2
  | expired h hx => exact absurd hx (h.step hs).2.2.2.2
  | failed h hv hr =>
    obtain ⟨h', hv', hr', -, -⟩ := h.step hs
    exact .failed h' (hv'.trans hv) (hr'.trans hr)
  | abandoned h hb hr =>
    obtain ⟨h', -, hr', hb', -⟩ := h.step hs
    exact .abandoned h' (hb'.trans hb) (hr'.trans hr)

/-! ## The stages in a run -/

namespace Run

variable {d : Nanos} {r r' : Run} {call : CallId} {id : String}

/-- A command with an id of its own begins in the first stage and stays within them. -/
theorem stage_step (h : r.Sound d) (hs : r.Stepped r')
    (hstage : ∀ o, r.record.Registered call id o → r.record.OwnId call id →
      Stage o (o.limit d) (r.course call id))
    (hr : r'.record.Registered call id o) (hi : r'.record.OwnId call id) :
    Stage o (o.limit d) (r'.course call id) := by
  have own := ownId_of_step hs hi
  by_cases hr₀ : r.record.Registered call id o
  · rcases course_step h hr₀ hi hs with he | hv
    · exact he ▸ hstage o hr₀ own
    · exact (hstage o hr₀ own).step hv
  · cases hs with
    | registered o' wall =>
      have hr' := hr
      simp only [registered_note, hr₀, Entry.registered.injEq, false_or] at hr'
      obtain ⟨rfl, hid, rfl⟩ := hr'
      have hn : ∀ other o', ¬ r.record.Registered other id o' := by
        intro other o' hr'
        have hlt := h.registered_lt hr'
        rw [own _ _ hr'] at hlt
        exact Nat.lt_irrefl _ hlt
      rw [hid, course_registered h wall hid.symm hn]
      exact .pushing ⟨rfl, rfl, rfl, .awaited rfl rfl rfl rfl, rfl, rfl⟩ rfl rfl
    | _ => exact absurd (by simpa using hr) hr₀

/-- Every command with an id of its own is in one of the stages. -/
theorem stage_run (d : Nanos) (events : List Event) :
    ∀ call id o, (run (.empty d) events).record.Registered call id o →
      (run (.empty d) events).record.OwnId call id →
      Stage o (o.limit d) ((run (.empty d) events).course call id) := by
  refine (run_induction (P := fun r => r.Sound d ∧ ∀ call id o, r.record.Registered call id o →
    r.record.OwnId call id → Stage o (o.limit d) (r.course call id)) _ ?_ ?_ events).2
  · exact ⟨.start d, fun call id o hr => by simp [Run.start, Record.Registered] at hr⟩
  · rintro r r' ⟨h, hstage⟩ hs
    exact ⟨sound_step h hs, fun call id o => stage_step h hs (hstage call id)⟩

/-- A call that can be looked after has its deadline ahead, if nothing is left to move. -/
theorem awaiting_early {c : Call} {t : Nanos} (h : Open o limit (r.course call id) c)
    (hid : c.commandId = id) (hp : c.phase = .awaiting (t + limit)) (hq : r.Quiet) :
    r.now < t + limit := by
  obtain ⟨hc, -, -, ha, -, -⟩ := h
  have hpoll := hq.2 call
  generalize hm : c.mailbox = m at ha
  cases ha with
  | awaited he =>
    by_contra hd
    have hd : t + limit ≤ r.now := Nat.le_of_not_lt hd
    replace hc : r.broker.calls.get? call = some c := hc
    replace he : r.broker.pending.get? id = some _ := he
    simp [poll, hc, hp, hm, hid, Table.has, he, hd] at hpoll
  | coming _ hx =>
    have hx : r.underway.get? call = some _ := hx
    simp [hq.1] at hx
  | arrived =>
    replace hc : r.broker.calls.get? call = some c := hc
    simp [poll, hc, hp, hm] at hpoll

theorem ownId_of_or {events : List Event}
    (hr : (run (.empty d) events).record.Registered call id o)
    (h : (run (.empty d) events).calls ≤ 2 ^ 64 ∨ (run (.empty d) events).record.OwnId call id) :
    (run (.empty d) events).record.OwnId call id := by
  rcases h with hc | h
  · have hlength := Nat.le_trans (issued_length_le (numbered_run d events)) hc
    exact ownId (numbered_run d events) hlength hr
  · exact h

end Run

/-! ## Pushes that succeed -/

/-- A command whose push succeeded, and whose caller stays, ends at most once: with the one
acknowledgement that was accepted for it, from the editor it went to, or at its deadline, and then
none was accepted. It waits no longer than that once whatever can move has moved. An id is a
command's own among the first 2^64 calls of a run at the least. -/
theorem pushed_resolves_once (d : Nanos) (events : List Event) (call : CallId) (id : String)
    (o : Order) (t : Nanos) :
    let r := run (.empty d) events
    r.record.Registered call id o → r.calls ≤ 2 ^ 64 ∨ r.record.OwnId call id →
    (t, true) ∈ r.record.pushes call → r.record.abandoned call = false →
    r.record.results call = [] ∧ (r.Quiet → r.now < t + o.limit d) ∨
    (∃ u x, r.record.results call =
        [(u, .ok { x.ack with ackedAt := some (x.ack.ackedAt.getD x.wall) })] ∧
      r.record.accepted id = [x] ∧ x.session = o.session) ∨
    ∃ u, t + o.limit d ≤ u ∧ r.record.results call = [(u, .error (.ackTimeout (o.limit d)))] ∧
      r.record.accepted id = [] := by
  intro r hr hown hpush hstays
  have own : r.record.OwnId call id := Run.ownId_of_or hr hown
  cases Run.stage_run d events call id o hr own with
  | pushing _ _ hv =>
    have hv : r.record.pushes call = [] := hv
    simp [hv] at hpush
  | @awaiting c t' h hp hv =>
    have hv : r.record.pushes call = [(t', true)] := hv
    simp only [hv, List.mem_singleton, Prod.mk.injEq, and_true] at hpush
    subst hpush
    have sound := Run.sound_run d events
    obtain ⟨o', hr'⟩ := sound.call h.call
    have hid : c.commandId = id := (sound.unique hr hr').1
    exact .inl ⟨h.results, Run.awaiting_early h hid hp⟩
  | answered _ _ _ ha hs hres => exact .inr (.inl ⟨_, _, hres, ha, hs⟩)
  | @expired t' u _ _ hv ha hd hres =>
    have hv : r.record.pushes call = [(t', true)] := hv
    simp only [hv, List.mem_singleton, Prod.mk.injEq, and_true] at hpush
    subst hpush
    exact .inr (.inr ⟨u, hd, hres, ha⟩)
  | failed _ hv =>
    have hv : r.record.pushes call = [(_, false)] := hv
    simp [hv] at hpush
  | abandoned _ hb => cases hb.symm.trans hstays

/-! An acknowledgement of the wrong session, and one that takes the entry before the deadline and
arrives after it: the call does not end before. -/

/-- A command that the examples give out first. -/
def sampleOrder : Order := ⟨"s1", "run-project", .obj [], 2⟩

/-- A reading of the wall clock. -/
def sampleWall : Timestamp := ⟨0, 5⟩

/-- The acknowledgement of the first command. -/
def sampleAck : Ack := ⟨commandId sampleWall 1, true, none, none, none⟩

/-- A race that the acknowledgement wins. -/
def lateAck : List Event :=
  [.call sampleOrder true sampleWall, .pushed 0 true, .ack "s2" sampleAck sampleWall, .advance 1,
    .ack "s1" sampleAck sampleWall, .advance 1, .poll 0, .deliver 0, .poll 0]

theorem pushed_resolves_once_lateAck :
    let r := run (.empty 7) lateAck
    r.record.Registered 0 (commandId sampleWall 1) sampleOrder ∧ (0, true) ∈ r.record.pushes 0 ∧
    r.record.abandoned 0 = false ∧
    (r.record.results 0 = [] ∧ (r.Quiet → r.now < 0 + sampleOrder.limit 7) ∨
      (∃ u x, r.record.results 0 =
          [(u, .ok { x.ack with ackedAt := some (x.ack.ackedAt.getD x.wall) })] ∧
        r.record.accepted (commandId sampleWall 1) = [x] ∧ x.session = "s1") ∨
      ∃ u, 0 + sampleOrder.limit 7 ≤ u ∧
        r.record.results 0 = [(u, .error (.ackTimeout (sampleOrder.limit 7)))] ∧
        r.record.accepted (commandId sampleWall 1) = []) := by
  have registered : (run (.empty 7) lateAck).record.Registered 0 (commandId sampleWall 1)
      sampleOrder := ⟨0, .head _⟩
  refine ⟨registered, .head _, rfl, ?_⟩
  exact pushed_resolves_once 7 lateAck 0 _ sampleOrder 0 registered (.inl (by decide)) (.head _) rfl

/-! ## Pushes that fail -/

/-- The outcome of a command is in keeping with its acknowledgements: one that was accepted before
the push failed is the answer, and the editor is reported out of reach only if none ever was. -/
def Record.KeepsAcks (l : Record) (call : CallId) (id : String) : Prop :=
  (∀ before after t, l = before ++ (t, .pushed call false) :: after →
    ∀ x ∈ Record.accepted before id, ∃ u,
      (u, .ok { x.ack with ackedAt := some (x.ack.ackedAt.getD x.wall) }) ∈ l.results call) ∧
  ∀ u s, (u, .error (.transportUnavailable s)) ∈ l.results call → l.accepted id = []

/-- A command whose push failed ends in that moment as out of reach, whoever has taken its entry. So
the outcome is in keeping with the acknowledgements exactly if none was accepted. -/
theorem failed_push_keepsAcks_iff (d : Nanos) (events : List Event) (call : CallId) (id : String)
    (o : Order) (t : Nanos) :
    let r := run (.empty d) events
    r.record.Registered call id o → r.calls ≤ 2 ^ 64 ∨ r.record.OwnId call id →
    (t, false) ∈ r.record.pushes call → r.record.abandoned call = false →
    r.record.results call = [(t, .error (.transportUnavailable o.session))] ∧
      (r.record.KeepsAcks call id ↔ r.record.accepted id = []) := by
  intro r hr hown hpush hstays
  have own : r.record.OwnId call id := Run.ownId_of_or hr hown
  have hres : r.record.results call = [(t, .error (.transportUnavailable o.session))] := by
    cases Run.stage_run d events call id o hr own with
    | pushing _ _ hv =>
      have hv : r.record.pushes call = [] := hv
      simp [hv] at hpush
    | awaiting _ _ hv | answered _ _ hv | expired _ _ hv =>
      have hv : r.record.pushes call = [(_, true)] := hv
      simp [hv] at hpush
    | @failed t' _ hv hres =>
      have hv : r.record.pushes call = [(t', false)] := hv
      simp only [hv, List.mem_singleton, Prod.mk.injEq, and_true] at hpush
      exact hpush ▸ hres
    | abandoned _ hb => cases hb.symm.trans hstays
  refine ⟨hres, fun h => h.2 t o.session (by simp [hres]), fun h => ⟨?_, fun _ _ _ => h⟩⟩
  intro before after t' hl x hx
  have hx : x ∈ r.record.accepted id := by
    rw [hl, Record.accepted, List.filterMap_append]
    exact List.mem_append_left _ hx
  simp [h] at hx

theorem failed_push_keepsAcks_iff_unacknowledged :
    let r := run (.empty 7) [.call sampleOrder true sampleWall, .pushed 0 false]
    r.record.Registered 0 (commandId sampleWall 1) sampleOrder ∧ (0, false) ∈ r.record.pushes 0 ∧
    r.record.abandoned 0 = false ∧
    r.record.results 0 = [(0, .error (.transportUnavailable "s1"))] ∧
    (r.record.KeepsAcks 0 (commandId sampleWall 1) ↔
      r.record.accepted (commandId sampleWall 1) = []) := by
  have registered : (run (.empty 7) [.call sampleOrder true sampleWall,
      .pushed 0 false]).record.Registered 0 (commandId sampleWall 1) sampleOrder := ⟨0, .head _⟩
  refine ⟨registered, .head _, rfl, ?_⟩
  exact failed_push_keepsAcks_iff 7 _ 0 _ sampleOrder 0 registered (.inl (by decide)) (.head _) rfl

/-- An acknowledgement that is accepted while the push is under way is lost if the push then
fails. -/
theorem ack_lost_by_failed_push :
    let r := run (.empty 7) [.call sampleOrder true sampleWall, .ack "s1" sampleAck sampleWall,
      .deliver 0, .pushed 0 false]
    r.record.Registered 0 (commandId sampleWall 1) sampleOrder ∧ (0, false) ∈ r.record.pushes 0 ∧
    r.record.abandoned 0 = false ∧
    r.record.accepted (commandId sampleWall 1) = [⟨"s1", sampleAck, sampleWall⟩] ∧
    r.record.results 0 = [(0, .error (.transportUnavailable "s1"))] ∧
    ¬ r.record.KeepsAcks 0 (commandId sampleWall 1) := by
  refine ⟨⟨0, .head _⟩, .head _, rfl, rfl, rfl, fun h => ?_⟩
  have := h.2 0 "s1" (.head _)
  cases this

end EditorBridge.Broker
