import EditorBridge.Proofs.Hub.Effect
import EditorBridge.Proofs.Hub.Removal
import Mathlib.Data.List.Induction
/-!
# The terms of a session

A session begins with a handshake, which fixes its version, and is initialized
when its client says so. A handshake that names a live session only fixes its
version anew. All else that happens leaves these terms alone: `quiet_act` goes
through it once, and what a session is can then be told by the handshakes and
the confirmations of the schedule.
-/

namespace EditorBridge

open Http (Request Response sessionHeader)

/-- The terms of a session are the same. -/
structure Session.Kept (x x' : Session) : Prop where
  createdAt : x'.createdAt = x.createdAt
  version : x'.version = x.version
  initialized : x'.initialized = x.initialized

/-- The session and the version that the answer to a handshake names. -/
def Answer.offer? : Answer → Option (String × String)
  | .response ⟨200, _, _, some session, .json j⟩ => do
    let result ← j.get? "result"
    let version ← result.get? "protocolVersion"
    return (session, ← version.str?)
  | _ => none

namespace Hub

/-! ## What was offered -/

/-- The sessions and versions that were offered, with the numbers of the requests. -/
def offers (h : Hub) : List (TaskId × String × String) :=
  h.answers.filterMap fun (k, a) => a.offer?.map fun offer => (k, offer)

/-- The last offer to a session: the number of the request, and the version. -/
def lastOffer (h : Hub) (s : String) : Option (TaskId × String) :=
  ((h.offers.filter (·.2.1 = s)).getLast?).map fun (k, _, version) => (k, version)

theorem offer?_of_session {a : Response} (ha : a.session = none) :
    (Answer.response a).offer? = none := by
  unfold Answer.offer?
  split
  · next he =>
    cases he
    cases ha
  · rfl

theorem offer?_toolAnswer (reply : ToolReply) (r : Except ToolError Tool.Result) :
    (toolAnswer reply r).offer? = none := by
  cases reply <;> rfl

theorem offer?_commandAnswer (reply : CommandReply) (r : Except CommandError Broker.Ack) :
    (commandAnswer reply r).offer? = none := by
  cases reply with
  | ack => rfl
  | tool command reply => exact offer?_toolAnswer reply _

theorem offers_append {h h' : Hub} {k : TaskId} {a : Answer}
    (hanswers : h'.answers = h.answers ++ [(k, a)]) :
    h'.offers = h.offers ++ (a.offer?.map fun offer => (k, offer)).toList := by
  rw [offers, hanswers, List.filterMap_append]
  cases ha : a.offer? <;> simp [offers, ha]

theorem offers_answered (h : Hub) (a : Answer) : (h.answered a).2.offers =
    h.offers ++ (a.offer?.map fun offer => (h.nextTask, offer)).toList := offers_append rfl

theorem lastOffer_of_offers {h h' : Hub} (ho : h'.offers = h.offers) (s : String) :
    h'.lastOffer s = h.lastOffer s := by
  rw [lastOffer, lastOffer, ho]

theorem lastOffer_self {h h' : Hub} {k : TaskId} {s version : String}
    (ho : h'.offers = h.offers ++ [(k, s, version)]) : h'.lastOffer s = some (k, version) := by
  simp [lastOffer, ho]

theorem lastOffer_of_ne {h h' : Hub} {k : TaskId} {s t version : String}
    (ho : h'.offers = h.offers ++ [(k, s, version)]) (hne : s ≠ t) :
    h'.lastOffer t = h.lastOffer t := by
  simp [lastOffer, ho, hne]

/-! ## What leaves the terms alone -/

/-- Nothing was offered, no session has come, and those that are still there have their terms. -/
structure Quiet (h h' : Hub) : Prop where
  offers : h'.offers = h.offers
  kept : ∀ {s x'}, h'.sessions.get? s = some x' → ∃ x, h.sessions.get? s = some x ∧ x.Kept x'

namespace Quiet

variable {h h' h'' : Hub}

theorem same (ho : h'.offers = h.offers) (hs : h'.sessions = h.sessions) : Quiet h h' :=
  ⟨ho, fun {_ x'} hx => ⟨x', hs ▸ hx, rfl, rfl, rfl⟩⟩

theorem refl (h : Hub) : Quiet h h := .same rfl rfl

theorem trans (hq : Quiet h h') (hq' : Quiet h' h'') : Quiet h h'' where
  offers := hq'.offers.trans hq.offers
  kept hx := by
    obtain ⟨x', hx', hk'⟩ := hq'.kept hx
    obtain ⟨x, hx, hk⟩ := hq.kept hx'
    exact ⟨x, hx, hk'.createdAt.trans hk.createdAt, hk'.version.trans hk.version,
      hk'.initialized.trans hk.initialized⟩

/-- One session is another one now, with the same terms. -/
theorem set {s : String} {x y : Session} (ho : h'.offers = h.offers)
    (hs : h'.sessions = h.sessions.set s y) (hx : h.sessions.get? s = some x) (hk : x.Kept y) :
    Quiet h h' := by
  refine ⟨ho, fun {t z} hz => ?_⟩
  rcases Table.of_get?_set (hs ▸ hz) with ⟨rfl, rfl⟩ | ⟨-, hold⟩
  · exact ⟨x, hx, hk⟩
  · exact ⟨z, hold, rfl, rfl, rfl⟩

/-- A task ends, and its answer offers nothing. -/
theorem finish (b : Broker) (id : TaskId) {a : Answer} (ha : a.offer? = none) :
    Quiet h ({ h with broker := b }.finish id a) := by
  have ended : ({ h with broker := b }.finish id a).answers = h.answers ++ [(id, a)] := rfl
  refine same ?_ rfl
  rw [offers_append ended, ha]
  exact List.append_nil _

theorem answered {a : Answer} (ha : a.offer? = none) : Quiet h (h.answered a).2 := by
  refine same ?_ rfl
  rw [offers_answered, ha]
  exact List.append_nil _

end Quiet

section Tasks

variable (h : Hub)

theorem quiet_endSession (s : String) : Quiet h (h.endSession s).2 := by
  cases hs : h.sessions.get? s with
  | none =>
    rw [endSession_of_none hs]
    exact .refl h
  | some x =>
    rw [endSession_eq hs]
    exact ⟨rfl, fun {t y} hy => ⟨y, (Table.of_get?_erase hy).2, rfl, rfl, rfl⟩⟩

theorem quiet_endLoop (id : TaskId) (t : TransportId) : Quiet h (h.endLoop id t) := by
  rw [endLoop_eq]
  generalize ((h.transport? t).map (·.session)).getD "" = s
  unfold Sessions.clearTransport
  split_ifs with hbound
  · obtain ⟨x, hx, -⟩ := Option.bind_eq_some_iff.1 hbound
    have cleared : (h.sessions.update s fun x => { x with transport := none }).2 =
        h.sessions.set s { x with transport := none } := by
      simp [Sessions.update, Table.modify, hx]
    exact .set rfl cleared hx ⟨rfl, rfl, rfl⟩
  · exact .same rfl rfl

theorem quiet_deliver (id : TaskId) (r : Transport.WriteResult) : Quiet h (h.deliver id r) := by
  unfold deliver
  split
  · exact .finish h.broker id rfl
  · exact .finish h.broker id rfl
  · next reply _ =>
    dsimp only
    split
    · exact .finish _ id (offer?_commandAnswer reply _)
    · exact .same rfl rfl
  · dsimp only
    split_ifs <;> exact .same rfl rfl
  · split
    · exact .same rfl rfl
    · exact quiet_endLoop h id _
  · exact .refl h

theorem quiet_deliverAll (es : Transport.Endings) : Quiet h (h.deliverAll es) := by
  induction es generalizing h with
  | nil => exact .refl h
  | cons e es ih => exact (quiet_deliver h e.1 e.2).trans (ih (h.deliver e.1 e.2))

theorem quiet_settleTransport (t : TransportId) (state : Transport) :
    Quiet h (h.settleTransport t state) :=
  have moved : Quiet h (h.putTransport t (state.settle h.now).1) := .same rfl rfl
  moved.trans (quiet_deliverAll ..)

theorem quiet_writeTo (id : TaskId) (t : TransportId) (frame : String) :
    Quiet h (h.writeTo id t frame) := by
  unfold writeTo
  split
  · next state _ =>
    have moved : Quiet h (h.putTransport t (state.write h.now id frame).1) := .same rfl rfl
    exact moved.trans (quiet_deliverAll ..)
  · exact quiet_deliver h id _

theorem quiet_sweep (timeout : Nanos) : Quiet h (h.sweep timeout).2 := by
  unfold sweep
  generalize h.sessions.idle timeout h.now = idle
  induction idle generalizing h with
  | nil => exact .refl h
  | cons s idle ih => exact (quiet_endSession h s).trans (ih (h.endSession s).2)

theorem quiet_poll {h' : Hub} {id : TaskId} {task : Task} (hm : h.poll? id task = some h') :
    Quiet h h' := by
  cases task with
  | write | push => cases hm
  | closed t =>
    obtain ⟨-, hm⟩ := Option.ite_none_right_eq_some.1 hm
    cases hm
    exact .finish h.broker id rfl
  | disconnected t =>
    obtain ⟨-, hm⟩ := Option.ite_none_left_eq_some.1 hm
    cases hm
    exact .finish h.broker id rfl
  | command reply =>
    simp only [poll?] at hm
    split at hm
    · cases hm
      exact .finish _ id (offer?_commandAnswer reply _)
    · cases hm
  | pushLoop t phase =>
    cases phase with
    | greeting | beating => cases hm
    | resting next =>
      simp only [poll?] at hm
      split_ifs at hm
      · cases hm
        exact quiet_endLoop h id t
      · cases hm
        let beating := Task.pushLoop t (.beating (next + h.config.keepaliveInterval))
        have begun : Quiet h { h with tasks := h.tasks.set id beating } := .same rfl rfl
        exact begun.trans (quiet_writeTo ..)
  | sweeper timeout interval next =>
    obtain ⟨-, hm⟩ := Option.ite_none_right_eq_some.1 hm
    cases hm
    exact (quiet_sweep h timeout).trans (.same rfl rfl)

theorem quiet_move {m : Mover} {h' : Hub} (hp : h.path = .streams) (hm : h.move? m = some h') :
    Quiet h h' := by
  cases m with
  | transport t =>
    obtain ⟨state, -, hs⟩ := Option.bind_eq_some_iff.1 hm
    obtain ⟨-, hs⟩ := Option.ite_none_right_eq_some.1 hs
    cases hs
    exact quiet_settleTransport h t state
  | loopback => simp [move?, arrival?, hp] at hm
  | task id =>
    obtain ⟨task, -, hs⟩ := Option.bind_eq_some_iff.1 hm
    exact quiet_poll h hs

theorem quiet_dropReader (t : TransportId) : Quiet h (h.dropReader t).2 := by
  unfold dropReader
  split
  · exact .same rfl rfl
  · exact .refl h

theorem quiet_readStream (t : TransportId) : Quiet h (h.readStream t).2.2 := by
  unfold readStream
  split_ifs
  · exact quiet_dropReader h t
  · cases ht : h.transport? t with
    | none => exact .refl h
    | some state =>
      simp only [read, ht]
      exact .same rfl rfl

theorem quiet_abandon (id : TaskId) : Quiet h (h.abandon id).2 := by
  unfold abandon
  split_ifs
  · exact .same rfl rfl
  · exact .refl h

theorem quiet_dispatch (hp : h.path = .streams) (reply : CommandReply) (o : Broker.Order) :
    Quiet h (h.dispatch reply o).2 := by
  rcases dispatch_eq hp reply o with ⟨e, he⟩ | ⟨t, state, -, -, -, he⟩
  · have spawned : Quiet h (h.spawn (.command reply)).2 := .same rfl rfl
    rw [he]
    exact spawned.trans (.finish _ h.nextTask (offer?_commandAnswer reply _))
  · have begun : Quiet h (h.begun reply o t state) := .same rfl rfl
    rw [he]
    exact begun.trans (quiet_settleTransport ..)

theorem quiet_execute (hp : h.path = .streams) (reply : ToolReply) (name : String) (args : Json)
    (c : Tool.Context) : Quiet h (h.execute reply name args c).2 := by
  unfold execute
  rcases h.tools.execute name args c h.services with ⟨outcome, services⟩
  have served : Quiet h (h.withServices services) := .same rfl rfl
  cases outcome with
  | result | error | panic => exact served.trans (.answered (offer?_toolAnswer reply _))
  | command o => exact served.trans (quiet_dispatch (h.withServices services) hp _ o)

end Tasks

/-! ## What a request does to the terms -/

variable {h : Hub} {r : Request} {q : Rpc.Request} {s : String} {x : Session}

theorem quiet_seen (hx : h.sessions.get? s = some x) : Quiet h (h.seen s x) :=
  .set rfl rfl hx ⟨rfl, rfl, rfl⟩

/-- A request that is neither a handshake nor a confirmation leaves the terms alone. -/
theorem quiet_request (hp : h.path = .streams) (hg : ∀ q, ¬ h.Greets r q)
    (hc : ∀ s, ¬ h.Confirms r s) : Quiet h (h.request r).2 := by
  have effect := request_effect h r
  generalize h.request r = run at effect ⊢
  cases effect with
  | answered ha => exact .answered (offer?_of_session ha)
  | seen ha _ hn => exact (quiet_seen hn.live).trans (.answered (offer?_of_session ha))
  | confirmed hconfirms => exact absurd hconfirms (hc _)
  | greeted hgreets => exact absurd hgreets (hg _)
  | @called call x _ _ hn =>
    exact (quiet_seen hn.live).trans (quiet_execute (h.seen call.session x) hp ..)
  | @opened s x _ hn =>
    refine (quiet_seen hn.live).trans ?_
    have live : (h.seen s x).sessions.get? s = some { x with lastSeen := h.now } :=
      Table.get?_set_self ..
    rw [startStream_eq live]
    refine .set ?_ rfl live ⟨rfl, rfl, rfl⟩
    exact (offers_append rfl).trans (List.append_nil _)
  | @ended s x => exact (quiet_endSession h s).trans (.answered rfl)

theorem Greets.not_confirms (hg : h.Greets r q) (s : String) : ¬ h.Confirms r s := by
  rintro ⟨⟨q', hq', -, hm⟩, -⟩
  cases hg.parsed.symm.trans hq'.parsed
  have handshake : q.method = Rpc.handshakeMethod := of_decide_eq_true hg.handshake
  rw [hm] at handshake
  exact absurd handshake (by decide)

/-- An action is a confirmation by a session. -/
def ConfirmedBy (h : Hub) (s : String) (a : Action) : Prop :=
  ∃ r, a = .event (.request r) ∧ h.Confirms r s

/-- What an action does to the terms of sessions. -/
inductive Passing (h : Hub) : Action → Prop
  | quiet {a : Action} : Quiet h (h.act a) → (∀ s, ¬ h.ConfirmedBy s a) → Passing h a
  | confirmed {r : Request} {s : String} {x : Session} : h.Confirms r s → h.Names r s x →
      (h.act (.event (.request r))).offers = h.offers →
      (h.act (.event (.request r))).sessions =
        h.sessions.set s { x with lastSeen := h.now, initialized := true } →
      Passing h (.event (.request r))
  | greeted {r : Request} {q : Rpc.Request} {s version : String} : h.Greets r q →
      (h.handshakeSession r).1 = s → Sessions.agreed q.wish = version →
      (h.act (.event (.request r))).offers = h.offers ++ [((h.request r).1, s, version)] →
      (h.act (.event (.request r))).sessions =
        h.sessions.set s (h.greetedSession (h.sessions.get? s) version) →
      Passing h (.event (.request r))

theorem passing_request (hp : h.path = .streams) (r : Request) :
    Passing h (.event (.request r)) := by
  by_cases hg : ∃ q, h.Greets r q
  · obtain ⟨q, hg⟩ := hg
    obtain ⟨id, -, he⟩ := request_of_greets hg
    refine .greeted hg rfl rfl ?_ ?_
    · show (h.request r).2.offers = _
      rw [he]
      exact offers_answered (h.welcomed ..) (.response (welcome ..))
    · show (h.request r).2.sessions = _
      rw [he]
      rfl
  · by_cases hc : ∃ s, h.Confirms r s
    · obtain ⟨s, hc⟩ := hc
      obtain ⟨x, hn, he⟩ := request_of_confirms hc
      refine .confirmed hc hn ?_ ?_
      · show (h.request r).2.offers = _
        rw [he]
        exact (offers_append rfl).trans (List.append_nil _)
      · show (h.request r).2.sessions = _
        rw [he]
        rfl
    · refine .quiet (quiet_request hp (fun q hq => hg ⟨q, hq⟩) fun s hs => hc ⟨s, hs⟩) ?_
      rintro s ⟨r', he, hs⟩
      cases he
      exact hc ⟨s, hs⟩

theorem passing (hp : h.path = .streams) (a : Action) : Passing h a := by
  have quiet {a : Action} (hq : Quiet h (h.act a)) (hn : ∀ r, a ≠ .event (.request r)) :
      Passing h a := .quiet hq fun _ ⟨r, he, _⟩ => hn r he
  cases a with
  | move m =>
    refine quiet ?_ nofun
    show Quiet h ((h.move? m).getD h)
    cases hm : h.move? m with
    | none => exact .refl h
    | some h' => exact quiet_move h hp hm
  | event e =>
    cases e with
    | request r => exact passing_request hp r
    | advance d => exact quiet (.same rfl rfl) nofun
    | read t => exact quiet (quiet_readStream h t) nofun
    | disconnect t => exact quiet (quiet_dropReader h t) nofun
    | abandon id => exact quiet (quiet_abandon h id) nofun
    | startSweeps timeout interval =>
      refine quiet ?_ nofun
      simp only [act, happen, startSweeps]
      split_ifs <;> exact .same rfl rfl

/-! ## The terms as the schedule tells them -/

/-- A version is the one that a client gets: the one it asks for, if that is supported, and the
preferred one otherwise. -/
def Meets (wish : Option String) (version : String) : Prop :=
  wish = some version ∧ version ∈ supportedVersions ∨
    (∀ asked, wish = some asked → asked ∉ supportedVersions) ∧ version = preferredVersion

theorem meets_agreed (wish : Option String) : Meets wish (Sessions.agreed wish) := by
  cases wish with
  | none => exact .inr ⟨nofun, rfl⟩
  | some asked =>
    simp only [Sessions.agreed]
    split_ifs with hs
    · exact .inl ⟨rfl, (isSupportedVersion_iff asked).1 hs⟩
    · refine .inr ⟨fun asked' he => ?_, rfl⟩
      cases he
      exact fun hm => hs ((isSupportedVersion_iff asked).2 hm)

theorem Meets.supported {wish : Option String} {version : String} (hm : Meets wish version) :
    version ∈ supportedVersions := by
  rcases hm with ⟨-, hs⟩ | ⟨-, rfl⟩
  · exact hs
  · exact List.mem_cons_self

/-- A session has confirmed its handshake in the course of a schedule. -/
def Confirmed (h : Hub) (s : String) (actions : List Action) : Prop :=
  ∃ mid a rest, actions = mid ++ a :: rest ∧ (h.exec mid).ConfirmedBy s a

theorem confirmed_concat (h : Hub) (s : String) (actions : List Action) (a : Action) :
    h.Confirmed s (actions ++ [a]) ↔ h.Confirmed s actions ∨ (h.exec actions).ConfirmedBy s a := by
  constructor
  · rintro ⟨mid, b, rest, he, hb⟩
    rcases List.eq_nil_or_concat rest with rfl | ⟨rest, c, rfl⟩
    · obtain ⟨rfl, hab⟩ := List.append_inj' he rfl
      cases hab
      exact .inr hb
    · have before : actions ++ [a] = (mid ++ b :: rest) ++ [c] := by simpa using he
      obtain ⟨rfl, -⟩ := List.append_inj' before rfl
      exact .inl ⟨mid, b, rest, rfl, hb⟩
  · rintro (⟨mid, b, rest, rfl, hb⟩ | ha)
    · exact ⟨mid, b, rest ++ [a], by simp, hb⟩
    · exact ⟨actions, a, [], rfl, ha⟩

/-- A session has its version from a handshake of a schedule, the last one that was answered with
it: this handshake, between these actions. -/
structure OfferedBy (h : Hub) (actions : List Action) (s version : String) (before : List Action)
    (r : Request) (q : Rpc.Request) (after : List Action) : Prop where
  occurs : actions = before ++ .event (.request r) :: after
  greets : (h.exec before).Greets r q
  session : ((h.exec before).handshakeSession r).1 = s
  meets : Meets q.wish version
  last : (h.exec actions).lastOffer s = some (((h.exec before).request r).1, version)

/-- A session has lived since a handshake, through all the actions after it. -/
structure LivesSince (h : Hub) (r : Request) (q : Rpc.Request) (after : List Action) (s : String)
    (x : Session) : Prop where
  greets : h.Greets r q
  session : (h.handshakeSession r).1 = s
  new : h.sessions.get? s = none
  createdAt : x.createdAt = h.wall
  stays : ∀ mid rest, after = mid ++ rest →
    ∃ y, ((h.act (.event (.request r))).exec mid).sessions.get? s = some y
  initialized : x.initialized = true ↔ (h.act (.event (.request r))).Confirmed s after

theorem OfferedBy.later {actions before after : List Action} {version : String}
    (ho : h.OfferedBy actions s version before r q after) {a : Action}
    (hl : (h.exec (actions ++ [a])).lastOffer s = (h.exec actions).lastOffer s) :
    h.OfferedBy (actions ++ [a]) s version before r q (after ++ [a]) where
  occurs := by rw [ho.occurs, List.append_assoc, List.cons_append]
  greets := ho.greets
  session := ho.session
  meets := ho.meets
  last := hl.trans ho.last

theorem LivesSince.later {after : List Action} (hl : h.LivesSince r q after s x) {a : Action}
    {x' : Session}
    (hx' : ((h.act (.event (.request r))).exec (after ++ [a])).sessions.get? s = some x')
    (hcreated : x'.createdAt = x.createdAt)
    (hinit : x'.initialized = true ↔ x.initialized = true ∨
      ((h.act (.event (.request r))).exec after).ConfirmedBy s a) :
    h.LivesSince r q (after ++ [a]) s x' where
  greets := hl.greets
  session := hl.session
  new := hl.new
  createdAt := hcreated.trans hl.createdAt
  stays mid rest he := by
    rcases List.eq_nil_or_concat rest with rfl | ⟨rest, c, rfl⟩
    · rw [List.append_nil] at he
      exact ⟨x', he ▸ hx'⟩
    · have before : after ++ [a] = (mid ++ rest) ++ [c] := by simpa using he
      exact hl.stays mid rest (List.append_inj' before rfl).1
  initialized := by rw [hinit, hl.initialized, confirmed_concat]

/-- What a schedule tells of a session that lives after it. -/
structure Terms (h : Hub) (actions : List Action) (s : String) (x : Session) : Prop where
  version : ∃ version before r q after, x.version = some version ∧
    version ∈ supportedVersions ∧ h.OfferedBy actions s version before r q after
  life : ∃ before r q after, actions = before ++ .event (.request r) :: after ∧
    (h.exec before).LivesSince r q after s x

theorem exec_concat (h : Hub) (actions : List Action) (a : Action) :
    h.exec (actions ++ [a]) = (h.exec actions).act a := exec_append h actions [a]

section Step

variable {actions : List Action} {a : Action} {x' : Session}

theorem Terms.later_life (ht : h.Terms actions s x)
    (hx' : (h.exec (actions ++ [a])).sessions.get? s = some x')
    (hcreated : x'.createdAt = x.createdAt)
    (hinit : x'.initialized = true ↔ x.initialized = true ∨ (h.exec actions).ConfirmedBy s a) :
    ∃ before r q after, actions ++ [a] = before ++ .event (.request r) :: after ∧
      (h.exec before).LivesSince r q after s x' := by
  obtain ⟨before, r, q, after, rfl, hl⟩ := ht.life
  have reached (after : List Action) : h.exec (before ++ .event (.request r) :: after) =
      ((h.exec before).act (.event (.request r))).exec after := exec_append ..
  refine ⟨before, r, q, after ++ [a], by simp, hl.later ?_ hcreated ?_⟩
  · rw [← reached]
    simpa using hx'
  · rw [← reached]
    exact hinit

/-- A session has kept its terms, unless it was confirmed just now. -/
theorem Terms.later (ht : h.Terms actions s x)
    (hx' : (h.exec (actions ++ [a])).sessions.get? s = some x')
    (hcreated : x'.createdAt = x.createdAt) (hversion : x'.version = x.version)
    (hinit : x'.initialized = true ↔ x.initialized = true ∨ (h.exec actions).ConfirmedBy s a)
    (hlast : (h.exec (actions ++ [a])).lastOffer s = (h.exec actions).lastOffer s) :
    h.Terms (actions ++ [a]) s x' where
  version := by
    obtain ⟨version, before, r, q, after, hx, hs, ho⟩ := ht.version
    exact ⟨version, before, r, q, after ++ [a], hversion.trans hx, hs, ho.later hlast⟩
  life := ht.later_life hx' hcreated hinit

theorem Terms.kept (ht : h.Terms actions s x)
    (hx' : (h.exec (actions ++ [a])).sessions.get? s = some x') (hk : x.Kept x')
    (hn : ¬ (h.exec actions).ConfirmedBy s a)
    (hlast : (h.exec (actions ++ [a])).lastOffer s = (h.exec actions).lastOffer s) :
    h.Terms (actions ++ [a]) s x' := by
  refine ht.later hx' hk.createdAt hk.version ?_ hlast
  rw [hk.initialized]
  exact ⟨.inl, fun hi => hi.resolve_right hn⟩

/-- A handshake has just now fixed the version of a session. -/
theorem offeredBy_now (hg : (h.exec actions).Greets r q)
    (hs : ((h.exec actions).handshakeSession r).1 = s)
    (ho : (h.exec (actions ++ [.event (.request r)])).offers =
      (h.exec actions).offers ++ [(((h.exec actions).request r).1, s, Sessions.agreed q.wish)]) :
    h.OfferedBy (actions ++ [.event (.request r)]) s (Sessions.agreed q.wish) actions r q [] :=
  ⟨rfl, hg, hs, meets_agreed q.wish, lastOffer_self ho⟩

theorem terms_step (hp : (h.exec actions).path = .streams)
    (ih : ∀ s x, (h.exec actions).sessions.get? s = some x → h.Terms actions s x) (a : Action) :
    ∀ s x', (h.exec (actions ++ [a])).sessions.get? s = some x' →
      h.Terms (actions ++ [a]) s x' := by
  intro t x' hx'
  have now := hx'
  rw [exec_concat] at now
  cases passing hp a with
  | quiet hq hn =>
    obtain ⟨x, hx, hk⟩ := hq.kept now
    exact (ih t x hx).kept hx' hk (hn t) (lastOffer_of_offers (by rw [exec_concat, hq.offers]) t)
  | @confirmed r s x hc hnames ho hs =>
    have last : (h.exec (actions ++ [.event (.request r)])).lastOffer t =
        (h.exec actions).lastOffer t := lastOffer_of_offers (by rw [exec_concat, ho]) t
    rw [hs, Table.get?_set] at now
    split_ifs at now with ht
    · cases now
      subst ht
      refine (ih t x hnames.live).later hx' rfl rfl ?_ last
      exact iff_of_true rfl (.inr ⟨r, rfl, hc⟩)
    · refine (ih t x' now).kept hx' ⟨rfl, rfl, rfl⟩ ?_ last
      rintro ⟨r', he, hc'⟩
      cases he
      exact ht (Option.some.inj (hc'.admitted.1.symm.trans hnames.header))
  | @greeted r q s version hg hsession hversion ho hs =>
    have unconfirmed : ¬ (h.exec actions).ConfirmedBy t (.event (.request r)) := by
      rintro ⟨r', he, hc⟩
      cases he
      exact hg.not_confirms t hc
    have offers : (h.exec (actions ++ [.event (.request r)])).offers =
        (h.exec actions).offers ++ [(((h.exec actions).request r).1, s, version)] := by
      rw [exec_concat, ho]
    rw [hs, Table.get?_set] at now
    split_ifs at now with ht
    · subst ht hversion
      have offered := offeredBy_now hg hsession offers
      cases hx : (h.exec actions).sessions.get? t with
      | some x =>
        rw [hx] at now
        cases now
        refine ⟨⟨_, _, _, _, _, rfl, offered.meets.supported, offered⟩,
          (ih t x hx).later_life hx' rfl ?_⟩
        exact ⟨.inl, fun hi => hi.resolve_right unconfirmed⟩
      | none =>
        rw [hx] at now
        cases now
        refine ⟨⟨_, _, _, _, _, rfl, offered.meets.supported, offered⟩,
          ⟨actions, r, q, [], rfl, hg, hsession, hx, rfl, fun mid rest he => ?_, ?_⟩⟩
        · obtain ⟨rfl, -⟩ := List.append_eq_nil_iff.1 he.symm
          exact ⟨_, by rw [← exec_concat]; exact hx'⟩
        · refine iff_of_false Bool.false_ne_true ?_
          rintro ⟨mid, b, rest, he, -⟩
          cases mid <;> cases he
    · exact (ih t x' now).kept hx' ⟨rfl, rfl, rfl⟩ unconfirmed
        (lastOffer_of_ne offers (Ne.symm ht))

end Step

theorem terms_exec (config : Config) (ids : Nat → String) (actions : List Action) :
    ∀ s x, ((Hub.new config ids).exec actions).sessions.get? s = some x →
      (Hub.new config ids).Terms actions s x := by
  induction actions using List.reverseRecOn with
  | nil => exact fun _ _ hx => by cases hx
  | append_singleton actions a ih =>
    exact terms_step (sameSetting_exec (h := Hub.new config ids) rfl rfl actions).1 ih a

/-! ## Handshakes -/

/-- The sessions after a handshake, and how many ids have been given out: the live session that it
names keeps what it has, and otherwise one new session comes. -/
inductive Welcomes (h : Hub) (r : Request) (s version : String) : Sessions → Nat → Prop
  | renewed {x : Session} : h.Names r s x → Welcomes h r s version
      (h.sessions.set s { x with lastSeen := h.now, version := some version }) h.sessionsNamed
  | created : (∀ s x, ¬ h.Names r s x) → h.sessions.get? s = none → Welcomes h r s version
      (h.sessions ++ [(s, ⟨h.wall, h.now, false, some version, none⟩)]) (h.sessionsNamed + 1)

/-- The next id is nobody's. -/
theorem get?_next {h : Hub} (hids : Unrepeated h.sessionId)
    (hgiven : ∀ s x, h.sessions.get? s = some x → h.Given s) :
    h.sessions.get? (h.sessionId (h.sessionsNamed + 1)) = none := by
  refine Option.eq_none_iff_forall_ne_some.2 fun x hx => ?_
  obtain ⟨k, hk, hle, he⟩ := hgiven _ x hx
  exact hids k (h.sessionsNamed + 1) hk (Nat.lt_succ_of_le hle) he.symm

theorem welcomes {h : Hub} (hids : Unrepeated h.sessionId)
    (hgiven : ∀ s x, h.sessions.get? s = some x → h.Given s) (r : Request) (version : String) :
    h.Welcomes r (h.handshakeSession r).1 version
      (h.sessions.set (h.handshakeSession r).1
        (h.greetedSession (h.sessions.get? (h.handshakeSession r).1) version))
      (h.handshakeSession r).2.sessionsNamed := by
  rcases names_or_stranger h r with ⟨s, x, hn⟩ | hn
  · rw [handshakeSession_of_names hn, hn.live]
    exact .renewed hn
  · have absent := get?_next hids hgiven
    rw [handshakeSession_of_stranger hn, absent, Table.set_of_get?_none _ absent]
    exact .created hn absent

/-- What the handshakes and the confirmations of a schedule make of the sessions: each session that
lives has the version that it was offered last, and has been confirmed or not; and what one more
handshake does: it is answered with its session and its version, and nothing else happens. -/
structure Negotiated (h : Hub) (actions : List Action) : Prop where
  terms : ∀ s x, (h.exec actions).sessions.get? s = some x → h.Terms actions s x
  greeted : ∀ r q, (h.exec actions).Greets r q → ∃ id s version sessions named,
    q.id = some id ∧ Meets q.wish version ∧
    (h.exec actions).Welcomes r s version sessions named ∧
    h.exec (actions ++ [.event (.request r)]) = { h.exec actions with
      sessions := sessions
      sessionsNamed := named
      answers := (h.exec actions).answers ++
        [(((h.exec actions).request r).1, .response (welcome id s version))]
      nextTask := (h.exec actions).nextTask + 1 }

/-- So it is in every schedule. -/
theorem sessions_negotiated (config : Config) {ids : Nat → String} (hids : Unrepeated ids)
    (actions : List Action) : (Hub.new config ids).Negotiated actions where
  terms := terms_exec config ids actions
  greeted r q hg := by
    have given := given_exec config ids actions
    have unrepeated : Unrepeated ((Hub.new config ids).exec actions).sessionId := by
      rw [sessionId_exec]
      exact hids
    obtain ⟨id, hid, he⟩ := request_of_greets hg
    refine ⟨id, _, _, _, _, hid, meets_agreed q.wish, welcomes unrepeated given r _, ?_⟩
    rw [exec_concat]
    show (((Hub.new config ids).exec actions).request r).2 = _
    rw [he]
    rfl

/-- A session does its handshake once more, and asks for an older version. -/
def renewing : Request := samplePost (some "S1") (some (.int 2)) Rpc.handshakeMethod
  (.obj [("protocolVersion", .str "2025-03-26")])

theorem sessions_negotiated_renewing :
    let actions := [sampleHandshake, sampleReady "S1", .event (.request renewing)]
    let h := (Hub.new .default sampleId).exec actions
    Unrepeated sampleId ∧
    ((h.sessions.get? "S1").map fun x => (x.version, x.initialized)) =
      some (some "2025-03-26", true) ∧
    h.lastOffer "S1" = some (2, "2025-03-26") ∧ (Hub.new .default sampleId).Negotiated actions := by
  intro actions h
  have ran : ((h.sessions.get? "S1").map fun x => (x.version, x.initialized)) =
      some (some "2025-03-26", true) ∧ h.lastOffer "S1" = some (2, "2025-03-26") := by
    decide +kernel
  exact ⟨unrepeated_sampleId, ran.1, ran.2,
    sessions_negotiated .default unrepeated_sampleId actions⟩

end Hub

end EditorBridge
