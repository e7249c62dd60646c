import EditorBridge.Proofs.Hub.Admission
import EditorBridge.Proofs.Hub.Schedule
/-!
# What a request does

A request is answered as it is, or it is let in and its own session has been
seen. A handshake leaves a session with a version, a notification may confirm
it, a stream is opened, a session is ended, or a tool is called.
`request_effect` goes through the routes and the methods once and says what the
bridge is after each of these.
-/

namespace EditorBridge

/-- The version that a client asks for. -/
def Rpc.Request.wish (q : Rpc.Request) : Option String :=
  (Json.Members.get? "protocolVersion" q.paramMembers).bind Json.str?

namespace Hub

open Http (Request Response sessionHeader versionHeader)

/-! ## Who is let in, and for what -/

/-- A request names a session that lives. -/
structure Names (h : Hub) (r : Request) (s : String) (x : Session) : Prop where
  header : r.value? sessionHeader = some s
  live : h.sessions.get? s = some x

/-- A request has passed the checks that come before its session is looked up. -/
def Passes (h : Hub) (r : Request) : Prop :=
  r.method = "POST" ∧ r.body.length ≤ h.config.maxBodyBytes ∧
      (∀ m, Rpc.Frame.parse r.body ≠ .rejected m) ∨
    r.method = "GET" ∧ r.acceptsStream = true

/-- A POST fits and holds a request. -/
structure Posts (h : Hub) (r : Request) (q : Rpc.Request) : Prop where
  method : r.method = "POST"
  route : r.route = "/mcp"
  fits : r.body.length ≤ h.config.maxBodyBytes
  parsed : Rpc.Frame.parse r.body = .request q

/-- A handshake that is let in. -/
structure Greets (h : Hub) (r : Request) (q : Rpc.Request) : Prop extends Posts h r q where
  handshake : q.isHandshake = true
  version : ∀ v, r.value? versionHeader = some v → v ∈ supportedVersions

/-- The method by which a client says that it has finished its handshake. -/
def readyMethod : String := "notifications/initialized"

/-- A session says that it has finished its handshake, and is let in. -/
structure Confirms (h : Hub) (r : Request) (s : String) : Prop where
  note : ∃ q, h.Posts r q ∧ q.id = none ∧ q.method = readyMethod
  admitted : h.Admits r s

variable {h : Hub} {r : Request} {q : Rpc.Request} {s : String} {x : Session}

theorem Posts.passes (hq : h.Posts r q) : h.Passes r :=
  .inl ⟨hq.method, hq.fits, fun m hm => by cases hq.parsed.symm.trans hm⟩

theorem Posts.request_eq (hq : h.Posts r q) :
    h.request r = if q.isHandshake then h.postHandshake r q else h.postCall r q := by
  simp [request, hq.method, hq.route, post, Nat.not_lt.2 hq.fits, hq.parsed]

/-- A session is seen as it is now. -/
def seen (h : Hub) (s : String) (x : Session) : Hub :=
  { h with sessions := h.sessions.set s { x with lastSeen := h.now } }

theorem namedSession_of_names (hn : h.Names r s x) : h.namedSession r = (.ok s, h.seen s x) := by
  simp [namedSession, hn.header, Sessions.touch, Sessions.update, Table.has, Table.modify, hn.live,
    seen]

/-- Whoever names no live session is refused as it comes. -/
theorem namedSession_of_stranger (hn : ∀ s x, ¬ h.Names r s x) :
    ∃ e, h.namedSession r = (.error e, h) := by
  unfold namedSession
  cases hv : r.value? sessionHeader with
  | none => exact ⟨_, rfl⟩
  | some s =>
    cases hs : h.sessions.get? s with
    | none => exact ⟨.notFound s, by simp [Sessions.touch, Sessions.update, Table.has, hs]⟩
    | some x => exact absurd ⟨hv, hs⟩ (hn s x)

theorem names_or_stranger (h : Hub) (r : Request) :
    (∃ s x, h.Names r s x) ∨ ∀ s x, ¬ h.Names r s x := by
  by_cases hn : ∃ s x, h.Names r s x
  · exact .inl hn
  · exact .inr fun s x hsx => hn ⟨s, x, hsx⟩

theorem callerSession_of_names (hn : h.Names r s x) :
    (∃ e, h.callerSession r = (.error e, h.seen s x)) ∨
      h.callerSession r = (.ok s, h.seen s x) := by
  simp only [callerSession, namedSession_of_names hn]
  split
  · exact .inr rfl
  · exact .inl ⟨_, rfl⟩

theorem callerSession_of_stranger (hn : ∀ s x, ¬ h.Names r s x) :
    ∃ e, h.callerSession r = (.error e, h) := by
  obtain ⟨e, he⟩ := namedSession_of_stranger hn
  exact ⟨e, by simp only [callerSession, he]⟩

theorem Admits.names (ha : h.Admits r s) : ∃ x, h.Names r s x ∧
    h.callerSession r = (.ok s, h.seen s x) := by
  obtain ⟨hv, x, hx, -⟩ := id ha
  have hok := callerSession_eq_ok_iff.2 ha
  rcases callerSession_of_names ⟨hv, hx⟩ with ⟨e, he⟩ | hc
  · rw [he] at hok
    cases hok
  · exact ⟨x, ⟨hv, hx⟩, hc⟩

/-! ## Handshakes -/

/-- A session after a handshake: refreshed if it lived before, and new otherwise. -/
def greetedSession (h : Hub) (before : Option Session) (version : String) : Session :=
  match before with
  | some x => { x with lastSeen := h.now, version := some version }
  | none => ⟨h.wall, h.now, false, some version, none⟩

/-- A session has done its handshake, and so many ids have been given out. -/
def welcomed (h : Hub) (s : String) (named : Nat) (version : String) : Hub :=
  { h with
    sessions := h.sessions.set s (h.greetedSession (h.sessions.get? s) version)
    sessionsNamed := named }

/-- The answer to a handshake. -/
def welcome (id : Json) (s version : String) : Response :=
  { Response.message 200 (.response id (Handshake.answer version).toJson.sorted) with
    session := some s }

/-- A handshake that names a live session goes to it, -/
theorem handshakeSession_of_names (hn : h.Names r s x) :
    h.handshakeSession r = (s, h.seen s x) := by
  simp [handshakeSession, hn.header, Table.has, hn.live, Sessions.create, seen]

/-- and every other one to the next id. -/
theorem handshakeSession_of_stranger (hn : ∀ s x, ¬ h.Names r s x) :
    h.handshakeSession r = (h.sessionId (h.sessionsNamed + 1), { h with
      sessions := h.sessions.create (h.sessionId (h.sessionsNamed + 1)) h.now h.wall
      sessionsNamed := h.sessionsNamed + 1 }) := by
  unfold handshakeSession
  cases hv : r.value? sessionHeader with
  | none => rfl
  | some s =>
    cases hs : h.sessions.get? s with
    | none => simp [Table.has, hs, wall]
    | some x => exact absurd ⟨hv, hs⟩ (hn s x)

/-- What a handshake leaves of its session once the version is agreed on. -/
theorem negotiate_create (h : Hub) (s : String) (wish : Option String) :
    (h.sessions.create s h.now h.wall).negotiate s wish =
      (some (Sessions.agreed wish),
        h.sessions.set s (h.greetedSession (h.sessions.get? s) (Sessions.agreed wish))) := by
  cases hs : h.sessions.get? s <;>
    simp [Sessions.create, hs, Sessions.negotiate, Sessions.setVersion, Sessions.update, Table.has,
      Table.modify, greetedSession]

theorem request_of_greets (hg : h.Greets r q) : ∃ id, q.id = some id ∧
    h.request r = (h.welcomed (h.handshakeSession r).1 (h.handshakeSession r).2.sessionsNamed
      (Sessions.agreed q.wish)).answered
        (.response (welcome id (h.handshakeSession r).1 (Sessions.agreed q.wish))) := by
  obtain ⟨id, hid⟩ := Rpc.Frame.id_of_parse hg.parsed hg.handshake
  have method : q.method = "initialize" := of_decide_eq_true hg.handshake
  have supported : ((r.value? versionHeader).filter fun v => !isSupportedVersion v) = none := by
    refine Option.filter_eq_none_iff.2 fun v hv => ?_
    simp [(isSupportedVersion_iff v).2 (hg.version v hv)]
  obtain ⟨s, n, hs, -⟩ := handshakeSession_eq h r
  have negotiated := negotiate_create h s q.wish
  rw [Rpc.Request.wish] at negotiated
  refine ⟨id, hid, ?_⟩
  rw [hg.request_eq, if_pos hg.handshake, postHandshake]
  simp only [supported, hs, handling, hid, method, handshake, negotiated, reply]
  rfl

/-! ## Everything else -/

/-- What a message other than a handshake leads to, once it is let in. -/
inductive Handled (h : Hub) (s : String) (q : Rpc.Request) : Handling × Hub → Prop
  | now (m : Option Rpc.Message) : ¬ (q.id = none ∧ q.method = readyMethod) →
      Handled h s q (.now m, h)
  | ready : q.id = none → q.method = readyMethod →
      Handled h s q (.now none, { h with sessions := (h.sessions.confirm s).2 })
  | tool {id : Json} (name : String) (args : Json) : q.id = some id →
      Handled h s q (.tool id name args, h)

theorem handling_handled (h : Hub) (s : String) (hq : q.isHandshake = false) :
    Handled h s q (h.handling (some s) q) := by
  unfold handling
  cases hid : q.id with
  | none =>
    by_cases hm : q.method = readyMethod
    · rw [hm]
      exact .ready hid hm
    · have noticed : h.notice (some s) q.method = h := by
        unfold notice
        split
        · next he _ => exact absurd he hm
        · rfl
      simp only [noticed]
      exact .now none fun hn => hm hn.2
  | some id =>
    have unready : ¬ (q.id = none ∧ q.method = readyMethod) := fun hn => by
      cases hid.symm.trans hn.1
    dsimp only
    split
    · next hm => simp [Rpc.Request.isHandshake, Rpc.handshakeMethod, hm] at hq
    · exact .now _ unready
    · exact .now _ unready
    · split
      · exact .tool _ _ hid
      · exact .now _ unready
    · exact .now _ unready
    · exact .now _ unready
    · exact .now _ unready
    · exact .now _ unready

theorem confirm_seen (h : Hub) (s : String) (x : Session) :
    { h.seen s x with sessions := ((h.seen s x).sessions.confirm s).2 } =
      h.seen s { x with initialized := true } := by
  simp [seen, Sessions.confirm, Sessions.update, Table.modify]

theorem request_of_confirms (hc : h.Confirms r s) : ∃ x, h.Names r s x ∧
    h.request r = (h.seen s { x with initialized := true }).answered (.response (.plain 202)) := by
  obtain ⟨q, hq, hid, hm⟩ := hc.note
  obtain ⟨x, hn, hcaller⟩ := hc.admitted.names
  have hh : q.isHandshake = false := by
    simp [Rpc.Request.isHandshake, hm, readyMethod, Rpc.handshakeMethod]
  refine ⟨x, hn, ?_⟩
  have handled := handling_handled (h.seen s x) s hh
  rw [hq.request_eq, if_neg (by simp [hh]), postCall, hcaller, ← confirm_seen]
  dsimp only
  generalize (h.seen s x).handling (some s) q = handling at handled
  cases handled with
  | now m hn => exact absurd ⟨hid, hm⟩ hn
  | ready => rfl
  | tool name args hsome => cases hid.symm.trans hsome

/-- What a request does. Its answer, where it has one at once, names no session unless it is that to
a handshake. -/
inductive Effect (h : Hub) (r : Request) : TaskId × Hub → Prop
  | answered {a : Response} : a.session = none → Effect h r (h.answered (.response a))
  | seen {s : String} {x : Session} {a : Response} : a.session = none → h.Passes r →
      h.Names r s x → Effect h r ((h.seen s x).answered (.response a))
  | confirmed {s : String} {x : Session} : h.Confirms r s → h.Names r s x →
      Effect h r ((h.seen s { x with initialized := true }).answered (.response (.plain 202)))
  | greeted {q : Rpc.Request} {id : Json} : h.Greets r q → q.id = some id →
      Effect h r ((h.welcomed (h.handshakeSession r).1 (h.handshakeSession r).2.sessionsNamed
        (Sessions.agreed q.wish)).answered
          (.response (welcome id (h.handshakeSession r).1 (Sessions.agreed q.wish))))
  | called {call : ToolCall} {x : Session} : h.toolCall? r = some call → h.Passes r →
      h.Names r call.session x → Effect h r ((h.seen call.session x).execute (.response call.id)
        call.name call.args (h.toolContext (some call.session)))
  | opened {s : String} {x : Session} : h.Passes r → h.Names r s x →
      Effect h r ((h.seen s x).startStream s)
  | ended {s : String} {x : Session} : h.Names r s x →
      Effect h r ((h.endSession s).2.answered (.response (.plain 204)))

theorem session_responseOf (m : Option Rpc.Message) : (responseOf m).session = none := by
  cases m <;> rfl

theorem postCall_effect (hq : h.Posts r q) (hh : q.isHandshake = false) :
    h.Effect r (h.request r) := by
  have posted : h.request r = h.postCall r q := by rw [hq.request_eq, if_neg (by simp [hh])]
  rcases names_or_stranger h r with ⟨s, x, hn⟩ | hn
  · rcases callerSession_of_names hn with ⟨e, hc⟩ | hc
    · rw [posted, postCall, hc]
      exact .seen rfl hq.passes hn
    · have handled := handling_handled (h.seen s x) s hh
      generalize hx : (h.seen s x).handling (some s) q = handling at handled
      cases handled with
      | now m =>
        simp only [posted, postCall, hc, hx]
        exact .seen (session_responseOf m) hq.passes hn
      | ready hid hm =>
        have admitted : h.Admits r s := callerSession_eq_ok_iff.1 (by rw [hc])
        simp only [posted, postCall, hc, hx, confirm_seen]
        exact .confirmed ⟨⟨q, hq, hid, hm⟩, admitted⟩ hn
      | @tool id name args =>
        have called : h.toolCall? r = some ⟨s, id, name, args⟩ :=
          toolCall?_of_handling hq.method hq.route hq.fits hq.parsed hh (by rw [hc])
            (by rw [hc, hx])
        have made := request_of_toolCall called
        rw [hc] at made
        exact made ▸ .called called hq.passes hn
  · obtain ⟨e, hc⟩ := callerSession_of_stranger hn
    rw [posted, postCall, hc]
    exact .answered rfl

theorem post_effect (hm : r.method = "POST") (hr : r.route = "/mcp") :
    h.Effect r (h.request r) := by
  have posted : h.request r = h.post r := by simp [request, hm, hr]
  -- the size is looked at before the frame, and the frame before the session
  by_cases hl : h.config.maxBodyBytes < r.body.length
  · rw [posted, post, if_pos hl]
    exact .answered rfl
  · cases hq : Rpc.Frame.parse r.body with
    | rejected m =>
      simp only [posted, post, hl, if_false, hq]
      exact .answered rfl
    | oneWay =>
      have passes : h.Passes r := .inl ⟨hm, Nat.not_lt.1 hl, by simp [hq]⟩
      simp only [posted, post, hl, if_false, hq]
      rcases names_or_stranger h r with ⟨s, x, hn⟩ | hn
      · rcases callerSession_of_names hn with ⟨e, hc⟩ | hc <;> rw [hc] <;>
          exact .seen rfl passes hn
      · obtain ⟨e, hc⟩ := callerSession_of_stranger hn
        rw [hc]
        exact .answered rfl
    | request q =>
      have posts : h.Posts r q := ⟨hm, hr, Nat.not_lt.1 hl, hq⟩
      by_cases hh : q.isHandshake = true
      · by_cases hv : ∀ v, r.value? versionHeader = some v → v ∈ supportedVersions
        · have greets : h.Greets r q := ⟨posts, hh, hv⟩
          obtain ⟨id, hid, he⟩ := request_of_greets greets
          exact he ▸ .greeted greets hid
        · obtain ⟨v, hv, hn⟩ : ∃ v, r.value? versionHeader = some v ∧ v ∉ supportedVersions := by
            simpa using hv
          have unsupported : isSupportedVersion v = false := by
            simpa [← isSupportedVersion_iff] using hn
          rw [posts.request_eq, if_pos hh, postHandshake]
          simp only [hv, Option.filter, unsupported]
          exact .answered rfl
      · exact postCall_effect posts (by simpa using hh)

theorem subscribe_effect (hm : r.method = "GET") : h.Effect r (h.subscribe r) := by
  unfold subscribe
  by_cases ha : r.acceptsStream = true
  · simp only [ha, Bool.not_true, Bool.false_eq_true, if_false]
    rcases names_or_stranger h r with ⟨s, x, hn⟩ | hn
    · have passes : h.Passes r := .inr ⟨hm, ha⟩
      rw [namedSession_of_names hn]
      dsimp only
      split_ifs
      · exact .seen rfl passes hn
      · split
        · exact .seen rfl passes hn
        · exact .opened passes hn
    · obtain ⟨e, he⟩ := namedSession_of_stranger hn
      rw [he]
      exact .answered rfl
  · simp only [ha, Bool.not_false, if_true]
    exact .answered rfl

theorem terminate_effect (h : Hub) (r : Request) : h.Effect r (h.terminate r) := by
  unfold terminate
  cases hv : r.value? sessionHeader with
  | none => exact .answered rfl
  | some s =>
    cases hs : h.sessions.get? s with
    | none =>
      simp only [endSession, hs]
      exact .answered rfl
    | some x =>
      have ended : h.endSession s = (true, (h.endSession s).2) := by simp [endSession, hs]
      dsimp only
      rw [ended]
      exact .ended ⟨hv, hs⟩

/-- Every request does one of these things. -/
theorem request_effect (h : Hub) (r : Request) : h.Effect r (h.request r) := by
  by_cases posted : r.method = "POST" ∧ r.route = "/mcp"
  · exact post_effect posted.1 posted.2
  · unfold request
    split
    · next hm hr => exact absurd ⟨hm, hr⟩ posted
    · next hm _ => exact subscribe_effect hm
    · exact terminate_effect h r
    · exact .answered rfl
    · exact .answered rfl

end Hub

end EditorBridge
