import EditorBridge.Proofs.Hub.Step
/-!
# The small steps of a request

A request looks at sessions, and leaves to each the transport it has; then it is
answered, or it opens a stream, ends a session or calls a tool. `request_steps`
goes through the routes and the methods once.
-/

namespace EditorBridge

namespace Hub

open Http (Request)
open Moment (Step Steps)
open Transport (Endings)

/-- Sessions were looked at, and nothing else. -/
def Touched (h h' : Hub) : Prop :=
  ∃ (sessions : Sessions) (n : Nat),
    Sessions.Looked h.sessionId h.now h.sessions h.sessionsNamed sessions n ∧
      h' = { h with sessions := sessions, sessionsNamed := n }

namespace Touched

variable {h h' h'' : Hub}

theorem refl (h : Hub) : Touched h h := ⟨h.sessions, h.sessionsNamed, .refl .., rfl⟩

theorem trans (h₁ : Touched h h') (h₂ : Touched h' h'') : Touched h h'' := by
  obtain ⟨s, n, hs, rfl⟩ := h₁
  obtain ⟨s', n', hs', rfl⟩ := h₂
  exact ⟨s', n', hs.trans hs', rfl⟩

theorem steps (ht : Touched h h') : Steps ⟨h, []⟩ [] ⟨h', []⟩ := by
  obtain ⟨s, n, hs, rfl⟩ := ht
  exact (Step.touched s n hs).one

theorem nextTask (ht : Touched h h') : h'.nextTask = h.nextTask := by
  obtain ⟨s, n, -, rfl⟩ := ht
  rfl

/-- What is answered after a look at sessions. -/
theorem answered (ht : Touched h h') {a : Answer} (ha : a.stream? = none) :
    Steps ⟨h, []⟩ [] ⟨(h'.answered a).2, []⟩ :=
  ht.steps.trans (Step.answered ha).one

end Touched

theorem touched_namedSession (h : Hub) (r : Request) : Touched h (h.namedSession r).2 := by
  unfold namedSession
  split
  · exact .refl h
  · next session _ =>
    split
    · next s hs =>
      obtain rfl : s = (h.sessions.touch session h.now).2 := by rw [hs]
      exact ⟨_, _, .touch .., rfl⟩
    · exact .refl h

theorem touched_callerSession (h : Hub) (r : Request) : Touched h (h.callerSession r).2 := by
  have ht := touched_namedSession h r
  unfold callerSession
  split
  · next hn => simpa [hn] using ht
  · next hn => split <;> simpa [hn] using ht

/-- A handshake goes to one session: the live one that is named, or a new one with the next id. -/
theorem handshakeSession_eq (h : Hub) (r : Request) :
    ∃ (id : String) (n : Nat), h.handshakeSession r =
        (id, { h with sessions := h.sessions.create id h.now h.wall, sessionsNamed := n }) ∧
      (h.sessions.has id = true ∧ n = h.sessionsNamed ∨
        id = h.sessionId (h.sessionsNamed + 1) ∧ n = h.sessionsNamed + 1) := by
  unfold handshakeSession
  cases r.value? Http.sessionHeader with
  | none => exact ⟨_, _, rfl, .inr ⟨rfl, rfl⟩⟩
  | some session =>
    cases hs : h.sessions.has session
    · exact ⟨h.sessionId (h.sessionsNamed + 1), h.sessionsNamed + 1, by simp only [hs]; rfl,
        .inr ⟨rfl, rfl⟩⟩
    · exact ⟨session, h.sessionsNamed, by simp only [hs]; rfl, .inl ⟨hs, rfl⟩⟩

theorem touched_handshakeSession (h : Hub) (r : Request) : Touched h (h.handshakeSession r).2 := by
  obtain ⟨id, n, he, ⟨live, rfl⟩ | ⟨rfl, rfl⟩⟩ := handshakeSession_eq h r
  · rw [he]
    exact ⟨_, _, .create_live live .., rfl⟩
  · rw [he]
    exact ⟨_, _, .create_next .., rfl⟩

/-! ## Methods -/

theorem touched_notice (h : Hub) (session : Option String) (method : String) :
    Touched h (h.notice session method) := by
  unfold notice
  split
  · next session =>
    exact ⟨(h.sessions.confirm session).2, h.sessionsNamed, .confirm .., rfl⟩
  · exact .refl h

theorem touched_handshake (h : Hub) (session : Option String) (q : Rpc.Request) :
    Touched h (h.handshake session q).2 := by
  unfold handshake
  split
  · exact .refl h
  · next id =>
    dsimp only
    split
    · next version sessions hn =>
      exact ⟨sessions, h.sessionsNamed, .negotiate hn .., rfl⟩
    · exact .refl h

/-- Whatever a request asks for, until a tool runs sessions are all that changes; and a call of a
tool changes not even those. -/
theorem handling_cases (h : Hub) (session : Option String) (q : Rpc.Request) :
    Touched h (h.handling session q).2 ∧
      ∀ id name args, (h.handling session q).1 = .tool id name args → (h.handling session q).2 = h := by
  unfold handling
  split
  · exact ⟨touched_notice h session q.method, fun _ _ _ he => by cases he⟩
  · split
    · exact ⟨touched_handshake h session q, fun _ _ _ he => by cases he⟩
    · exact ⟨.refl h, fun _ _ _ _ => rfl⟩
    · exact ⟨.refl h, fun _ _ _ _ => rfl⟩
    · split <;> exact ⟨.refl h, fun _ _ _ _ => rfl⟩
    · exact ⟨.refl h, fun _ _ _ _ => rfl⟩
    · exact ⟨.refl h, fun _ _ _ _ => rfl⟩
    · exact ⟨.refl h, fun _ _ _ _ => rfl⟩
    · exact ⟨.refl h, fun _ _ _ _ => rfl⟩

/-- A call that can be read is left to its tool. -/
theorem handling_of_call (h : Hub) (session : Option String) {q : Rpc.Request} {id : Json}
    {call : Rpc.ToolCall} (hid : q.id = some id) (hm : q.method = "tools/call")
    (hread : params Rpc.ToolCall.decode q = .ok call) :
    h.handling session q = (.tool id call.name (Json.orNull call.arguments), h) := by
  rw [handling, hid]
  simp only [hm, hread]

/-! ## Tools -/

theorem stream?_toolAnswer (reply : ToolReply) (r : Except ToolError Tool.Result) :
    (toolAnswer reply r).stream? = none := by
  cases reply <;> rfl

theorem stream?_commandAnswer (reply : CommandReply) (r : Except CommandError Broker.Ack) :
    (commandAnswer reply r).stream? = none := by
  cases reply with
  | ack => rfl
  | tool command reply => exact stream?_toolAnswer reply _

/-- A call of a tool on this bridge acknowledges a command, and the acknowledgement is accepted. -/
def ToolAccepts (h : Hub) (name : String) (args : Json) (c : Tool.Context) (x : Broker.Claimed) :
    Prop :=
  name = Tool.ackCommand.name ∧ c.ready? = some x.session ∧
    Broker.Ack.decode (Tool.Registry.arguments args) = .ok x.ack ∧ x.wall = h.wall ∧
    ∃ result, (h.tools.execute name args c h.services).1 = .result result ∧ result.isError = false

/-- A mark of an action tells what the action was. -/
def Mark.Of (h : Hub) (a : Action) : Mark → Prop
  | .refreshed x => h.refresh? a = some x
  | .acked x => ∃ r, a = .event (.request r) ∧ h.AcceptsAck r x
  | .abandoned id => a = .event (.abandon id)

theorem ready?_toolContext {h : Hub} {session session' : String}
    (hr : (h.toolContext (some session)).ready? = some session') :
    session = session' ∧ h.sessions.isInitialized session = true := by
  refine ⟨Tool.session_of_ready? hr, ?_⟩
  cases hi : h.sessions.isInitialized session with
  | true => rfl
  | false =>
    simp only [toolContext, Option.map_some, Option.getD_some, hi] at hr
    cases hr

theorem ofCall?_arguments (name session : String) (args : Json) (wall : Timestamp) :
    Refresh.ofCall? name (Tool.Registry.arguments args) session wall =
      Refresh.ofCall? name args session wall := by
  cases args <;> rfl

theorem ofCall?_eq_none {name : String} (h : name ≠ Tool.syncSnapshot.name ∧ name ≠ Tool.ping.name)
    (session : String) (args : Json) (wall : Timestamp) :
    Refresh.ofCall? name args session wall = none := by
  simp [Refresh.ofCall?, h]

theorem of_ofCall? {name session : String} {args : Json} {wall : Timestamp} {x : Refresh}
    (hx : Refresh.ofCall? name args session wall = some x) : x.session = session ∧ x.wall = wall := by
  unfold Refresh.ofCall? at hx
  split_ifs at hx <;> cases hx <;> exact ⟨rfl, rfl⟩

/-- What a call of a tool does, in small steps: a snapshot is refreshed in them if the call tells so,
and an acknowledgement is accepted only if the call gives one. -/
theorem execute_steps {h : Hub} (hp : h.path = .streams) (ht : h.tools = .standard)
    (reply : ToolReply) (call : ToolCall) :
    ∃ log, Steps ⟨h, []⟩ log
        ⟨(h.execute reply call.name call.args (h.toolContext (some call.session))).2, []⟩ ∧
      (∀ mark ∈ log, (∃ x, mark = .refreshed x ∧ h.refreshOf? call = some x) ∨
        ∃ x, mark = .acked x ∧
          h.ToolAccepts call.name call.args (h.toolContext (some call.session)) x) ∧
      log.filterMap Mark.refresh? = (h.refreshOf? call).toList := by
  have hran := Tool.execute_ran call.name call.args (h.toolContext (some call.session)) h.services
  unfold execute ToolAccepts refreshOf?
  rw [ht]
  generalize Tool.Registry.standard.execute call.name call.args
    (h.toolContext (some call.session)) h.services = run at hran
  obtain ⟨o, s⟩ := run
  cases hran with
  | answers ho hr =>
    cases o with
    | result r =>
      refine ⟨[], (Step.answered (stream?_toolAnswer ..)).one, by simp, ?_⟩
      cases he : r.isError with
      | true => simp [he]
      | false => simp [he, ofCall?_eq_none (hr r rfl he)]
    | error e => exact ⟨[], (Step.answered (stream?_toolAnswer ..)).one, by simp, rfl⟩
    | panic detail => exact ⟨[], (Step.answered (stream?_toolAnswer ..)).one, by simp, rfl⟩
    | command o => exact absurd rfl (ho o)
  | @refreshes session x result hs hx ha hr =>
    obtain ⟨rfl, hinit⟩ := ready?_toolContext hs
    rw [ofCall?_arguments] at hx
    have hsession := of_ofCall? hx
    have stored : Step ⟨h, []⟩ [.refreshed x] _ := .stored hsession.2 (hsession.1 ▸ hinit) ha
    have hrefresh : (if result.isError then none else
        Refresh.ofCall? call.name call.args call.session h.wall) = some x := by
      rw [hr]
      exact hx
    refine ⟨[.refreshed x], stored.one.trans (Step.answered (stream?_toolAnswer ..)).one, ?_, ?_⟩
    · rintro mark hm
      obtain rfl := List.mem_singleton.1 hm
      exact .inl ⟨x, rfl, hrefresh⟩
    · simp only [hrefresh]
      rfl
  | @acks session a result hn hs ha hb hr =>
    refine ⟨[.acked ⟨session, a, h.wall⟩], ?_, ?_, ?_⟩
    · have acked : Step ⟨h, []⟩ [.acked ⟨session, a, h.wall⟩] _ := .acked rfl hb
      exact acked.one.trans (Step.answered (stream?_toolAnswer ..)).one
    · rintro mark hm
      obtain rfl := List.mem_singleton.1 hm
      exact .inr ⟨_, rfl, hn, hs, ha, rfl, result, rfl, hr⟩
    · have hnone : Refresh.ofCall? call.name call.args call.session h.wall = none :=
        ofCall?_eq_none (by rw [hn]; decide) ..
      simp only [hr, hnone]
      rfl
  | @orders o hn hl => exact ⟨[], dispatch_steps hp _ o, by simp, rfl⟩

/-! ## Routes -/

theorem isInitialized_callerSession (h : Hub) (r : Request) (session : String) :
    (h.callerSession r).2.sessions.isInitialized session = h.sessions.isInitialized session := by
  have named : (h.namedSession r).2.sessions.isInitialized session =
      h.sessions.isInitialized session := by
    unfold namedSession
    split
    · rfl
    · next caller _ =>
      split
      · next s hs =>
        obtain rfl : s = (h.sessions.touch caller h.now).2 := by rw [hs]
        exact Sessions.isInitialized_touch ..
      · rfl
  unfold callerSession
  split
  · next hn => simpa [hn] using named
  · next hn => split <;> simpa [hn] using named

theorem toolContext_callerSession (h : Hub) (r : Request) (session : String) :
    (h.callerSession r).2.toolContext (some session) = h.toolContext (some session) := by
  simp [toolContext, isInitialized_callerSession]

/-- How a request comes to call a tool. -/
theorem toolCall?_eq_some {h : Hub} {r : Request} {call : ToolCall}
    (hc : h.toolCall? r = some call) : r.method = "POST" ∧ r.route = "/mcp" ∧
      r.body.length ≤ h.config.maxBodyBytes ∧ ∃ q, Rpc.Frame.parse r.body = .request q ∧
        q.isHandshake = false ∧ (h.callerSession r).1 = .ok call.session ∧
        ((h.callerSession r).2.handling (some call.session) q).1 =
          .tool call.id call.name call.args := by
  unfold toolCall? at hc
  split_ifs at hc with hr
  obtain ⟨hm, hroute, hl⟩ := hr
  refine ⟨hm, hroute, hl, ?_⟩
  split at hc
  · next q hq =>
    refine ⟨q, hq, ?_⟩
    split_ifs at hc with hh
    split at hc
    · next session h' hs =>
      split at hc
      · next id name args h'' hx =>
        cases hc
        simp [hh, hs, hx]
      · cases hc
    · cases hc
  · cases hc

theorem toolCall?_of_handling {h : Hub} {r : Request} {q : Rpc.Request} {session name : String}
    {id args : Json} (hm : r.method = "POST") (hr : r.route = "/mcp")
    (hl : r.body.length ≤ h.config.maxBodyBytes) (hq : Rpc.Frame.parse r.body = .request q)
    (hh : q.isHandshake = false) (hs : (h.callerSession r).1 = .ok session)
    (hx : ((h.callerSession r).2.handling (some session) q).1 = .tool id name args) :
    h.toolCall? r = some ⟨session, id, name, args⟩ := by
  rcases hc : h.callerSession r with ⟨caller, h'⟩
  simp only [hc] at hs hx
  subst hs
  rcases hd : h'.handling (some session) q with ⟨handled, h''⟩
  simp only [hd] at hx
  subst hx
  simp [toolCall?, hm, hr, hl, hq, hh, hc, hd]

/-- What a request that is let in and calls a tool does: it calls the tool. -/
theorem request_of_toolCall {h : Hub} {r : Request} {call : ToolCall}
    (hc : h.toolCall? r = some call) :
    h.request r = (h.callerSession r).2.execute (.response call.id) call.name call.args
      (h.toolContext (some call.session)) := by
  obtain ⟨hm, hroute, hl, q, hq, hh, hs, hx⟩ := toolCall?_eq_some hc
  rw [← toolContext_callerSession]
  have hsame := ((h.callerSession r).2.handling_cases (some call.session) q).2 _ _ _ hx
  rcases hc' : h.callerSession r with ⟨caller, h'⟩
  simp only [hc'] at hs hx hsame
  subst hs
  rcases hd : h'.handling (some call.session) q with ⟨handled, h''⟩
  simp only [hd] at hx hsame
  subst hx hsame
  simp [request, hm, hroute, post, Nat.not_lt.2 hl, hq, hh, postCall, hc', hd]

/-- What a request that is let in and calls no tool does: it is answered. -/
theorem request_of_now {h : Hub} {r : Request} {q : Rpc.Request} {session : String}
    {m : Option Rpc.Message} (hm : r.method = "POST") (hr : r.route = "/mcp")
    (hl : r.body.length ≤ h.config.maxBodyBytes) (hq : Rpc.Frame.parse r.body = .request q)
    (hh : q.isHandshake = false) (hs : (h.callerSession r).1 = .ok session)
    (hx : ((h.callerSession r).2.handling (some session) q).1 = .now m) :
    h.request r = ((h.callerSession r).2.handling (some session) q).2.answered
      (.response (responseOf m)) := by
  rcases hc : h.callerSession r with ⟨caller, h'⟩
  simp only [hc] at hs hx ⊢
  subst hs
  rcases hd : h'.handling (some session) q with ⟨handled, h''⟩
  simp only [hd] at hx
  subst hx
  simp [request, hm, hr, post, Nat.not_lt.2 hl, hq, hh, postCall, hc, hd]

/-- A request is answered at once, by a response. -/
def AnswersAtOnce (h : Hub) (r : Request) (response : Http.Response) : Prop :=
  (h.request r).2.answers = h.answers ++ [((h.request r).1, .response response)]

theorem Touched.answersAtOnce {h h' : Hub} (ht : Touched h h') {r : Request}
    {response : Http.Response} (he : h.request r = h'.answered (.response response)) :
    h.AnswersAtOnce r response := by
  obtain ⟨sessions, n, -, rfl⟩ := ht
  rw [AnswersAtOnce, he]
  rfl

theorem postHandshake_steps (h : Hub) (r : Request) (q : Rpc.Request) :
    Steps ⟨h, []⟩ [] ⟨(h.postHandshake r q).2, []⟩ := by
  unfold postHandshake
  dsimp only
  split
  · exact (Touched.refl h).answered rfl
  · have seen := (touched_handshakeSession h r).trans
      ((h.handshakeSession r).2.handling_cases (some (h.handshakeSession r).1) q).1
    split
    · next hd =>
      rw [hd] at seen
      exact seen.answered rfl
    · next hd =>
      rw [hd] at seen
      exact seen.answered rfl

/-- A message that calls no tool is answered after a look at sessions. -/
theorem postCall_steps {h : Hub} {r : Request} {q : Rpc.Request}
    (hn : ∀ session id name args, (h.callerSession r).1 = .ok session →
      ((h.callerSession r).2.handling (some session) q).1 ≠ .tool id name args) :
    Steps ⟨h, []⟩ [] ⟨(h.postCall r q).2, []⟩ := by
  have seen := touched_callerSession h r
  unfold postCall
  split
  · next hc =>
    rw [hc] at seen
    exact seen.answered rfl
  · next session h' hc =>
    rw [hc] at seen hn
    have handled := seen.trans (h'.handling_cases (some session) q).1
    split
    · next m _ hd =>
      rw [hd] at handled
      exact handled.answered (by cases m <;> rfl)
    · next hd => exact absurd (by rw [hd]) (hn session _ _ _ rfl)

theorem post_steps {h : Hub} {r : Request} (hm : r.method = "POST") (hr : r.route = "/mcp")
    (hn : h.toolCall? r = none) : Steps ⟨h, []⟩ [] ⟨(h.post r).2, []⟩ := by
  unfold post
  split_ifs with hl
  · exact (Touched.refl h).answered rfl
  · split
    · exact (Touched.refl h).answered rfl
    · have seen := touched_callerSession h r
      split
      · next hc =>
        rw [hc] at seen
        exact seen.answered rfl
      · next hc =>
        rw [hc] at seen
        exact seen.answered rfl
    · next q hq =>
      split_ifs with hh
      · exact postHandshake_steps h r q
      · refine postCall_steps fun session id name args hs hx => ?_
        have := toolCall?_of_handling hm hr (Nat.not_lt.1 hl) hq (by simpa using hh) hs hx
        cases hn.symm.trans this

theorem subscribe_steps (h : Hub) (r : Request) :
    Steps ⟨h, []⟩ [] ⟨(h.subscribe r).2, []⟩ := by
  have seen := touched_namedSession h r
  unfold subscribe
  split
  · exact (Touched.refl h).answered rfl
  · split
    · next hs =>
      rw [hs] at seen
      exact seen.answered rfl
    · next session h' hs =>
      rw [hs] at seen
      split
      · exact seen.answered rfl
      · next hv =>
        split
        · exact seen.answered rfl
        · cases hx : h'.sessions.get? session with
          | none => simp [Sessions.version?, hx] at hv
          | some x => exact seen.steps.trans (Step.subscribed hx).one

theorem terminate_steps (h : Hub) (r : Request) : Steps ⟨h, []⟩ [] ⟨(h.terminate r).2, []⟩ := by
  unfold terminate
  split
  · exact (Touched.refl h).answered rfl
  · next session _ =>
    have ended : Step ⟨h, []⟩ [] ⟨(h.endSession session).2, []⟩ := .ended session
    split
    · next hs =>
      rw [hs] at ended
      exact ended.then (Step.answered rfl).one
    · next hs =>
      rw [hs] at ended
      exact ended.then (Step.answered rfl).one

/-- What a request does, in small steps; their marks tell of the request. -/
theorem request_steps {h : Hub} (hp : h.path = .streams) (ht : h.tools = .standard) (r : Request) :
    ∃ log, Steps ⟨h, []⟩ log ⟨(h.request r).2, []⟩ ∧
      (∀ mark ∈ log, mark.Of h (.event (.request r))) ∧
      log.filterMap Mark.refresh? = (h.refresh? (.event (.request r))).toList := by
  cases hc : h.toolCall? r with
  | some call =>
    rw [request_of_toolCall hc]
    have seen := touched_callerSession h r
    obtain ⟨sessions, n, -, he⟩ := id seen
    obtain ⟨log, hlog, hall, hrefresh⟩ := execute_steps (h := (h.callerSession r).2)
      (by rw [he]; exact hp) (by rw [he]; exact ht) (.response call.id) call
    have hcontext := toolContext_callerSession h r call.session
    rw [hcontext] at hlog hall
    have hservices : (h.callerSession r).2.services = h.services := by rw [he]; rfl
    have htools : (h.callerSession r).2.tools = h.tools := by rw [he]
    have hwall : (h.callerSession r).2.wall = h.wall := by rw [he]; rfl
    have hsame : (h.callerSession r).2.refreshOf? call = h.refreshOf? call := by
      simp only [refreshOf?, hservices, htools, hcontext, hwall]
    have hof : h.refresh? (.event (.request r)) = h.refreshOf? call := by
      simp only [refresh?, hc, Option.bind_some]
    refine ⟨log, seen.steps.trans hlog, fun mark hm => ?_, ?_⟩
    · rcases hall mark hm with ⟨x, rfl, hx⟩ | ⟨x, rfl, hname, hready, hdecode, hx, hresult⟩
      · exact hof.trans (hsame.symm.trans hx)
      · rw [hservices, htools] at hresult
        exact ⟨r, rfl, call, hc, hname, Tool.session_of_ready? hready, hdecode, hx.trans hwall,
          hresult⟩
    · rw [hrefresh, hsame, hof]
  | none =>
    have hof : h.refresh? (.event (.request r)) = none := by
      simp only [refresh?, hc, Option.bind_none]
    refine ⟨[], ?_, by simp, by rw [hof]; rfl⟩
    unfold request
    split
    · next hm hr => exact post_steps hm hr hc
    · exact subscribe_steps h r
    · exact terminate_steps h r
    · exact (Touched.refl h).answered rfl
    · exact (Touched.refl h).answered rfl

end Hub

end EditorBridge
