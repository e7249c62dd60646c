import EditorBridge.Proofs.Hub.Request
/-!
# Who is let in

A POST carries one message. What does not parse is refused, and so is a body
that is too long. A handshake is let in unless it names a version that is not
supported; every other message has to name a live session and must not
contradict its version.

The rule is stated without the order in which the routes look at the headers,
and `callerSession_eq_ok_iff` and `callerSession_eq_error_iff` say that it is
theirs. What is refused, and what wants no answer, is answered at once.
-/

namespace EditorBridge

open Http (Request sessionHeader versionHeader)

/-! ## Messages and frames -/

namespace Rpc

/-- A message answers a request: it has the id of the request and one outcome. -/
structure Message.Answers (m : Message) (id : Json) : Prop where
  version : m.jsonrpc = Rpc.version
  id : m.id = some id
  method : m.method = none
  params : m.params = none
  outcome : m.result.isSome = !m.error.isSome

theorem Message.answers_response (id result : Json) : (Message.response id result).Answers id :=
  ⟨rfl, rfl, rfl, rfl, rfl⟩

theorem Message.answers_errorReply (id : Json) (e : Error) : (Message.errorReply id e).Answers id :=
  ⟨rfl, rfl, rfl, rfl, rfl⟩

namespace Frame

/-- The id that a message other than a handshake is refused with. -/
def replyId? : Frame → Option Json
  | .oneWay => some .null
  | .request q => if q.isHandshake then none else some q.replyId
  | .rejected _ => none

/-- A message that wants no answer. -/
def IsNote : Frame → Prop
  | .oneWay => True
  | .request q => q.isHandshake = false ∧ q.id = none
  | .rejected _ => False

theorem ofCall_request {id : Option Json} {method : String} {members : Json.Members} {q : Request}
    (h : ofCall id method members = .request q) :
    q.id = id ∧ q.method = method ∧ ¬ (method = handshakeMethod ∧ id = none) := by
  have accepted {params : Option Json}
      (h : (if method = handshakeMethod ∧ id = none then
        invalid .null "initialize requires an id" else .request ⟨id, method, params⟩) =
          Frame.request q) :
      q.id = id ∧ q.method = method ∧ ¬ (method = handshakeMethod ∧ id = none) := by
    split_ifs at h with hm
    · cases h
    · cases h
      exact ⟨rfl, rfl, hm⟩
  unfold ofCall at h
  dsimp only at h
  split at h
  · cases h
  · split at h
    · exact accepted h
    · exact accepted h
    · cases h

theorem ofMembers_request {id : Option Json} {members : Json.Members} {q : Request}
    (h : ofMembers id members = .request q) (hq : q.isHandshake = true) : ∃ id, q.id = some id := by
  unfold ofMembers at h
  split at h
  · cases h
  · split at h
    · unfold ofResponse at h
      split at h
      · cases h
      · cases h
      · split at h <;> cases h
    · split at h
      · cases h
      · obtain ⟨hid, hm, hn⟩ := ofCall_request h
        have handshake : q.method = handshakeMethod := of_decide_eq_true hq
        cases hi : q.id with
        | some id => exact ⟨id, rfl⟩
        | none => exact absurd ⟨hm.symm.trans handshake, hid.symm.trans hi⟩ hn
    · cases h

/-- A handshake can be answered. -/
theorem id_of_parse {body : Text.Bytes} {q : Request} (h : parse body = .request q)
    (hq : q.isHandshake = true) : ∃ id, q.id = some id := by
  unfold parse at h
  split at h
  · next j hj =>
    unfold ofJson at h
    split at h
    · split at h
      · exact ofMembers_request h hq
      · split at h
        · exact ofMembers_request h hq
        · cases h
    · cases h
    · cases h
  · cases h

end Frame

end Rpc

/-! ## Versions and sessions -/

theorem isSupportedVersion_iff (v : String) : isSupportedVersion v = true ↔ v ∈ supportedVersions :=
  List.contains_iff_mem

namespace Session

/-- A session takes a message that names a version, or none. -/
def Takes (s : Session) (version : Option String) : Prop :=
  match s.version with
  | some negotiated => ∀ received, version = some received → received = negotiated
  | none => ∃ received, version = some received ∧ received ∈ supportedVersions

/-- Why it does not. -/
inductive Declines (s : Session) : Option String → SessionRefusal → Prop
  | mismatch {negotiated received : String} : s.version = some negotiated →
      received ≠ negotiated → Declines s (some received) (.protocolVersionMismatch negotiated received)
  | missing : s.version = none → Declines s none .missingProtocolVersion
  | unsupported {received : String} : s.version = none → received ∉ supportedVersions →
      Declines s (some received) (.unsupportedProtocolVersion received)

end Session

namespace Sessions

variable {sessions : Sessions} {id : String} {s : Session}

theorem checkVersion_eq_ok_iff (hs : sessions.get? id = some s) (version : Option String) :
    sessions.checkVersion id version = .ok () ↔ s.Takes version := by
  cases hv : s.version with
  | none =>
    cases version with
    | none => simp [checkVersion, Session.Takes, hs, hv]
    | some received => simp [checkVersion, Session.Takes, hs, hv, isSupportedVersion_iff]
  | some negotiated =>
    cases version with
    | none => simp [checkVersion, Session.Takes, hs, hv]
    | some received =>
      simp only [checkVersion, Session.Takes, hs, hv, Option.some.injEq, forall_eq']
      split_ifs with hr
      · simp [hr]
      · simp [Ne.symm hr]

theorem checkVersion_eq_error_iff (hs : sessions.get? id = some s) (version : Option String)
    (e : SessionRefusal) : sessions.checkVersion id version = .error e ↔ s.Declines version e := by
  constructor
  · intro h
    unfold checkVersion at h
    rw [hs] at h
    cases hv : s.version with
    | none =>
      cases version with
      | none =>
        simp only [hv] at h
        cases h
        exact .missing hv
      | some received =>
        simp only [hv] at h
        split_ifs at h with hr
        cases h
        exact .unsupported hv fun hm => hr ((isSupportedVersion_iff received).2 hm)
    | some negotiated =>
      cases version with
      | none => simp [hv] at h
      | some received =>
        simp only [hv] at h
        split_ifs at h with hr
        cases h
        exact .mismatch hv (Ne.symm hr)
  · rintro (⟨hv, hr⟩ | hv | ⟨hv, hr⟩)
    · simp [checkVersion, hs, hv, Ne.symm hr]
    · simp [checkVersion, hs, hv]
    · simp [checkVersion, hs, hv, isSupportedVersion_iff, hr]

theorem checkVersion_touch (sessions : Sessions) (id : String) (now : Nanos) (version : Option String) :
    (sessions.touch id now).2.checkVersion id version = sessions.checkVersion id version := by
  have seen : Table.get? (sessions.touch id now).2 id =
      (sessions.get? id).map fun session => { session with lastSeen := now } := by
    show Table.get? (sessions.modify id _) id = _
    rw [Table.get?_modify, if_pos rfl]
  rw [checkVersion, checkVersion, seen]
  cases sessions.get? id <;> rfl

end Sessions

namespace Hub

open Http (Response)

/-! ## Who is let in -/

/-- A message other than a handshake is let in, for a session. -/
def Admits (h : Hub) (r : Request) (session : String) : Prop :=
  r.value? sessionHeader = some session ∧
    ∃ s, h.sessions.get? session = some s ∧ s.Takes (r.value? versionHeader)

/-- It is refused, with a status and for a reason. -/
inductive Refuses (h : Hub) (r : Request) : Nat → SessionRefusal → Prop
  | missing : r.value? sessionHeader = none → Refuses h r 400 .missingSessionId
  | unknown {session : String} : r.value? sessionHeader = some session →
      h.sessions.get? session = none → Refuses h r 404 (.notFound session)
  | version {session : String} {s : Session} {e : SessionRefusal} :
      r.value? sessionHeader = some session → h.sessions.get? session = some s →
      s.Declines (r.value? versionHeader) e → Refuses h r 400 e

section Caller

variable {h : Hub} {r : Request} {session : String}

theorem callerSession_of_missing (hr : r.value? sessionHeader = none) :
    (h.callerSession r).1 = .error .missingSessionId := by
  simp [callerSession, namedSession, hr]

theorem callerSession_of_unknown (hr : r.value? sessionHeader = some session)
    (hs : h.sessions.get? session = none) :
    (h.callerSession r).1 = .error (.notFound session) := by
  simp [callerSession, namedSession, hr, Sessions.touch, Sessions.update, Table.has, hs]

theorem callerSession_of_known {s : Session} (hr : r.value? sessionHeader = some session)
    (hs : h.sessions.get? session = some s) : (h.callerSession r).1 =
      (h.sessions.checkVersion session (r.value? versionHeader)).map fun _ => session := by
  have hv := Sessions.checkVersion_touch h.sessions session h.now (r.value? versionHeader)
  obtain ⟨sessions, hx⟩ : ∃ sessions, h.sessions.touch session h.now = (true, sessions) :=
    ⟨_, Prod.ext (by simp [Sessions.touch, Sessions.update, Table.has, hs]) rfl⟩
  rw [hx] at hv
  simp only [callerSession, namedSession, hr, hx, hv]
  cases h.sessions.checkVersion session (r.value? versionHeader) <;> rfl

/-- The routes let in just these messages. -/
theorem callerSession_eq_ok_iff : (h.callerSession r).1 = .ok session ↔ h.Admits r session := by
  constructor
  · intro hok
    cases hr : r.value? sessionHeader with
    | none => cases (callerSession_of_missing hr).symm.trans hok
    | some named =>
      cases hs : h.sessions.get? named with
      | none => cases (callerSession_of_unknown hr hs).symm.trans hok
      | some s =>
        rw [callerSession_of_known hr hs] at hok
        cases hv : h.sessions.checkVersion named (r.value? versionHeader) with
        | error e => simp [hv, Except.map] at hok
        | ok =>
          obtain rfl : named = session := by simpa [hv, Except.map] using hok
          exact ⟨hr, s, hs, (Sessions.checkVersion_eq_ok_iff hs _).1 hv⟩
  · rintro ⟨hr, s, hs, ht⟩
    rw [callerSession_of_known hr hs, (Sessions.checkVersion_eq_ok_iff hs _).2 ht]
    rfl

theorem refusalStatus_of_declines {s : Session} {version : Option String} {e : SessionRefusal}
    (hd : s.Declines version e) : refusalStatus e = 400 := by
  cases hd <;> rfl

/-- And they refuse the others, for these reasons. -/
theorem callerSession_eq_error_iff {status : Nat} {e : SessionRefusal} :
    (h.callerSession r).1 = .error e ∧ status = refusalStatus e ↔ h.Refuses r status e := by
  constructor
  · rintro ⟨herr, rfl⟩
    cases hr : r.value? sessionHeader with
    | none =>
      cases (callerSession_of_missing hr).symm.trans herr
      exact .missing hr
    | some named =>
      cases hs : h.sessions.get? named with
      | none =>
        cases (callerSession_of_unknown hr hs).symm.trans herr
        exact .unknown hr hs
      | some s =>
        rw [callerSession_of_known hr hs] at herr
        cases hv : h.sessions.checkVersion named (r.value? versionHeader) with
        | ok => simp [hv, Except.map] at herr
        | error e' =>
          obtain rfl : e' = e := by simpa [hv, Except.map] using herr
          have hd := (Sessions.checkVersion_eq_error_iff hs _ _).1 hv
          rw [refusalStatus_of_declines hd]
          exact .version hr hs hd
  · rintro (hr | ⟨hr, hs⟩ | ⟨hr, hs, hd⟩)
    · exact ⟨callerSession_of_missing hr, rfl⟩
    · exact ⟨callerSession_of_unknown hr hs, rfl⟩
    · rw [callerSession_of_known hr hs, (Sessions.checkVersion_eq_error_iff hs _ _).2 hd]
      exact ⟨rfl, (refusalStatus_of_declines hd).symm⟩

/-- A message is let in or refused, never both. -/
theorem admits_iff_not_refuses :
    (∃ session, h.Admits r session) ↔ ¬ ∃ status e, h.Refuses r status e := by
  cases hc : (h.callerSession r).1 with
  | ok session =>
    refine iff_of_true ⟨session, callerSession_eq_ok_iff.1 hc⟩ ?_
    rintro ⟨status, e, he⟩
    cases hc.symm.trans (callerSession_eq_error_iff.2 he).1
  | error e =>
    refine iff_of_false ?_ fun hn => hn ⟨_, e, callerSession_eq_error_iff.1 ⟨hc, rfl⟩⟩
    rintro ⟨session, hs⟩
    cases hc.symm.trans (callerSession_eq_ok_iff.2 hs)

end Caller

/-! ## What is answered at once -/

/-- The answer to a body that is too long. -/
def tooLong : Response :=
  ⟨413, some "text/plain; charset=utf-8", none, none, .text "payload reached size limit"⟩

section Post

variable {h : Hub} {r : Request}

theorem answers_tooLong (hm : r.method = "POST") (hr : r.route = "/mcp")
    (hl : h.config.maxBodyBytes < r.body.length) : h.AnswersAtOnce r tooLong :=
  (Touched.refl h).answersAtOnce (by simp [request, hm, hr, post, hl, tooLong])

variable (hm : r.method = "POST") (hr : r.route = "/mcp")
  (hl : r.body.length ≤ h.config.maxBodyBytes)

include hm hr hl

theorem answers_rejected {m : Rpc.Message} (hq : Rpc.Frame.parse r.body = .rejected m) :
    h.AnswersAtOnce r (.message 400 m) :=
  (Touched.refl h).answersAtOnce (by simp [request, hm, hr, post, Nat.not_lt.2 hl, hq])

theorem answers_refusal {id : Json} (hq : (Rpc.Frame.parse r.body).replyId? = some id)
    {status : Nat} {e : SessionRefusal} (he : h.Refuses r status e) :
    h.AnswersAtOnce r (.refusal status id e.toRpc) := by
  obtain ⟨hc, rfl⟩ := callerSession_eq_error_iff.2 he
  refine (touched_callerSession h r).answersAtOnce ?_
  rcases hx : h.callerSession r with ⟨caller, h'⟩
  rw [hx] at hc
  obtain rfl : caller = .error e := hc
  cases hp : Rpc.Frame.parse r.body with
  | rejected m =>
    rw [hp] at hq
    cases hq
  | oneWay =>
    rw [hp] at hq
    cases hq
    simp [request, hm, hr, post, Nat.not_lt.2 hl, hp, hx, refuse]
  | request q =>
    rw [hp] at hq
    obtain ⟨hh, rfl⟩ : q.isHandshake = false ∧ q.replyId = id := by
      simpa [Rpc.Frame.replyId?] using hq
    simp [request, hm, hr, post, Nat.not_lt.2 hl, hp, hh, postCall, hx, refuse]

theorem answers_note (hn : (Rpc.Frame.parse r.body).IsNote) {session : String}
    (ha : h.Admits r session) : h.AnswersAtOnce r (.plain 202) := by
  have hc := callerSession_eq_ok_iff.2 ha
  have seen := touched_callerSession h r
  cases hp : Rpc.Frame.parse r.body with
  | rejected m =>
    rw [hp] at hn
    cases hn
  | oneWay =>
    refine seen.answersAtOnce ?_
    rcases hx : h.callerSession r with ⟨caller, h'⟩
    rw [hx] at hc
    obtain rfl : caller = .ok session := hc
    simp [request, hm, hr, post, Nat.not_lt.2 hl, hp, hx]
  | request q =>
    rw [hp] at hn
    obtain ⟨hh, hid⟩ := hn
    have hnow : ((h.callerSession r).2.handling (some session) q).1 = .now none := by
      simp [handling, hid]
    exact (seen.trans (handling_cases _ _ q).1).answersAtOnce
      (request_of_now hm hr hl hp hh hc hnow)

end Post

section Unknown

variable {h : Hub} {r : Request} {session : String} (hr : r.route = "/mcp")
  (hv : r.value? sessionHeader = some session) (hs : h.sessions.get? session = none)

include hr hv hs

/-- Nobody gets the stream of a session that does not live, -/
theorem answers_unknownStream (hm : r.method = "GET") (ha : r.acceptsStream = true) :
    h.AnswersAtOnce r (.refusal 404 .null (SessionRefusal.notFound session).toRpc) := by
  refine (Touched.refl h).answersAtOnce ?_
  simp [request, hm, hr, subscribe, ha, namedSession, hv, Sessions.touch, Sessions.update, Table.has,
    hs, refuse, refusalStatus]

/-- and nobody can end it. -/
theorem answers_unknownEnd (hm : r.method = "DELETE") :
    h.AnswersAtOnce r (.refusal 404 .null (SessionRefusal.notFound session).toRpc) := by
  refine (Touched.refl h).answersAtOnce ?_
  simp [request, hm, hr, terminate, hv, endSession, hs, refuse, refusalStatus]

end Unknown

theorem answers_reply (id : Json) (o : Except Rpc.Error Json) : (reply id o).Answers id := by
  cases o with
  | ok result => exact Rpc.Message.answers_response id result
  | error e => exact Rpc.Message.answers_errorReply id e

theorem answers_toolMessage (id : Json) (o : Except ToolError Tool.Result) :
    (toolMessage id o).Answers id := by
  cases o with
  | ok result => exact Rpc.Message.answers_response id _
  | error e => exact Rpc.Message.answers_errorReply id _

/-- A request with an id is answered with it, now or by a tool. -/
theorem handling_of_id (h : Hub) (session : Option String) {q : Rpc.Request} {id : Json}
    (hid : q.id = some id) :
    (∃ o, (h.handling session q).1 = .now (some (reply id o))) ∨
      ∃ name args, (h.handling session q).1 = .tool id name args := by
  unfold handling
  rw [hid]
  dsimp only
  split
  · exact .inl ⟨_, rfl⟩
  · exact .inl ⟨_, rfl⟩
  · exact .inl ⟨_, rfl⟩
  · split
    · exact .inr ⟨_, _, rfl⟩
    · exact .inl ⟨_, rfl⟩
  · exact .inl ⟨_, rfl⟩
  · exact .inl ⟨_, rfl⟩
  · exact .inl ⟨_, rfl⟩
  · exact .inl ⟨_, rfl⟩

theorem handling_of_handshake (h : Hub) (session : Option String) {q : Rpc.Request} {id : Json}
    (hid : q.id = some id) (hh : q.isHandshake = true) :
    ∃ o, (h.handling session q).1 = .now (some (reply id o)) := by
  have hm : q.method = "initialize" := of_decide_eq_true hh
  exact ⟨_, by rw [handling, hid]; simp only [hm]; rfl⟩

/-- A handshake is refused for its version, or it is answered and gets a session. -/
structure HandshakeAnswered (h : Hub) (r : Request) (id : Json) : Prop where
  refused : ∀ v, r.value? versionHeader = some v → v ∉ supportedVersions →
    h.AnswersAtOnce r (.refusal 400 id (SessionRefusal.unsupportedProtocolVersion v).toRpc)
  accepted : (∀ v, r.value? versionHeader = some v → v ∈ supportedVersions) →
    ∃ session m, m.Answers id ∧
      h.AnswersAtOnce r { Response.message 200 m with session := some session }

/-- A handshake that is let in is answered with the session that it goes to. -/
theorem handshake_accepted {h : Hub} {r : Request} {q : Rpc.Request} {id : Json}
    (hm : r.method = "POST") (hr : r.route = "/mcp") (hl : r.body.length ≤ h.config.maxBodyBytes)
    (hq : Rpc.Frame.parse r.body = .request q) (hh : q.isHandshake = true) (hid : q.id = some id)
    (hall : ∀ v, r.value? versionHeader = some v → v ∈ supportedVersions) :
    ∃ m, m.Answers id ∧ h.AnswersAtOnce r
      { Response.message 200 m with session := some (h.handshakeSession r).1 } := by
  have hpost : h.request r = h.postHandshake r q := by
    simp [request, hm, hr, post, Nat.not_lt.2 hl, hq, hh]
  have hnone : ((r.value? versionHeader).filter fun v => !isSupportedVersion v) = none := by
    refine Option.filter_eq_none_iff.2 fun v hv => ?_
    simp [(isSupportedVersion_iff v).2 (hall v hv)]
  have seen := (touched_handshakeSession h r).trans
    ((h.handshakeSession r).2.handling_cases (some (h.handshakeSession r).1) q).1
  obtain ⟨o, ho⟩ := handling_of_handshake (h.handshakeSession r).2
    (some (h.handshakeSession r).1) hid hh
  refine ⟨_, answers_reply id o, ?_⟩
  refine seen.answersAtOnce (hpost.trans ?_)
  rcases hx : (h.handshakeSession r).2.handling (some (h.handshakeSession r).1) q with ⟨x, h'⟩
  rw [hx] at ho
  obtain rfl : x = .now (some (reply id o)) := ho
  simp only [postHandshake, hnone, hx]

theorem handshake_answered {h : Hub} {r : Request} {q : Rpc.Request} {id : Json}
    (hm : r.method = "POST") (hr : r.route = "/mcp") (hl : r.body.length ≤ h.config.maxBodyBytes)
    (hq : Rpc.Frame.parse r.body = .request q) (hh : q.isHandshake = true) (hid : q.id = some id) :
    h.HandshakeAnswered r id := by
  have hpost : h.request r = h.postHandshake r q := by
    simp [request, hm, hr, post, Nat.not_lt.2 hl, hq, hh]
  have hreply : q.replyId = id := by simp [Rpc.Request.replyId, hid, Json.orNull]
  refine ⟨fun v hv hn => ?_, fun hall => ?_⟩
  · refine (Touched.refl h).answersAtOnce (hpost.trans ?_)
    have hno : isSupportedVersion v = false := by
      simpa [← isSupportedVersion_iff] using hn
    simp [postHandshake, hv, Option.filter, hno, hreply, refuse, refusalStatus]
  · obtain ⟨m, hm, hnow⟩ := handshake_accepted hm hr hl hq hh hid hall
    exact ⟨_, m, hm, hnow⟩

end Hub

end EditorBridge
