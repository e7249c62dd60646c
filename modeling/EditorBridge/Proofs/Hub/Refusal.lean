import EditorBridge.Proofs.Hub.Commands
import EditorBridge.Proofs.Hub.Effect
import EditorBridge.Proofs.Hub.Post
/-!
# What a refusal leaves behind

A request that is refused, for its form, its session or its version, leaves
nothing behind but its answer. The session that it names may have been seen
before the refusal, if the request got so far.

An answer may come long after its request. So the requests that are answered in
one way are found by going through what a request does: what is not answered at
once is a call of a tool, and those are not refused.
-/

namespace EditorBridge.Hub

open Http (Request Response sessionHeader versionHeader)

/-! ## The answers that a request can get -/

namespace Serving

variable {h : Hub} {b : Answer}

/-- Whoever has been answered at once is not answered again. -/
theorem answers_answered (hs : h.Serving) {a : Answer} {after : List Action}
    (hb : b ∈ ((h.answered a).2.exec after).answersTo (h.answered a).1) : b = a := by
  have ended := over_exec (h := (h.answered a).2) hs.path hs.tools (hs.answered a) after
  exact List.mem_singleton.1 (ended.answers ▸ hb)

/-- A call of a tool is answered by a message, whenever it is. -/
theorem answers_called (hs : h.Serving) {r : Request} {call : ToolCall}
    (hcall : h.toolCall? r = some call) {after : List Action}
    (hb : b ∈ ((h.request r).2.exec after).answersTo (h.request r).1) :
    ∃ m, b = .response (.message 200 m) := by
  have ran := (hs.touched (touched_callerSession h r)).execute call.id call.name call.args
    (h.toolContext (some call.session))
  rw [← request_of_toolCall hcall] at ran
  obtain ⟨hp, ht, -⟩ := sameSetting_exec hs.path hs.tools [.event (.request r)]
  have hp : (h.request r).2.path = .streams := hp.trans hs.path
  have ht : (h.request r).2.tools = .standard := ht.trans hs.tools
  obtain ⟨hk, ⟨m, -, ended⟩ | ⟨o, -, progress⟩⟩ := ran
  · rw [hk, (over_exec hp ht ended after).answers] at hb
    exact ⟨m, List.mem_singleton.1 hb⟩
  · obtain ⟨log, hlog, -⟩ := exec_steps hp ht after
    rw [hk] at hb
    cases progress_steps hp progress hlog with
    | waits _ _ hnone =>
      rw [hnone] at hb
      cases hb
    | answered x ended =>
      rw [ended.answers] at hb
      exact ⟨_, List.mem_singleton.1 hb⟩
    | dropped _ ended =>
      rw [ended.answers] at hb
      cases hb

end Serving

/-- A stream that is opened is answered with it, and not again. -/
theorem answers_opened {h : Hub} (hs : h.Serving) (hu : Unused ⟨h, []⟩ (h.nextTask + 1))
    {s : String} {x : Session} (hx : h.sessions.get? s = some x) {b : Answer}
    {after : List Action}
    (hb : b ∈ ((h.startStream s).2.exec after).answersTo (h.startStream s).1) :
    b = .response ⟨200, some "text/event-stream", some "no-cache", some s,
      .stream h.nextTransport⟩ := by
  have ended : (h.startStream s).2.Over (h.nextTask + 1) [.response ⟨200, some "text/event-stream",
      some "no-cache", some s, .stream h.nextTransport⟩] := by
    rw [startStream_eq hx]
    refine ⟨Nat.lt_succ_self _, (get?_greetedTasks h (Nat.succ_ne_self _) _).trans hu.task, ?_⟩
    have hnone : entriesOf (h.nextTask + 1) h.answers = [] := hu.answers
    simp [answersTo, hnone]
  rw [startStream_number hx] at hb
  have hp : (h.startStream s).2.path = .streams := by rw [startStream_eq hx]; exact hs.path
  have ht : (h.startStream s).2.tools = .standard := by rw [startStream_eq hx]; exact hs.tools
  exact List.mem_singleton.1 ((over_exec hp ht ended after).answers ▸ hb)

/-! ## Refusals -/

/-- The sessions after a request that did nothing: as they were, or the one that it names has been
seen, if it came so far as to have that one looked up. -/
inductive Glanced (h : Hub) (r : Request) : Sessions → Prop
  | unseen : Glanced h r h.sessions
  | seen {s : String} {x : Session} : h.Passes r → h.Names r s x →
      Glanced h r (h.sessions.set s { x with lastSeen := h.now })

/-- A request is refused, and that is all. -/
def Refused (h : Hub) (r : Request) (response : Response) : Prop :=
  ∃ sessions, h.Glanced r sessions ∧ h.act (.event (.request r)) = { h with
    sessions := sessions
    answers := h.answers ++ [((h.request r).1, .response response)]
    nextTask := h.nextTask + 1 }

/-- The statuses of refusals. -/
def refusals : List Nat := [400, 404, 406]

theorem Serving.refused {h : Hub} (hs : h.Serving) (hu : Unused ⟨h, []⟩ (h.nextTask + 1))
    {r : Request} {response : Response} {after : List Action} (hr : response.status ∈ refusals)
    (hb : .response response ∈
      ((h.act (.event (.request r))).exec after).answersTo (h.request r).1) :
    h.Refused r response := by
  have effect := request_effect h r
  have hb : .response response ∈ ((h.request r).2.exec after).answersTo (h.request r).1 := hb
  have other {P : Prop} {a : Response} (ha : Answer.response response = .response a)
      (ok : a.status = 200 ∨ a.status = 202 ∨ a.status = 204) : P := by
    cases ha
    obtain hs | hs | hs := ok <;> simp [hs, refusals] at hr
  cases hcall : h.toolCall? r with
  | some call =>
    obtain ⟨m, hm⟩ := hs.answers_called hcall hb
    exact other hm (.inl rfl)
  | none =>
    show ∃ sessions, _ ∧ (h.request r).2 = _
    generalize h.request r = run at effect hb ⊢
    cases effect with
    | answered =>
      cases hs.answers_answered hb
      exact ⟨h.sessions, .unseen, rfl⟩
    | @seen s x a _ hp hn =>
      have serving : (h.seen s x).Serving := ⟨hs.path, hs.tools, hs.task, hs.answers⟩
      cases serving.answers_answered hb
      exact ⟨_, .seen hp hn, rfl⟩
    | @confirmed s x =>
      have serving : (h.seen s { x with initialized := true }).Serving :=
        ⟨hs.path, hs.tools, hs.task, hs.answers⟩
      exact other (serving.answers_answered hb) (.inr (.inl rfl))
    | @greeted q id =>
      have serving : (h.welcomed (h.handshakeSession r).1 (h.handshakeSession r).2.sessionsNamed
          (Sessions.agreed q.wish)).Serving := ⟨hs.path, hs.tools, hs.task, hs.answers⟩
      exact other (serving.answers_answered hb) (.inl rfl)
    | called hcalled => cases hcall.symm.trans hcalled
    | @opened s x _ hn =>
      have serving : (h.seen s x).Serving := ⟨hs.path, hs.tools, hs.task, hs.answers⟩
      have unused : Unused ⟨h.seen s x, []⟩ ((h.seen s x).nextTask + 1) :=
        ⟨hu.task, hu.lines, hu.untold, hu.answers, hu.entries⟩
      exact other (answers_opened serving unused (Table.get?_set_self ..) hb) (.inl rfl)
    | @ended s x hn =>
      have serving : (h.endSession s).2.Serving := by
        rw [endSession_eq hn.live]
        exact ⟨hs.path, hs.tools, hs.task, hs.answers⟩
      exact other (serving.answers_answered hb) (.inr (.inr rfl))

/-- A request that is ever answered with the status of a refusal has changed nothing: the bridge is
what it was before, but for the answer and perhaps the last-seen time of the session that the
request names. So no session has come, and the snapshots, the commands, the transports and all that
waits for something are as they were. -/
theorem refusal_changes_nothing (config : Config) (ids : Nat → String) (before after : List Action)
    (r : Request) {response : Response} (hr : response.status ∈ refusals)
    (hb : .response response ∈
      ((Hub.new config ids).exec (before ++ .event (.request r) :: after)).answersTo
        (((Hub.new config ids).exec before).request r).1) :
    ((Hub.new config ids).exec before).Refused r response := by
  rw [exec_append] at hb
  exact (serving_exec config ids before).refused
    (unused_exec config ids before _ (Nat.le_succ _)) hr hb

/-- The client stops the project, but names a version that it has not agreed on. -/
def contradicting : Request :=
  { stopping with headers := (versionHeader, "2024-11-05") :: stopping.headers }

/-- What is answered at once stays answered. -/
theorem AnswersAtOnce.answersTo {h : Hub} {r : Request} {response : Response}
    (hp : h.path = .streams) (ht : h.tools = .standard) (ha : h.AnswersAtOnce r response)
    (after : List Action) : .response response ∈
      (h.exec (.event (.request r) :: after)).answersTo (h.request r).1 := by
  obtain ⟨hp₁, ht₁, -⟩ := sameSetting_exec hp ht [.event (.request r)]
  have later : (h.request r).2.answers <+: (h.exec (.event (.request r) :: after)).answers :=
    answers_exec (h := (h.request r).2) (hp₁.trans hp) (ht₁.trans ht) after
  rw [AnswersAtOnce] at ha
  rw [ha] at later
  exact mem_entriesOf.2 (later.subset (List.mem_append_right _ List.mem_cons_self))

/-- It is refused although there is an editor, and its session has been seen. -/
theorem refusal_changes_nothing_contradicting :
    let before := editing ++ [.event (.advance 5)]
    let h := (Hub.new .default sampleId).exec before
    let response := Response.refusal 400 (.int 7)
      (SessionRefusal.protocolVersionMismatch "2025-06-18" "2024-11-05").toRpc
    (response.status ∈ refusals ∧ .response response ∈ ((Hub.new .default sampleId).exec
      (before ++ .event (.request contradicting) :: [.event (.advance 5)])).answersTo
        (h.request contradicting).1) ∧
    h.Refused contradicting response := by
  intro before h response
  have asked : contradicting.route = "/mcp" ∧
      (Rpc.Frame.parse contradicting.body).replyId? = some (.int 7) ∧
      contradicting.value? sessionHeader = some "S2" ∧
      contradicting.value? versionHeader = some "2024-11-05" := by decide +kernel
  have there : contradicting.body.length ≤ h.config.maxBodyBytes ∧
      (h.sessions.get? "S2").bind (·.version) = some "2025-06-18" := by decide +kernel
  obtain ⟨routed, replied, named, versioned⟩ := asked
  obtain ⟨x, live, version⟩ := Option.bind_eq_some_iff.1 there.2
  have declined : x.Declines (contradicting.value? versionHeader)
      (.protocolVersionMismatch "2025-06-18" "2024-11-05") := by
    rw [versioned]
    exact .mismatch version (by decide)
  have atOnce : h.AnswersAtOnce contradicting response :=
    answers_refusal rfl routed there.1 replied (.version named live declined)
  have status : response.status ∈ refusals := by decide
  have answered : .response response ∈ ((Hub.new .default sampleId).exec
      (before ++ .event (.request contradicting) :: [.event (.advance 5)])).answersTo
        (h.request contradicting).1 := by
    have serving := serving_exec .default sampleId before
    rw [exec_append]
    exact atOnce.answersTo serving.path serving.tools _
  exact ⟨⟨status, answered⟩,
    refusal_changes_nothing .default sampleId before [.event (.advance 5)] contradicting status
      answered⟩

end EditorBridge.Hub
