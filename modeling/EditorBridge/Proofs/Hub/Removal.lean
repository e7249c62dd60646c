import EditorBridge.Proofs.Broker.Ids
import EditorBridge.Proofs.Hub.Admission
import EditorBridge.Proofs.Hub.Commands
import EditorBridge.Proofs.Hub.Turnover
/-!
# Removal is final

A session ends when its client says so or when it is swept. Its id is not given
out again, so nothing can bring it back: whatever was under way at that moment
and wakes up later finds no session, and nobody is let in under its name. What
can still come of it is the report of an acknowledgement that it had given
before.
-/

namespace EditorBridge.Hub

open Http (Request Response sessionHeader versionHeader)
open Moment (Step Steps)

/-- No id is given out twice. The first one has the number one. -/
def Unrepeated (ids : Nat → String) : Prop := ∀ j k, 0 < j → j < k → ids k ≠ ids j

/-- An action removes a session: its client ends it, or it is idle when a sweep is due. -/
inductive Removes (h : Hub) (s : String) : Action → Prop
  | ended {r : Request} : r.method = "DELETE" → r.route = "/mcp" →
      r.value? sessionHeader = some s → h.AnswersAtOnce r (.plain 204) →
      Removes h s (.event (.request r))
  | swept {id : TaskId} {timeout interval next : Nanos} :
      h.tasks.get? id = some (.sweeper timeout interval next) → next ≤ h.now →
      s ∈ h.sessions.idle timeout h.now → Removes h s (.move (.task id))

/-! ## Ids that were given out -/

/-- An id was given out. -/
def Given (h : Hub) (s : String) : Prop := ∃ k, 0 < k ∧ k ≤ h.sessionsNamed ∧ h.sessionId k = s

/-- A session that lived and lives no longer. -/
structure Gone (h : Hub) (s : String) : Prop where
  absent : h.sessions.get? s = none
  given : h.Given s

theorem Turnover.given {h h' : Hub} (ht : Turnover h h') (hids : h'.sessionId = h.sessionId)
    {s : String} (hs : h.Given s) : h'.Given s := by
  obtain ⟨k, hk, hle, hid⟩ := hs
  have named : h.sessionsNamed ≤ h'.sessionsNamed := by
    cases ht with
    | grown hgrown => exact hgrown.named
    | refreshed x _ _ hnamed => exact Nat.le_of_eq hnamed.symm
    | ended session _ hnamed => exact Nat.le_of_eq hnamed.symm
  exact ⟨k, hk, Nat.le_trans hle named, hids ▸ hid⟩

/-- Who lives has an id that was given out. -/
theorem given_step {m m' : Moment} {log : List Mark} (hp : m.hub.path = .streams)
    (h : ∀ s x, m.hub.sessions.get? s = some x → m.hub.Given s) (hs : Step m log m') :
    ∀ s x, m'.hub.sessions.get? s = some x → m'.hub.Given s := by
  intro s x' hx'
  have ht := turnover_step hp hs
  have hids := (onward_step hp hs).sessionId
  cases hx : m.hub.sessions.get? s with
  | some x => exact ht.given hids (h s x hx)
  | none =>
    cases ht with
    | grown hgrown =>
      obtain ⟨k, hlt, hle, rfl⟩ := hgrown.new hx hx'
      exact ⟨k, Nat.zero_lt_of_lt hlt, hle, congrFun hids k⟩
    | refreshed x _ hsessions =>
      rw [hsessions, hx] at hx'
      cases hx'
    | ended session hsessions =>
      rw [hsessions, Table.get?_erase, hx] at hx'
      split at hx' <;> cases hx'

theorem given_exec (config : Config) (ids : Nat → String) (actions : List Action) :
    ∀ s x, ((Hub.new config ids).exec actions).sessions.get? s = some x →
      ((Hub.new config ids).exec actions).Given s :=
  schedule_induction (P := fun m => ∀ s x, m.hub.sessions.get? s = some x → m.hub.Given s) rfl rfl
    (fun _ _ hx => by cases hx) (fun _ _ _ hp hm hs => given_step hp hm hs) actions

/-- An id that was given out stays so. -/
theorem given_later {h : Hub} (hp : h.path = .streams) (ht : h.tools = .standard) {s : String}
    (hs : h.Given s) (actions : List Action) : (h.exec actions).Given s :=
  schedule_induction (P := fun m => m.hub.Given s) hp ht hs
    (fun _ _ _ hp hm hs => (turnover_step hp hs).given (onward_step hp hs).sessionId hm) actions

/-- Nothing brings a session back. -/
theorem gone_step {m m' : Moment} {log : List Mark} {s : String} (hp : m.hub.path = .streams)
    (hids : Unrepeated m.hub.sessionId) (h : m.hub.Gone s) (hs : Step m log m') : m'.hub.Gone s := by
  have ht := turnover_step hp hs
  refine ⟨?_, ht.given (onward_step hp hs).sessionId h.given⟩
  cases ht with
  | grown hgrown =>
    refine Option.eq_none_iff_forall_ne_some.2 fun x' hx' => ?_
    obtain ⟨j, hj, hle, hid⟩ := h.given
    obtain ⟨k, hlt, -, hid'⟩ := hgrown.new h.absent hx'
    exact hids j k hj (Nat.lt_of_le_of_lt hle hlt) (hid'.symm.trans hid.symm)
  | refreshed x _ hsessions => exact hsessions ▸ h.absent
  | ended session hsessions =>
    rw [hsessions, Table.get?_erase, h.absent]
    split <;> rfl

theorem gone_exec {h : Hub} {s : String} (hp : h.path = .streams) (ht : h.tools = .standard)
    (hids : Unrepeated h.sessionId) (hg : h.Gone s) (actions : List Action) :
    (h.exec actions).Gone s := by
  let P (m : Moment) : Prop := m.hub.sessionId = h.sessionId ∧ m.hub.Gone s
  have hP : P ⟨h.exec actions, []⟩ := by
    refine schedule_induction hp ht ⟨rfl, hg⟩ (fun m m' log hp hm hs => ?_) actions
    exact ⟨(onward_step hp hs).sessionId.trans hm.1, gone_step hp (hm.1 ▸ hids) hm.2 hs⟩
  exact hP.2

theorem sessionId_exec (config : Config) (ids : Nat → String) (actions : List Action) :
    ((Hub.new config ids).exec actions).sessionId = ids :=
  (onward_exec (h := Hub.new config ids) rfl rfl actions).sessionId

/-! ## Removals -/

/-- Who lives can be ended, -/
theorem request_end {h : Hub} {s : String} {x : Session} (hx : h.sessions.get? s = some x)
    {r : Request} (hm : r.method = "DELETE") (hr : r.route = "/mcp")
    (hv : r.value? sessionHeader = some s) :
    h.request r = (h.endSession s).2.answered (.response (.plain 204)) := by
  have ended : h.endSession s = (true, (h.endSession s).2) := by simp [endSession, hx]
  have asked : h.request r = h.terminate r := by simp [request, hm, hr]
  rw [asked, terminate, hv]
  dsimp only
  rw [ended]

/-- and that removes it. -/
theorem Removes.of_live {h : Hub} {s : String} {x : Session} (hx : h.sessions.get? s = some x)
    {r : Request} (hm : r.method = "DELETE") (hr : r.route = "/mcp")
    (hv : r.value? sessionHeader = some s) : h.Removes s (.event (.request r)) := by
  refine .ended hm hr hv ?_
  rw [AnswersAtOnce, request_end hx hm hr hv, endSession_eq hx]
  rfl

/-- What is removed lived before and does not live after. -/
theorem Removes.live {h : Hub} {s : String} {a : Action} (hr : h.Removes s a) :
    (∃ x, h.sessions.get? s = some x) ∧ (h.act a).sessions.get? s = none := by
  cases hr with
  | @ended r hm hroute hv hanswer =>
    cases hx : h.sessions.get? s with
    | none =>
      have hrefused := answers_unknownEnd hroute hv hx hm
      rw [AnswersAtOnce] at hanswer hrefused
      simp [hrefused, Response.plain, Response.refusal, Response.message, Response.json] at hanswer
    | some x =>
      refine ⟨⟨x, rfl⟩, ?_⟩
      show (h.request r).2.sessions.get? s = none
      rw [request_end hx hm hroute hv]
      exact (get?_endSession h s s).trans (if_pos rfl)
  | @swept id timeout interval next ht hdue hidle =>
    refine ⟨live_of_mem_idle hidle, ?_⟩
    have gone := get?_sweep h timeout s
    rw [if_pos hidle] at gone
    simpa [act, move?, ht, poll?, hdue] using gone

/-- A session is gone from its removal on. -/
theorem gone_of_removes (config : Config) {ids : Nat → String} (hids : Unrepeated ids)
    (before later : List Action) {a : Action} {s : String}
    (hremoves : ((Hub.new config ids).exec before).Removes s a) :
    ((Hub.new config ids).exec (before ++ a :: later)).Gone s := by
  obtain ⟨hp, ht, -⟩ := sameSetting_exec (h := Hub.new config ids) rfl rfl before
  obtain ⟨hp', ht', -⟩ := sameSetting_exec (h := (Hub.new config ids).exec before) hp ht [a]
  obtain ⟨⟨x, hx⟩, habsent⟩ := hremoves.live
  have now : (((Hub.new config ids).exec before).exec [a]).Gone s :=
    ⟨habsent, given_later hp ht (given_exec config ids before s x hx) [a]⟩
  have hids' : Unrepeated (((Hub.new config ids).exec before).exec [a]).sessionId := by
    rw [← exec_append, sessionId_exec]
    exact hids
  rw [List.append_cons, exec_append, exec_append]
  exact gone_exec (hp'.trans hp) (ht'.trans ht) hids' now later

/-! ## What a session that is gone still gets -/

/-- Nothing is there for a session, and whoever comes in its name is refused. -/
structure Departed (h : Hub) (s : String) : Prop where
  dead : h.sessions.get? s = none
  snapshot : h.snapshots.entries.get? s = none
  transports : ∀ t state, h.transport? t = some state → state.session = s → state.closed = true
  post : ∀ r id, r.method = "POST" → r.route = "/mcp" → r.value? sessionHeader = some s →
    (Rpc.Frame.parse r.body).replyId? = some id →
    (r.body.length ≤ h.config.maxBodyBytes →
      h.AnswersAtOnce r (.refusal 404 id (SessionRefusal.notFound s).toRpc)) ∧
    (h.config.maxBodyBytes < r.body.length → h.AnswersAtOnce r tooLong)
  stream : ∀ r : Request, r.method = "GET" → r.route = "/mcp" → r.value? sessionHeader = some s →
    r.acceptsStream = true →
    h.AnswersAtOnce r (.refusal 404 .null (SessionRefusal.notFound s).toRpc)
  ended : ∀ r : Request, r.method = "DELETE" → r.route = "/mcp" →
    r.value? sessionHeader = some s →
    h.AnswersAtOnce r (.refusal 404 .null (SessionRefusal.notFound s).toRpc)
  /-- A handshake that is let in goes to another session. -/
  handshake : ∀ r q id, r.method = "POST" → r.route = "/mcp" →
    r.body.length ≤ h.config.maxBodyBytes → Rpc.Frame.parse r.body = .request q →
    q.isHandshake = true → q.id = some id →
    (∀ v, r.value? versionHeader = some v → v ∈ supportedVersions) →
    ∃ session m, session ≠ s ∧ m.Answers id ∧
      h.AnswersAtOnce r { Response.message 200 m with session := some session }
  /-- No command goes to it, and it acknowledges none. -/
  order : ∀ call o, h.order? call = some o → o.session ≠ s
  ack : ∀ r x, h.AcceptsAck r x → x.session ≠ s

/-- The session of a handshake lives, or it has an id that was not given out before. -/
theorem handshakeSession_ne {h : Hub} {s : String} (hids : Unrepeated h.sessionId) (hg : h.Gone s)
    (r : Request) : (h.handshakeSession r).1 ≠ s := by
  obtain ⟨id, n, he, ⟨live, -⟩ | ⟨rfl, -⟩⟩ := handshakeSession_eq h r <;> rw [he]
  · rintro rfl
    simp [Table.has, hg.absent] at live
  · obtain ⟨k, hk, hle, rfl⟩ := hg.given
    exact hids k (h.sessionsNamed + 1) hk (Nat.lt_succ_of_le hle)

/-- Who acknowledges a command lives. -/
theorem AcceptsAck.live {h : Hub} {r : Request} {x : Broker.Claimed} (ha : h.AcceptsAck r x) :
    r.method = "POST" ∧ ∃ session, h.sessions.get? x.session = some session := by
  obtain ⟨call, hcall, -, hsession, -⟩ := ha
  obtain ⟨hm, -, -, q, -, -, hcaller, -⟩ := toolCall?_eq_some hcall
  obtain ⟨-, session, hlive, -⟩ := callerSession_eq_ok_iff.1 hcaller
  exact ⟨hm, session, hsession ▸ hlive⟩

theorem Gone.departed {h : Hub} {s : String} (hg : h.Gone s) (hids : Unrepeated h.sessionId)
    (ht : h.tools = .standard) (hb : Bound ⟨h, []⟩) (hl : h.Lodged) : h.Departed s where
  dead := hg.absent
  snapshot := by
    refine Option.eq_none_iff_forall_ne_some.2 fun stored hstored => ?_
    obtain ⟨x, hx, -⟩ := initialized_iff.1 (hl.initialized hstored)
    cases hg.absent.symm.trans hx
  transports t state hstate hsession := by
    refine Bool.not_eq_false _ |>.mp fun hopen => ?_
    have bound : h.sessions.transport? s = some t := hsession ▸ hb.kept hstate hopen
    simp [Sessions.transport?, hg.absent] at bound
  post r id hm hr hv hq :=
    ⟨fun hl => answers_refusal hm hr hl hq (.unknown hv hg.absent), answers_tooLong hm hr⟩
  stream r hm hr hv ha := answers_unknownStream hr hv hg.absent hm ha
  ended r hm hr hv := answers_unknownEnd hr hv hg.absent hm
  handshake r q id hm hr hl hq hh hid hall := by
    obtain ⟨m, hanswers, hnow⟩ := handshake_accepted hm hr hl hq hh hid hall
    exact ⟨_, m, handshakeSession_ne hids hg r, hanswers, hnow⟩
  order call o ho := by
    rintro rfl
    obtain ⟨x, hx, -⟩ := initialized_iff.1 (hl.latest (latest_of_order? ht ho).2)
    cases hg.absent.symm.trans hx
  ack r x hx := by
    rintro rfl
    obtain ⟨-, session, hlive⟩ := hx.live
    cases hg.absent.symm.trans hlive

/-! ## Commands that were under way -/

/-- How a call of a tool may be answered that sent a command to a session: by an error, or by what
the session acknowledged during some actions. -/
inductive Reports (h₀ : Hub) (r : Request) (call : ToolCall) (o : Broker.Order)
    (during : List Action) : Answer → Prop
  | unavailable (message : String) : Reports h₀ r call o during
      (.response (errorResponse call.id (-32000) message "not_available"))
  | misused (message : String) : Reports h₀ r call o during
      (.response (errorResponse call.id (-32602) message "invalid_params"))
  | acked {before rest : List Action} {r' : Request} {x : Broker.Claimed} :
      during = before ++ .event (.request r') :: rest →
      ((h₀.act (.event (.request r))).exec before).AcceptsAck r' x → x.session = o.session →
      x.ack.commandId = Broker.commandId h₀.wall (h₀.broker.sequence + 1) →
      Reports h₀ r call o during (.response (ackResponse call.id o.command x))

theorem Reports.error {h₀ : Hub} {r : Request} {call : ToolCall} {o : Broker.Order}
    {during : List Action} {e : ToolError} (he : Tool.Mendable e.toRpc) :
    h₀.Reports r call o during (toolAnswer (.response call.id) (.error e)) := by
  obtain ⟨message, hm | hm⟩ := toolAnswer_mendable call.id he
  · exact hm ▸ .unavailable message
  · exact hm ▸ .misused message

/-- A command is answered by what was acknowledged during the schedule. -/
theorem reports_exec {h₀ : Hub} (hp : h₀.path = .streams) (ht : h₀.tools = .standard)
    (hb : Bound ⟨h₀, []⟩) (hu : Unused ⟨h₀, []⟩ h₀.nextTask) {r : Request} {call : ToolCall}
    {o : Broker.Order} (hcall : h₀.toolCall? r = some call) (ho : h₀.order? call = some o)
    (during : List Action) : ∀ answer ∈ ((h₀.act (.event (.request r))).exec during).answersTo
      (h₀.request r).1, h₀.Reports r call o during answer := by
  obtain ⟨hname, -⟩ := latest_of_order? ht ho
  obtain ⟨hk, hcase⟩ := request_command hp ht hb hu hcall hname
  obtain ⟨hpath, htools, -⟩ := sameSetting_exec hp ht [.event (.request r)]
  have hp₁ : (h₀.act (.event (.request r))).path = .streams := hpath.trans hp
  have ht₁ : (h₀.act (.event (.request r))).tools = .standard := htools.trans ht
  have hb₁ : Bound ⟨h₀.act (.event (.request r)), []⟩ :=
    schedule_induction hp ht hb (fun _ _ _ => bound_step) [.event (.request r)]
  rw [hk]
  rcases hcase with ⟨e, he, hspent⟩ | ⟨o', t, htarget, hstage⟩
  · have hspent := spent_exec hp₁ ht₁ hb₁ hspent during
    intro answer hanswer
    rw [hspent.answers, List.mem_singleton] at hanswer
    subst hanswer
    exact .error he
  · obtain ⟨log, hlog, hmarks⟩ := exec_steps hp₁ ht₁ during
    cases htarget.order.symm.trans ho
    intro answer hanswer
    rcases (stage_steps hp₁ hb₁ hstage hlog).answers answer hanswer with
      ⟨e, he, rfl⟩ | ⟨x, hx, rfl⟩
    · exact .error he
    · obtain ⟨before, a, rest, hduring, r', rfl, haccepts⟩ := hmarks _ hx.mark
      have hanswer := toolAnswer_ofAck call.id o.command haccepts.wellFormed
      exact hanswer ▸ .acked hduring haccepts hx.session hx.id

/-- After its removal a session acknowledges nothing. -/
theorem Reports.removed {h₀ : Hub} {r : Request} {call : ToolCall} {o : Broker.Order}
    {mid later : List Action} {a : Action} {answer : Answer}
    (hreports : h₀.Reports r call o (mid ++ a :: later) answer)
    (hremoves : ((h₀.act (.event (.request r))).exec mid).Removes o.session a)
    (hgone : ∀ after, ((((h₀.act (.event (.request r))).exec mid).act a).exec after).Gone o.session) :
    h₀.Reports r call o mid answer := by
  generalize hh₁ : h₀.act (.event (.request r)) = h₁ at hremoves hgone
  cases hreports with
  | unavailable message => exact .unavailable message
  | misused message => exact .misused message
  | @acked before rest r' x hduring haccepts hsession hid =>
    rw [hh₁] at haccepts
    obtain ⟨hpost, session, hlive⟩ := haccepts.live
    have other : a ≠ .event (.request r') := by
      rintro rfl
      cases hremoves with
      | ended hm => simp [hm] at hpost
    rcases List.append_eq_append_iff.1 hduring with ⟨between, rfl, hrest⟩ | ⟨between, rfl, hrest⟩
    · cases between with
      | nil => exact absurd (List.cons.inj hrest).1 other
      | cons b between =>
        obtain ⟨rfl, -⟩ := List.cons.inj hrest
        rw [exec_append, exec_cons, hsession, (hgone between).absent] at hlive
        cases hlive
    · cases between with
      | nil => exact absurd (List.cons.inj hrest).1.symm other
      | cons b between =>
        obtain ⟨rfl, -⟩ := List.cons.inj hrest
        exact .acked rfl (hh₁ ▸ haccepts) hsession hid

/-- Once a session has been removed, in every later state nothing is left of it, whoever comes in
its name is refused, and the calls whose commands went to it get errors, or an acknowledgement that
it had given before. A message longer than the settings allow is refused as too long instead. -/
theorem removal_final (config : Config) {ids : Nat → String} (hids : Unrepeated ids)
    (before later : List Action) {a : Action} {s : String}
    (hremoves : ((Hub.new config ids).exec before).Removes s a) :
    let h := (Hub.new config ids).exec (before ++ a :: later)
    h.Departed s ∧ ∀ past r mid, before = past ++ .event (.request r) :: mid →
      ∀ call o, ((Hub.new config ids).exec past).toolCall? r = some call →
        ((Hub.new config ids).exec past).order? call = some o → o.session = s →
        ∀ answer ∈ h.answersTo (((Hub.new config ids).exec past).request r).1,
          ((Hub.new config ids).exec past).Reports r call o mid answer := by
  intro h
  have hgone (later : List Action) : ((Hub.new config ids).exec (before ++ a :: later)).Gone s :=
    gone_of_removes config hids before later hremoves
  obtain ⟨-, ht, -⟩ :=
    sameSetting_exec (h := Hub.new config ids) rfl rfl (before ++ a :: later)
  refine ⟨(hgone later).departed ?_ ht (bound_exec ..) (lodged_exec ..), ?_⟩
  · rw [sessionId_exec]
    exact hids
  rintro past r mid rfl call o hcall ho rfl answer hanswer
  obtain ⟨hp₀, ht₀, -⟩ := sameSetting_exec (h := Hub.new config ids) rfl rfl past
  have hreports := reports_exec hp₀ ht₀ (bound_exec ..) (unused_exec config ids past _ (Nat.le_refl _))
    hcall ho (mid ++ a :: later) answer (by simpa [h, exec_append, exec_cons] using hanswer)
  refine hreports.removed (by simpa [exec_append, exec_cons] using hremoves) fun after => ?_
  simpa [exec_append, exec_cons] using hgone after

/-- A client ends its session. -/
def sampleEnd (session : String) : Action :=
  .event (.request ⟨"DELETE", "/mcp", [(sessionHeader, session)], []⟩)

theorem sampleEnd_removes {h : Hub} (hlive : (h.sessions.get? "S1").isSome) :
    h.Removes "S1" (sampleEnd "S1") := by
  obtain ⟨x, hx⟩ := Option.isSome_iff_exists.1 hlive
  exact .of_live hx rfl (by decide +kernel) (by decide +kernel)

theorem unrepeated_sampleId : Unrepeated sampleId := by
  intro j k _ hlt he
  have digits : Nat.toDigits 10 k = Nat.toDigits 10 j := by
    have chars := congrArg String.toList he
    simpa [sampleId, toString, Nat.repr] using chars
  exact Nat.ne_of_gt hlt (Broker.toDigits_injective digits)

/-- The editor stops the project and says so. -/
def stopped : Action :=
  .event (.request (sampleCall "S1" "bridge_ack_command"
    [("commandId", .str "cmd-1704067200000000000-1"), ("success", .bool true)]))

/-- The editor leaves before the client that waits for it looks. -/
theorem removal_final_stopped :
    let h₀ := (Hub.new .default sampleId).exec editing
    let call : ToolCall := ⟨"S2", .int 7, "stop_project", .obj []⟩
    let before := editing ++ .event (.request stopping) :: [stopped]
    let h := (Hub.new .default sampleId).exec (before ++ sampleEnd "S1" :: [.move (.task 6)])
    (Unrepeated sampleId ∧
      ((Hub.new .default sampleId).exec before).Removes "S1" (sampleEnd "S1")) ∧
    (h₀.toolCall? stopping = some call ∧ (h₀.request stopping).1 = 6 ∧
      (h.answersTo 6).length = 1) ∧
    h.Departed "S1" ∧ ∃ o, h₀.order? call = some o ∧ o.session = "S1" ∧
      ∀ answer ∈ h.answersTo 6, h₀.Reports stopping call o [stopped] answer := by
  intro h₀ call before h
  have ran : (((Hub.new .default sampleId).exec before).sessions.get? "S1").isSome ∧
      h₀.toolCall? stopping = some call ∧ (h₀.request stopping).1 = 6 ∧
      (h₀.order? call).map (·.session) = some "S1" ∧ (h.answersTo 6).length = 1 := by
    decide +kernel
  obtain ⟨live, called, task, ordered, answered⟩ := ran
  obtain ⟨o, ho, hs⟩ := Option.map_eq_some_iff.1 ordered
  have removes := sampleEnd_removes live
  obtain ⟨departed, reports⟩ :=
    removal_final .default unrepeated_sampleId before [.move (.task 6)] removes
  have reports := reports editing stopping [stopped] rfl call o called ho hs
  rw [task] at reports
  exact ⟨⟨unrepeated_sampleId, removes⟩, ⟨called, task, answered⟩, departed, o, ho, hs, reports⟩

/-- The law needs its proviso: a message in the name of a session that is gone is not looked at if
the settings leave no room for it. -/
theorem gone_too_long :
    let h₀ := (Hub.new { Config.default with maxBodyBytes := 64 } sampleId).exec [sampleHandshake]
    let h := h₀.act (sampleEnd "S1")
    let r := sampleCall "S1" "stop_project" []
    (Unrepeated sampleId ∧ h₀.Removes "S1" (sampleEnd "S1")) ∧
    (r.method = "POST" ∧ r.route = "/mcp" ∧ r.value? sessionHeader = some "S1" ∧
      (Rpc.Frame.parse r.body).replyId? = some (.int 7)) ∧
    h.AnswersAtOnce r tooLong ∧ ∀ id e, ¬ h.AnswersAtOnce r (.refusal 404 id e) := by
  intro h₀ h r
  have live : (h₀.sessions.get? "S1").isSome := by decide +kernel
  have removes : h₀.Removes "S1" (sampleEnd "S1") := sampleEnd_removes live
  have routed : r.route = "/mcp" := by decide +kernel
  have refused : h.AnswersAtOnce r tooLong := answers_tooLong rfl routed (by decide +kernel)
  refine ⟨⟨unrepeated_sampleId, removes⟩, ⟨rfl, routed, by decide +kernel, by decide +kernel⟩,
    refused, fun id e found => ?_⟩
  rw [AnswersAtOnce] at refused found
  simp [refused, tooLong, Response.refusal, Response.message, Response.json] at found

end EditorBridge.Hub
