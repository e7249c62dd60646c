import EditorBridge.Proofs.Hub.Admission
import EditorBridge.Proofs.Hub.Course
/-!
# How a POST is answered

A request that is let in gets one answer with its own id: at once, or when the
editor has done what a tool asks of it. Seen from outside a call that has given
an order waits until it is answered or dropped; `fate_step` goes through the
small steps once, for a task and its answers. `post_answered` puts the answers
of all messages together.
-/

namespace EditorBridge.Hub

open Http (Request Response sessionHeader versionHeader)
open Moment (Step Steps)

/-! ## A task, seen from outside -/

/-- What a small step does to a task and its answers: nothing, or it answers what waits for a command,
or the call is given up. What waits for something else is left out. -/
inductive Fate (k : TaskId) (log : List Mark) (h h' : Hub) : Prop
  | same : h'.tasks.get? k = h.tasks.get? k → h'.answersTo k = h.answersTo k → Fate k log h h'
  | answered {reply : CommandReply} (x : Except CommandError Broker.Ack) :
      h.tasks.get? k = some (.command reply) → h'.tasks.get? k = none →
      h'.answersTo k = h.answersTo k ++ [commandAnswer reply x] → Fate k log h h'
  | dropped : .abandoned k ∈ log → h'.tasks.get? k = none → h'.answersTo k = h.answersTo k →
      Fate k log h h'
  | other {task : Task} : h.tasks.get? k = some task → (∀ reply, task ≠ .command reply) →
      Fate k log h h'

theorem answersTo_finish (h : Hub) (k : TaskId) (a : Answer) (b : Broker) :
    ({ h with broker := b }.finish k a).answersTo k = h.answersTo k ++ [a] := by
  simp [finish, answersTo]

theorem fate_step {m m' : Moment} {log : List Mark} (hp : m.hub.path = .streams)
    (hs : Step m log m') {k : TaskId} (hk : k < m.hub.nextTask) : Fate k log m.hub m'.hub := by
  have new : m.hub.nextTask ≠ k := Nat.ne_of_gt hk
  have erased {h : Hub} {id : TaskId} (hid : id ≠ k) :
      (h.tasks.erase id).get? k = h.tasks.get? k := Table.get?_erase_of_ne _ (Ne.symm hid)
  have changed {h : Hub} {id : TaskId} {task : Task} (hid : id ≠ k) :
      (h.tasks.set id task).get? k = h.tasks.get? k := Table.get?_set_of_ne _ _ (Ne.symm hid)
  have ended {h : Hub} {id : TaskId} {reply : CommandReply} {log : List Mark} (b : Broker)
      (x : Except CommandError Broker.Ack) (ht : h.tasks.get? id = some (.command reply)) :
      Fate k log h ({ h with broker := b }.finish id (commandAnswer reply x)) := by
    by_cases hid : id = k
    · subst hid
      exact .answered x ht (Table.get?_erase_self ..) (answersTo_finish ..)
    · exact .same (erased hid) (answersTo_append rfl hid)
  have another {h h' : Hub} {id : TaskId} {task : Task} {log : List Mark}
      (ht : h.tasks.get? id = some task) (hne : ∀ reply, task ≠ .command reply)
      (hs : id ≠ k → h'.tasks.get? k = h.tasks.get? k ∧ h'.answersTo k = h.answersTo k) :
      Fate k log h h' := by
    by_cases hid : id = k
    · exact .other (hid ▸ ht) hne
    · exact .same (hs hid).1 (hs hid).2
  cases hs with
  | answered => exact .same rfl (answersTo_append rfl new)
  | @ended h es session =>
    cases hx : h.sessions.get? session with
    | none => exact (endSession_of_none hx).symm ▸ .same rfl rfl
    | some s => exact (endSession_eq hx).symm ▸ .same rfl rfl
  | subscribed hx =>
    rw [startStream_eq hx]
    refine .same (get?_greetedTasks _ new.symm _) (answersTo_append rfl ?_)
    exact Nat.ne_of_gt (Nat.lt_succ_of_lt hk)
  | refused reply e =>
    exact .same ((Table.get?_erase_of_ne _ new.symm).trans (changed new)) (answersTo_append rfl new)
  | called | sweeping => exact .same (changed new) rfl
  | @abandoned h es id task ht hc =>
    rw [abandon_eq hp ht hc]
    by_cases hid : id = k
    · subst hid
      exact .dropped List.mem_cons_self (Table.get?_erase_self ..) rfl
    · exact .same (erased hid) rfl
  | polled ht => exact ended _ _ ht
  | failed ht => exact ended _ _ ht
  | watched ht htask =>
    obtain ⟨t, rfl | rfl⟩ := htask <;>
    exact another ht nofun fun hid => ⟨erased hid, answersTo_append rfl hid⟩
  | wrote r ht htask =>
    obtain rfl | rfl := htask <;>
    exact another ht nofun fun hid => ⟨erased hid, answersTo_append rfl hid⟩
  | rested ht => exact another ht nofun fun hid => ⟨changed hid, rfl⟩
  | beat ht => exact another ht nofun fun hid => ⟨changed hid, rfl⟩
  | greeted r ht => exact another ht nofun fun hid => ⟨changed hid, rfl⟩
  | beaten ht => exact another ht nofun fun hid => ⟨changed hid, rfl⟩
  | silenced r ht => exact another ht nofun fun hid => ⟨erased hid, rfl⟩
  | loopEnded ht => exact another ht nofun fun hid => endLoop_eq .. ▸ ⟨erased hid, rfl⟩
  | broken ht => exact another ht nofun fun hid => endLoop_eq .. ▸ ⟨erased hid, rfl⟩
  | _ => exact .same rfl rfl

/-- A task is over, and has left its answers behind. -/
structure Over (h : Hub) (k : TaskId) (answers : List Answer) : Prop where
  old : k < h.nextTask
  task : h.tasks.get? k = none
  answers : h.answersTo k = answers

/-- How far a call has got that gave an order: it waits, or it was answered, or it was dropped. -/
inductive Progress (k : TaskId) (reply : CommandReply) (log : List Mark) (h : Hub) : Prop
  | waits : k < h.nextTask → h.tasks.get? k = some (.command reply) → h.answersTo k = [] →
      Progress k reply log h
  | answered (x : Except CommandError Broker.Ack) : h.Over k [commandAnswer reply x] →
      Progress k reply log h
  | dropped : .abandoned k ∈ log → h.Over k [] → Progress k reply log h

theorem over_step {m m' : Moment} {log : List Mark} {k : TaskId} {answers : List Answer}
    (hp : m.hub.path = .streams) (ho : m.hub.Over k answers) (hs : Step m log m') :
    m'.hub.Over k answers := by
  have old := Nat.lt_of_lt_of_le ho.old (onward_step hp hs).nextTask
  cases fate_step hp hs ho.old with
  | same ht ha => exact ⟨old, ht.trans ho.task, ha.trans ho.answers⟩
  | dropped _ ht ha => exact ⟨old, ht, ha.trans ho.answers⟩
  | answered x ht => cases ho.task.symm.trans ht
  | other ht => cases ho.task.symm.trans ht

theorem over_exec {h : Hub} {k : TaskId} {answers : List Answer} (hp : h.path = .streams)
    (ht : h.tools = .standard) (ho : h.Over k answers) (actions : List Action) :
    (h.exec actions).Over k answers :=
  schedule_induction (P := fun m => m.hub.Over k answers) hp ht ho
    (fun _ _ _ hp ho hs => over_step hp ho hs) actions

theorem progress_step {m m' : Moment} {log log' : List Mark} {k : TaskId} {reply : CommandReply}
    (hp : m.hub.path = .streams) (h : Progress k reply log m.hub) (hs : Step m log' m') :
    Progress k reply (log ++ log') m'.hub := by
  cases h with
  | waits old ht ha =>
    have old' := Nat.lt_of_lt_of_le old (onward_step hp hs).nextTask
    cases fate_step hp hs old with
    | same ht' ha' => exact .waits old' (ht'.trans ht) (ha'.trans ha)
    | answered x ht₀ ht' ha' =>
      cases ht.symm.trans ht₀
      exact .answered x ⟨old', ht', by rw [ha', ha]; rfl⟩
    | dropped hm ht' ha' => exact .dropped (List.mem_append_right _ hm) ⟨old', ht', ha'.trans ha⟩
    | other ht₀ hne =>
      cases ht.symm.trans ht₀
      exact absurd rfl (hne _)
  | answered x ho => exact .answered x (over_step hp ho hs)
  | dropped hm ho => exact .dropped (List.mem_append_left _ hm) (over_step hp ho hs)

theorem progress_steps {m m' : Moment} {log log' : List Mark} {k : TaskId} {reply : CommandReply}
    (hp : m.hub.path = .streams) (h : Progress k reply log m.hub) (hs : Steps m log' m') :
    Progress k reply (log ++ log') m'.hub :=
  steps_induction (P := fun log m => Progress k reply log m.hub)
    (fun _ _ _ _ hp h hs => progress_step hp h hs) log hs hp h

/-! ## Requests that are let in -/

/-- A bridge as it is served: messages go over the streams of sessions, the tools are the built-in
ones, and the next task is a new one. -/
structure Serving (h : Hub) : Prop where
  path : h.path = .streams
  tools : h.tools = .standard
  task : h.tasks.get? h.nextTask = none
  answers : h.answersTo h.nextTask = []

/-- Every bridge is served so, from its start on. -/
theorem serving_exec (config : Config) (ids : Nat → String) (actions : List Action) :
    ((Hub.new config ids).exec actions).Serving := by
  obtain ⟨hp, ht, -⟩ := sameSetting_exec (h := Hub.new config ids) rfl rfl actions
  have hu := unused_exec config ids actions _ (Nat.le_refl _)
  exact ⟨hp, ht, hu.task, hu.answers⟩

/-- What comes of a request that is let in, whatever happens after: it gets one answer, or it has
none. Then its client has left, or its tool waits for the editor. -/
def Replied (h : Hub) (r : Request) (id : Json) (after : List Action) : Prop :=
  let k := (h.request r).1
  let h' := (h.act (.event (.request r))).exec after
  (∃ m : Rpc.Message, m.Answers id ∧ h'.answersTo k = [.response (.message 200 m)]) ∨
    h'.answersTo k = [] ∧ (.event (.abandon k) ∈ after ∨ ∃ call o, h.toolCall? r = some call ∧
      h.order? call = some o ∧
      h'.tasks.get? k = some (.command (.tool o.command (.response id))))

namespace Serving

variable {h : Hub}

theorem touched {h' : Hub} (hs : h.Serving) (ht : Touched h h') : h'.Serving := by
  obtain ⟨sessions, n, -, rfl⟩ := ht
  exact ⟨hs.path, hs.tools, hs.task, hs.answers⟩

theorem answered (hs : h.Serving) (a : Answer) : (h.answered a).2.Over h.nextTask [a] := by
  have hnone : entriesOf h.nextTask h.answers = [] := hs.answers
  refine ⟨Nat.lt_succ_self _, hs.task, ?_⟩
  show entriesOf h.nextTask (h.answers ++ [(h.nextTask, a)]) = [a]
  simp [hnone]

/-- An order that is given makes its call wait, or ends it. -/
theorem dispatch (hs : h.Serving) (reply : CommandReply) (o : Broker.Order) :
    Progress h.nextTask reply [] (h.dispatch reply o).2 := by
  rcases dispatch_cases hs.path reply o with ⟨e, he⟩ | ⟨t, state, -, -, -, hsteps⟩
  · have hanswers : (h.refused reply e).answersTo h.nextTask =
        h.answersTo h.nextTask ++ [commandAnswer reply (.error e)] := by
      simp [refused, finish, spawn, answersTo]
    rw [he]
    refine .answered (.error e) ⟨Nat.lt_succ_self _, Table.get?_erase_self .., ?_⟩
    rw [hanswers, hs.answers]
    rfl
  · have begun : Progress h.nextTask reply [] (h.begun reply o t state) :=
      .waits (Nat.lt_succ_self _) (Table.get?_set_self ..) hs.answers
    exact progress_steps (m := ⟨h.begun reply o t state, []⟩) hs.path begun hsteps

/-- A call of a tool is answered at once, or it gives an order. -/
theorem execute (hs : h.Serving) (id : Json) (name : String) (args : Json) (c : Tool.Context) :
    (h.execute (.response id) name args c).1 = h.nextTask ∧
      ((∃ m : Rpc.Message, m.Answers id ∧ (h.execute (.response id) name args c).2.Over h.nextTask
          [.response (.message 200 m)]) ∨
        ∃ o, (h.tools.execute name args c h.services).1 = .command o ∧
          Progress h.nextTask (.tool o.command (.response id)) []
            (h.execute (.response id) name args c).2) := by
  unfold Hub.execute
  rcases h.tools.execute name args c h.services with ⟨outcome, services⟩
  have hs' : (h.withServices services).Serving := ⟨hs.path, hs.tools, hs.task, hs.answers⟩
  cases outcome with
  | result r => exact ⟨rfl, .inl ⟨_, answers_toolMessage id (.ok r), hs'.answered _⟩⟩
  | error e => exact ⟨rfl, .inl ⟨_, answers_toolMessage id (.error e), hs'.answered _⟩⟩
  | panic detail =>
    exact ⟨rfl, .inl ⟨_, answers_toolMessage id (.error (.executionFailed _)), hs'.answered _⟩⟩
  | command o => exact ⟨rfl, .inr ⟨o, rfl, hs'.dispatch _ o⟩⟩

/-- So it is with every request that is let in. -/
theorem request (hs : h.Serving) {r : Request} {q : Rpc.Request} {id : Json} {session : String}
    (hm : r.method = "POST") (hr : r.route = "/mcp") (hl : r.body.length ≤ h.config.maxBodyBytes)
    (hq : Rpc.Frame.parse r.body = .request q) (hh : q.isHandshake = false) (hid : q.id = some id)
    (ha : h.Admits r session) :
    (h.request r).1 = h.nextTask ∧
      ((∃ m : Rpc.Message, m.Answers id ∧
          (h.request r).2.Over h.nextTask [.response (.message 200 m)]) ∨
        ∃ call o, h.toolCall? r = some call ∧ h.order? call = some o ∧
          Progress h.nextTask (.tool o.command (.response id)) [] (h.request r).2) := by
  have hc := callerSession_eq_ok_iff.2 ha
  have seen := touched_callerSession h r
  rcases handling_of_id (h.callerSession r).2 (some session) hid with ⟨o, ho⟩ | ⟨name, args, hx⟩
  · have handled := seen.trans (handling_cases (h.callerSession r).2 (some session) q).1
    have hnext := handled.nextTask
    rw [request_of_now hm hr hl hq hh hc ho, ← hnext]
    exact ⟨rfl, .inl ⟨_, answers_reply id o, (hs.touched handled).answered _⟩⟩
  · have hcall := toolCall?_of_handling hm hr hl hq hh hc hx
    have hran := (hs.touched seen).execute id name args (h.toolContext (some session))
    obtain ⟨sessions, n, -, he⟩ := seen
    rw [request_of_toolCall hcall]
    rw [he] at hran ⊢
    obtain ⟨hk, hnow | ⟨o, ho, hprogress⟩⟩ := hran
    · exact ⟨hk, .inl hnow⟩
    · have ho : (h.tools.execute name args (h.toolContext (some session)) h.services).1 =
        .command o := ho
      exact ⟨hk, .inr ⟨_, o, hcall, by simp only [order?, ho], hprogress⟩⟩

end Serving

/-- So it is answered with its id, in every schedule. -/
theorem Serving.replied {h : Hub} (hs : h.Serving) {r : Request} {q : Rpc.Request} {id : Json}
    {session : String} (hm : r.method = "POST") (hr : r.route = "/mcp")
    (hl : r.body.length ≤ h.config.maxBodyBytes) (hq : Rpc.Frame.parse r.body = .request q)
    (hh : q.isHandshake = false) (hid : q.id = some id) (ha : h.Admits r session)
    (after : List Action) : h.Replied r id after := by
  obtain ⟨hk, hcase⟩ := hs.request hm hr hl hq hh hid ha
  obtain ⟨hp, ht, -⟩ := sameSetting_exec hs.path hs.tools [.event (.request r)]
  have hp₁ : (h.act (.event (.request r))).path = .streams := hp.trans hs.path
  have ht₁ : (h.act (.event (.request r))).tools = .standard := ht.trans hs.tools
  rw [Replied, hk]
  rcases hcase with ⟨m, hm, hover⟩ | ⟨call, o, hcall, ho, hprogress⟩
  · exact .inl ⟨m, hm, (over_exec hp₁ ht₁ hover after).answers⟩
  · obtain ⟨log, hlog, hmarks⟩ := exec_steps hp₁ ht₁ after
    cases progress_steps hp₁ hprogress hlog with
    | waits _ htask hnone => exact .inr ⟨hnone, .inr ⟨call, o, hcall, ho, htask⟩⟩
    | answered x hover =>
      exact .inl ⟨_, answers_toolMessage id (Tool.ofCommand o.command x), hover.answers⟩
    | dropped hm hover =>
      obtain ⟨before, a, rest, rfl, rfl⟩ := hmarks _ hm
      exact .inr ⟨hover.answers, .inl (List.mem_append_right _ List.mem_cons_self)⟩

/-! ## Every POST -/

/-- How a POST is answered. -/
structure PostAnswered (h : Hub) (r : Request) : Prop where
  rejected : ∀ m, Rpc.Frame.parse r.body = .rejected m → h.AnswersAtOnce r (.message 400 m)
  handshake : ∀ q, Rpc.Frame.parse r.body = .request q → q.isHandshake = true →
    ∃ id, q.id = some id ∧ h.HandshakeAnswered r id
  /-- Every other message is let in or refused. -/
  judged : (∃ session, h.Admits r session) ↔ ¬ ∃ status e, h.Refuses r status e
  refused : ∀ id, (Rpc.Frame.parse r.body).replyId? = some id → ∀ status e, h.Refuses r status e →
    h.AnswersAtOnce r (.refusal status id e.toRpc)
  noted : (Rpc.Frame.parse r.body).IsNote → ∀ session, h.Admits r session →
    h.AnswersAtOnce r (.plain 202)
  replied : ∀ q id, Rpc.Frame.parse r.body = .request q → q.isHandshake = false →
    q.id = some id → ∀ session, h.Admits r session → ∀ after, h.Replied r id after

/-- Every POST is answered so, whatever its body and its headers and in whatever state. -/
theorem post_answered {h : Hub} (hs : h.Serving) {r : Request} (hm : r.method = "POST")
    (hr : r.route = "/mcp") :
    (h.config.maxBodyBytes < r.body.length → h.AnswersAtOnce r tooLong) ∧
      (r.body.length ≤ h.config.maxBodyBytes → h.PostAnswered r) := by
  refine ⟨answers_tooLong hm hr, fun hl => ⟨fun m hq => answers_rejected hm hr hl hq,
    fun q hq hh => ?_, admits_iff_not_refuses, fun id hq status e he => answers_refusal hm hr hl hq he,
    fun hn session ha => answers_note hm hr hl hn ha,
    fun q id hq hh hid session ha after => hs.replied hm hr hl hq hh hid ha after⟩⟩
  obtain ⟨id, hid⟩ := Rpc.Frame.id_of_parse hq hh
  exact ⟨id, hid, handshake_answered hm hr hl hq hh hid⟩

/-- A bridge with a session that has not agreed on a version. -/
def unnegotiated : Hub :=
  let h := Hub.new .default sampleId
  { h with sessions := h.sessions.create "raw" h.now h.wall }

/-- A client of this session forgets the version. -/
def forgetful : Request := samplePost (some "raw") (some (.int 5)) "ping" (.obj [])

theorem post_answered_forgetful :
    (unnegotiated.Serving ∧ forgetful.method = "POST" ∧ forgetful.route = "/mcp") ∧
    (forgetful.body.length ≤ unnegotiated.config.maxBodyBytes ∧
      unnegotiated.Refuses forgetful 400 .missingProtocolVersion) ∧
    (unnegotiated.config.maxBodyBytes < forgetful.body.length →
      unnegotiated.AnswersAtOnce forgetful tooLong) ∧
    (forgetful.body.length ≤ unnegotiated.config.maxBodyBytes →
      unnegotiated.PostAnswered forgetful) := by
  have serving : unnegotiated.Serving := ⟨rfl, rfl, rfl, rfl⟩
  have routed : forgetful.route = "/mcp" := by decide +kernel
  have fits : forgetful.body.length ≤ unnegotiated.config.maxBodyBytes := by decide +kernel
  have named : forgetful.value? sessionHeader = some "raw" := by decide +kernel
  have unversioned : forgetful.value? versionHeader = none := by decide +kernel
  have refused : unnegotiated.Refuses forgetful 400 .missingProtocolVersion := by
    refine .version named rfl ?_
    rw [unversioned]
    exact .missing rfl
  exact ⟨⟨serving, rfl, routed⟩, ⟨fits, refused⟩, post_answered serving rfl routed⟩

/-- A handshake whose header names these versions. -/
def sampleVersioned (versions : List String) : Request :=
  { samplePost none (some (.int 1)) Rpc.handshakeMethod (.obj []) with
    headers := versions.map fun v => (versionHeader, v) }

/-- The law needs its two provisos. A handshake without a version is not answered if the settings
leave no room for it, and a version that is blank or that cannot be read counts as none. -/
theorem handshake_too_long_or_unreadable :
    (Rpc.Frame.parse (sampleVersioned []).body =
        .request ⟨some (.int 1), Rpc.handshakeMethod, some (.obj [])⟩ ∧
      (Hub.new { Config.default with maxBodyBytes := 32 } sampleId).AnswersAtOnce
        (sampleVersioned []) tooLong) ∧
    (" " ∉ supportedVersions ∧ ∃ session m, (Hub.new .default sampleId).AnswersAtOnce
      (sampleVersioned [" "]) { Response.message 200 m with session := some session }) ∧
    ("é" ∉ supportedVersions ∧ ∃ session m, (Hub.new .default sampleId).AnswersAtOnce
      (sampleVersioned ["é"]) { Response.message 200 m with session := some session }) := by
  have parsed : Rpc.Frame.parse (sampleVersioned []).body =
      .request ⟨some (.int 1), Rpc.handshakeMethod, some (.obj [])⟩ := by decide +kernel
  have routed : (sampleVersioned []).route = "/mcp" := by decide +kernel
  have fits : (sampleVersioned []).body.length ≤
      (Hub.new .default sampleId).config.maxBodyBytes := by decide +kernel
  have accepted {v : String} (hv : (sampleVersioned [v]).value? versionHeader = none) :
      ∃ session m, (Hub.new .default sampleId).AnswersAtOnce (sampleVersioned [v])
        { Response.message 200 m with session := some session } := by
    have answered := handshake_answered (h := Hub.new .default sampleId) (r := sampleVersioned [v])
      rfl routed fits parsed rfl rfl
    obtain ⟨session, m, -, hnow⟩ := answered.accepted fun u hu => by cases hv.symm.trans hu
    exact ⟨session, m, hnow⟩
  exact ⟨⟨parsed, answers_tooLong rfl routed (by decide +kernel)⟩,
    ⟨by decide, accepted (by decide +kernel)⟩, ⟨by decide, accepted (by decide +kernel)⟩⟩

end EditorBridge.Hub
