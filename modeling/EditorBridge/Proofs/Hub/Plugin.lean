import EditorBridge.Proofs.Hub.Commands
import EditorBridge.Proofs.Hub.Effect
import EditorBridge.Proofs.Hub.Post
import EditorBridge.Proofs.Json.Decode
/-!
# How the tools for the plugin fail

A call of a tool for the editor's plugin always has a result. Whether it is a
failure, and of which kind, is stated here without the order in which the
registry and the tools look at the caller, at the arguments and at what there
is; `execute_plugin` says that this is theirs. A call that fails changes nothing.
-/

namespace EditorBridge

open Http (Request Response)

/-! ## The parameters of a call -/

/-- Whatever comes as arguments, the call of a tool can be read. -/
theorem Rpc.ToolCall.decode_obj {members : Json.Members} (hm : members.Increasing) {name : String}
    (hname : Json.Members.get? "name" members = some (.str name)) :
    ∃ arguments, decode (.obj members) = .ok ⟨name, arguments⟩ ∧
      Json.orNull arguments = Json.orNull (Json.Members.get? "arguments" members) := by
  let arguments := Json.present (Json.Members.get? "arguments" members)
  have hread : (((Json.Record.pure ToolCall.mk).seq (.required "name" Json.Decoder.string)).seq
      (.withDefault "arguments" (Json.Decoder.optional Json.Decoder.any) none)).Reads members
      (ToolCall.mk name arguments) :=
    .seq (.seq (Json.Record.reads_pure _) (Json.Record.reads_required hname rfl))
      (Json.Record.reads_any rfl)
  exact ⟨arguments, hread.decode hm _, Json.orNull_present _⟩

namespace Tool

/-! ## When a call fails -/

/-- The tools for the editor's plugin. -/
inductive PluginTool where
  | sync
  | ping
  | ack
  deriving DecidableEq

namespace PluginTool

/-- The tool itself. -/
def tool : PluginTool → Tool
  | sync => syncSnapshot
  | ping => Tool.ping
  | ack => ackCommand

/-- Arguments that a tool cannot read. -/
def Unreadable (args : Json) : PluginTool → Prop
  | sync => ∃ m, Snapshot.decode args = .error m
  | ping => False
  | ack => ∃ m, Broker.Ack.decode args = .error m

/-- A session's call is wrong: its arguments do not fit or cannot be read, or it is not the one to
make this call. -/
inductive Wrong (session : String) (args : Json) (s : Services) : PluginTool → Prop
  | misfit {p : PluginTool} : Schema.violations p.tool.inputSchema args ≠ [] → Wrong session args s p
  | unreadable {p : PluginTool} : p.Unreadable args → Wrong session args s p
  | nameless : Text.blank session = true → Wrong session args s sync
  | foreign {a : Broker.Ack} {entry : Broker.Pending} : Broker.Ack.decode args = .ok a →
      s.broker.pending.get? a.commandId = some entry → entry.session ≠ session →
      Wrong session args s ack

/-- A session's call is about something that is not there. -/
inductive Idle (session : String) (args : Json) (s : Services) : PluginTool → Prop
  | unsynced : Schema.violations Tool.ping.inputSchema args = [] →
      s.snapshots.entries.get? session = none → Idle session args s ping
  | unknown {a : Broker.Ack} : Schema.violations ackCommand.inputSchema args = [] →
      Broker.Ack.decode args = .ok a → s.broker.pending.get? a.commandId = none →
      Idle session args s ack

/-- Why a call fails, and the kind of the failure. -/
inductive Fails (p : PluginTool) (c : Context) (args : Json) (s : Services) : Rpc.ErrorKind → Prop
  | unready : c.ready? = none → Fails p c args s .notAvailable
  | wrong {session : String} : c.ready? = some session → Wrong session args s p →
      Fails p c args s .invalidParams
  | idle {session : String} : c.ready? = some session → Idle session args s p →
      Fails p c args s .notAvailable

/-- A result tells how a call went: it is a failure of a kind exactly if there is a reason for that
kind, and then nothing has changed. -/
structure Settles (p : PluginTool) (c : Context) (args : Json) (s : Services) (r : Result)
    (s' : Services) : Prop where
  fails_iff : ∀ kind, (r.isError = true ∧ r.kind? = some kind) ↔ p.Fails c args s kind
  kinded : r.isError = true → ∃ kind, r.kind? = some kind
  inert : r.isError = true → s' = s

variable {p : PluginTool} {c : Context} {args : Json} {s s' : Services} {session : String}
  {kind kind' : Rpc.ErrorKind}

theorem Idle.not_wrong (hi : Idle session args s p) : ¬ Wrong session args s p := by
  intro hw
  cases hi with
  | unsynced hv =>
    rcases hw with hn | hm
    · exact hn hv
    · exact hm
  | unknown hv ha hnone =>
    rcases hw with hn | ⟨m, hm⟩ | _ | ⟨ha', hentry⟩
    · exact hn hv
    · cases ha.symm.trans hm
    · cases ha.symm.trans ha'
      cases hnone.symm.trans hentry

/-- The reasons do not contradict each other. -/
theorem Fails.unique (h : p.Fails c args s kind) (h' : p.Fails c args s kind') : kind = kind' := by
  have ready {session session' : String} (hs : c.ready? = some session)
      (hs' : c.ready? = some session') : session = session' := Option.some.inj (hs.symm.trans hs')
  cases h with
  | unready hn =>
    cases h' with
    | wrong hs => cases hn.symm.trans hs
    | unready | idle => rfl
  | wrong hs hw =>
    cases h' with
    | unready hn => cases hn.symm.trans hs
    | wrong => rfl
    | idle hs' hi => exact absurd (ready hs hs' ▸ hw) hi.not_wrong
  | idle hs hi =>
    cases h' with
    | wrong hs' hw => exact absurd (ready hs' hs ▸ hw) hi.not_wrong
    | unready | idle => rfl

theorem Settles.failure (h : p.Fails c args s kind) (message : String) :
    p.Settles c args s (.failure kind message) s where
  fails_iff kind' := by
    rw [Result.kind?_failure]
    constructor
    · rintro ⟨-, he⟩
      exact Option.some.inj he ▸ h
    · intro h'
      exact ⟨rfl, congrArg some (h.unique h')⟩
  kinded _ := ⟨kind, Result.kind?_failure kind message⟩
  inert _ := rfl

theorem Settles.success (h : ∀ kind, ¬ p.Fails c args s kind) (value : Json) (s' : Services) :
    p.Settles c args s (.success value) s' where
  fails_iff kind := ⟨fun hf => (Bool.false_ne_true hf.1).elim, fun hf => absurd hf (h kind)⟩
  kinded hf := (Bool.false_ne_true hf).elim
  inert hf := (Bool.false_ne_true hf).elim

/-- A call that has been made by a session succeeds unless it is wrong or idle. -/
theorem not_fails (hs : c.ready? = some session) (hw : ¬ Wrong session args s p)
    (hi : ¬ Idle session args s p) (kind : Rpc.ErrorKind) : ¬ p.Fails c args s kind := by
  rintro (hn | ⟨hs', hw'⟩ | ⟨hs', hi'⟩)
  · cases hn.symm.trans hs
  · cases hs.symm.trans hs'
    exact hw hw'
  · cases hs.symm.trans hs'
    exact hi hi'

/-! ## The three tools -/

/-- An outcome is a result that tells how the call went. -/
def Answers (p : PluginTool) (c : Context) (args : Json) (s : Services)
    (run : Outcome × Services) : Prop :=
  ∃ r s', run = (.result r, s') ∧ p.Settles c args s r s'

theorem Answers.failure (h : p.Fails c args s kind) (message : String) :
    p.Answers c args s (.failure kind message, s) := ⟨_, _, rfl, .failure h message⟩

section Ready

variable (hs : c.ready? = some session) (hv : Schema.violations p.tool.inputSchema args = [])

include hs hv

theorem answers_runSync (hp : p = sync) : p.Answers c args s (runSync session args s) := by
  subst hp
  obtain ⟨⟨members, rfl⟩, -⟩ := fits_objectSchema hv
  have hdecode := Snapshot.decode_obj members
  unfold runSync
  rw [hdecode]
  cases hb : Text.blank session with
  | true =>
    simp only [Snapshot.Store.upsert, hb]
    exact .failure (.wrong hs (.nameless hb)) _
  | false =>
    simp only [Snapshot.Store.upsert, hb]
    refine ⟨_, _, rfl, .success (not_fails hs ?_ ?_) _ _⟩
    · rintro (hn | ⟨m, hm⟩ | hb')
      · exact hn hv
      · cases hdecode.symm.trans hm
      · cases hb.symm.trans hb'
    · rintro ⟨⟩

theorem answers_runPing (hp : p = ping) : p.Answers c args s (runPing session args s) := by
  subst hp
  unfold runPing Snapshot.Store.touch
  cases hget : s.snapshots.entries.get? session with
  | none => exact .failure (.idle hs (.unsynced hv hget)) _
  | some stored =>
    refine ⟨_, _, rfl, .success (not_fails hs ?_ ?_) _ _⟩
    · rintro (hn | hm)
      · exact hn hv
      · exact hm
    · rintro ⟨-, hnone⟩
      cases hget.symm.trans hnone

theorem answers_runAck (hp : p = ack) : p.Answers c args s (runAck session args s) := by
  subst hp
  unfold runAck
  cases ha : Broker.Ack.decode args with
  | error m =>
    have unreadable : Unreadable args ack := ⟨m, ha⟩
    exact .failure (.wrong hs (.unreadable unreadable)) _
  | ok a =>
    simp only [Broker.ack, Broker.claim]
    cases hentry : s.broker.pending.get? a.commandId with
    | none => exact .failure (.idle hs (.unknown hv ha hentry)) _
    | some entry =>
      by_cases hown : entry.session = session
      · simp only [hown, if_true]
        refine ⟨_, _, rfl, .success (not_fails hs ?_ ?_) _ _⟩
        · rintro (hn | ⟨m, hm⟩ | _ | ⟨ha', hentry', hother⟩)
          · exact hn hv
          · cases ha.symm.trans hm
          · cases ha.symm.trans ha'
            cases hentry.symm.trans hentry'
            exact hother hown
        · rintro (_ | ⟨-, ha', hnone⟩)
          cases ha.symm.trans ha'
          cases hentry.symm.trans hnone
      · simp only [hown, if_false]
        exact .failure (.wrong hs (.foreign ha hentry hown)) _

end Ready

theorem answers_run (p : PluginTool) (c : Context) {args : Json} (s : Services)
    (hv : Schema.violations p.tool.inputSchema args = []) :
    p.Answers c args s (p.tool.run c args s) := by
  have run : p.tool.run c args s = whenReady (match p with
      | sync => runSync
      | ping => runPing
      | ack => runAck) c args s := by cases p <;> rfl
  rw [run, whenReady]
  cases hs : c.ready? with
  | none => exact .failure (.unready hs) _
  | some session =>
    cases p with
    | sync => exact answers_runSync hs hv rfl
    | ping => exact answers_runPing hs hv rfl
    | ack => exact answers_runAck hs hv rfl

theorem answers_reject (p : PluginTool) (c : Context) {args : Json} (s : Services)
    (hv : Schema.violations p.tool.inputSchema args ≠ []) (message : String) :
    p.Answers c args s (p.tool.reject message c, s) := by
  have reject : p.tool.reject message c = rejectByResult message c := by cases p <;> rfl
  rw [reject, rejectByResult]
  cases hs : c.ready? with
  | none => exact .failure (.unready hs) _
  | some session => exact .failure (.wrong hs (.misfit hv)) _

theorem find?_standard (p : PluginTool) : Registry.standard.find? p.tool.name = some p.tool := by
  cases p <;> rfl

/-- Every call of a tool for the plugin has a result, which tells how it went. -/
theorem execute_plugin (p : PluginTool) (args : Json) (c : Context) (s : Services) :
    p.Answers c (Registry.arguments args) s (Registry.standard.execute p.tool.name args c s) := by
  by_cases hv : Schema.violations p.tool.inputSchema (Registry.arguments args) = []
  · obtain ⟨r, s', hr, hsettles⟩ := answers_run p c s hv
    rw [Registry.execute, Registry.executeIn_of_fits p.find?_standard hv, hr]
    exact ⟨r, s', rfl, hsettles⟩
  · rw [Registry.execute, Registry.executeIn_of_misfit p.find?_standard hv]
    exact answers_reject p c s hv _

end PluginTool

end Tool

namespace Hub

open Tool (PluginTool Registry)

/-! ## Calls over the wire -/

theorem handling_toolCall (h : Hub) (caller : Option String) {q : Rpc.Request} {id : Json}
    {members : Json.Members} {name : String} (hid : q.id = some id) (hm : q.method = "tools/call")
    (hparams : q.params = some (.obj members)) (hkeys : members.Increasing)
    (hname : Json.Members.get? "name" members = some (.str name)) :
    h.handling caller q =
      (.tool id name (Json.orNull (Json.Members.get? "arguments" members)), h) := by
  obtain ⟨arguments, hdecode, hargs⟩ := Rpc.ToolCall.decode_obj hkeys hname
  have read : params Rpc.ToolCall.decode q = .ok ⟨name, arguments⟩ := by
    simp only [params, hparams, hdecode]
    rfl
  rw [handling_of_call h caller hid hm read, hargs]

/-- A call of a tool for the plugin is answered by a result, and not by an error of the protocol;
what it does to the snapshots and the commands, and whether and how it fails, is told by the rules
of the tool. A call that is posted by a session is answered alike. -/
def AnswersPlugin (h : Hub) (p : PluginTool) (caller : Option String) (q : Rpc.Request)
    (id args : Json) : Prop :=
  ∃ result services,
    p.Settles (h.toolContext caller) (Registry.arguments args) h.services result services ∧
    h.handle caller q = (h.withServices services).answered
      (.message (some (.response id result.toJson.sorted))) ∧
    ∀ r s, caller = some s → h.Posts r q → h.Admits r s → ∃ x, h.Names r s x ∧
      h.request r = ((h.seen s x).withServices services).answered
        (.response (.message 200 (.response id result.toJson.sorted)))

/-- Whatever comes as arguments, from whomever and in whatever state, a tool for the plugin fails by
its result, of the kind that the rules say, and leaves the snapshots and the commands as they
were. -/
theorem plugin_fails_by_result (h : Hub) (ht : h.tools = .standard) (p : PluginTool)
    (caller : Option String) {q : Rpc.Request} {id : Json} {members : Json.Members}
    (hid : q.id = some id) (hm : q.method = "tools/call") (hparams : q.params = some (.obj members))
    (hkeys : members.Increasing)
    (hname : Json.Members.get? "name" members = some (.str p.tool.name)) :
    h.AnswersPlugin p caller q id (Json.orNull (Json.Members.get? "arguments" members)) := by
  have handled (h : Hub) := handling_toolCall h caller hid hm hparams hkeys hname
  generalize Json.orNull (Json.Members.get? "arguments" members) = args at handled ⊢
  obtain ⟨result, services, hrun, hsettles⟩ :=
    PluginTool.execute_plugin p args (h.toolContext caller) h.services
  have executed (h' : Hub) (reply : ToolReply) (htools : h'.tools = .standard)
      (hservices : h'.services = h.services) :
      h'.execute reply p.tool.name args (h.toolContext caller) =
        (h'.withServices services).answered (toolAnswer reply (.ok result)) := by
    rw [execute, htools, hservices, hrun]
  refine ⟨result, services, hsettles, ?_, ?_⟩
  · rw [handle, handled]
    exact executed h _ ht rfl
  · rintro r s rfl hposts hadmits
    obtain ⟨x, hnames, hcaller⟩ := hadmits.names
    refine ⟨x, hnames, ?_⟩
    have hh : q.isHandshake = false := by
      simp [Rpc.Request.isHandshake, hm, Rpc.handshakeMethod]
    have called : h.toolCall? r = some ⟨s, id, p.tool.name, args⟩ :=
      toolCall?_of_handling hposts.method hposts.route hposts.fits hposts.parsed hh
        (by rw [hcaller]) (by rw [hcaller, handled])
    rw [request_of_toolCall called, hcaller]
    exact executed (h.seen s x) _ ht rfl

/-- A bridge on which the client has finished its handshake, too, and has stopped the project. -/
def intruded : Hub :=
  (Hub.new .default sampleId).exec (editing ++ [sampleReady "S2", .event (.request stopping)])

/-- An acknowledgement of this command. -/
def intrusion : Json :=
  .obj [("commandId", .str "cmd-1704067200000000000-1"), ("success", .bool true)]

/-- The client acknowledges its own command in place of the editor. -/
theorem plugin_fails_by_result_intruded :
    let members : Json.Members := [("arguments", intrusion), ("name", .str "bridge_ack_command")]
    let q : Rpc.Request := ⟨some (.int 7), "tools/call", some (.obj members)⟩
    (intruded.tools = .standard ∧ members.Increasing ∧
      Json.Members.get? "name" members = some (.str PluginTool.ack.tool.name)) ∧
    PluginTool.ack.Fails (intruded.toolContext (some "S2")) intrusion intruded.services
      .invalidParams ∧
    intruded.AnswersPlugin .ack (some "S2") q (.int 7) intrusion := by
  intro members q
  have tools : intruded.tools = .standard := (serving_exec .default sampleId _).tools
  have increasing : members.Increasing := by
    unfold Json.Members.Increasing
    decide +kernel
  have ran : (intruded.toolContext (some "S2")).ready? = some "S2" ∧
      (intruded.broker.pending.get? "cmd-1704067200000000000-1").map (·.session) = some "S1" := by
    decide +kernel
  have services (h : Hub) : h.broker = h.services.broker := rfl
  rw [services] at ran
  obtain ⟨entry, hentry, howner⟩ := Option.map_eq_some_iff.1 ran.2
  have read : Broker.Ack.decode intrusion =
      .ok ⟨"cmd-1704067200000000000-1", true, none, none, none⟩ := rfl
  have foreign : PluginTool.Wrong "S2" intrusion intruded.services .ack := by
    refine .foreign read hentry ?_
    rw [howner]
    decide
  exact ⟨⟨tools, increasing, rfl⟩, .wrong ran.1 foreign,
    plugin_fails_by_result intruded tools .ack (some "S2") rfl rfl rfl increasing rfl⟩

end Hub

end EditorBridge
