import EditorBridge.Proofs.Hub.Retooling
import EditorBridge.Tool.Probe
import Mathlib.Data.List.Forall2
import Mathlib.Data.Option.Defs
/-!
# What clients learn of failures

A tool that breaks down leaves a detail behind that may name files of the
machine. Two bridges whose tools differ in such details alone are compared: they
go through the same states and give the same answers, whatever is asked of them.
The faults of the bridge itself are all reported in the same words.
-/

namespace EditorBridge

namespace Tool

/-! ## Breakdowns -/

/-- A run that breaks down; how it came to that is for the bridge alone. -/
def Outcome.Breaks : Outcome → Prop
  | .error (.executionFailed _) | .panic _ => True
  | _ => False

theorem Outcome.Breaks.cases {o : Outcome} (hb : o.Breaks) :
    (∃ detail, o = .error (.executionFailed detail)) ∨ ∃ detail, o = .panic detail := by
  cases o with
  | error e =>
    cases e with
    | executionFailed detail => exact .inl ⟨detail, rfl⟩
    | _ => exact hb.elim
  | panic detail => exact .inr ⟨detail, rfl⟩
  | _ => exact hb.elim

/-- Outcomes that are the same, or breakdowns both, each with a detail of its own. -/
def Outcome.Alike (o o' : Outcome) : Prop := o = o' ∨ o.Breaks ∧ o'.Breaks

/-- Tools that differ only in the details of their breakdowns. -/
structure Alike (t u : Tool) : Prop where
  name : t.name = u.name
  description : t.description = u.description
  inputSchema : t.inputSchema = u.inputSchema
  reject : t.reject = u.reject
  outcome (c : Context) (args : Json) (s : Services) : (t.run c args s).1.Alike (u.run c args s).1
  services (c : Context) (args : Json) (s : Services) : (t.run c args s).2 = (u.run c args s).2

/-- Registries whose tools differ, one by one, only in the details of their breakdowns. -/
def Registry.Alike : Registry → Registry → Prop := List.Forall₂ Tool.Alike

theorem Alike.refl (t : Tool) : t.Alike t :=
  ⟨rfl, rfl, rfl, rfl, fun _ _ _ => .inl rfl, fun _ _ _ => rfl⟩

namespace Registry

variable {r r' : Registry}

theorem Alike.refl (r : Registry) : r.Alike r := List.forall₂_same.2 fun t _ => Tool.Alike.refl t

theorem Alike.list (ha : r.Alike r') : r.list = r'.list := by
  induction ha with
  | nil => rfl
  | cons ht _ ih =>
    simp only [Registry.list, List.map_cons, Tool.info] at ih ⊢
    rw [ht.name, ht.description, ht.inputSchema, ih]

theorem Alike.find? (ha : r.Alike r') (name : String) :
    Option.Rel Tool.Alike (r.find? name) (r'.find? name) := by
  induction ha with
  | nil => exact .none
  | @cons t u _ _ ht _ ih =>
    simp only [Registry.find?, List.find?_cons, ht.name] at ih ⊢
    split
    · exact .some ht
    · exact ih

/-- A breakdown becomes an error that says so. -/
theorem contain_of_breaks {o : Outcome} (hb : o.Breaks) :
    ∃ detail, contain o = .error (.executionFailed detail) := by
  obtain ⟨detail, rfl⟩ | ⟨detail, rfl⟩ := hb.cases
  · exact ⟨detail, rfl⟩
  · exact ⟨panicDetail detail, rfl⟩

theorem contain_alike {o o' : Outcome} (ha : o.Alike o') : (contain o).Alike (contain o') := by
  rcases ha with rfl | ⟨hb, hb'⟩
  · exact .inl rfl
  · obtain ⟨detail, he⟩ := contain_of_breaks hb
    obtain ⟨detail', he'⟩ := contain_of_breaks hb'
    rw [he, he']
    exact .inr ⟨trivial, trivial⟩

/-- Alike registries execute a call alike, and to the same effect. -/
theorem Alike.executeIn (ha : r.Alike r') (d : Schema.Dialect) (name : String) (args : Json)
    (c : Context) (s : Services) :
    (r.executeIn d name args c s).1.Alike (r'.executeIn d name args c s).1 ∧
      (r.executeIn d name args c s).2 = (r'.executeIn d name args c s).2 := by
  rcases hf : r.find? name with _ | t <;> rcases hf' : r'.find? name with _ | u <;>
    have hr := ha.find? name <;> rw [hf, hf'] at hr <;> cases hr
  · rw [executeIn_of_none hf, executeIn_of_none hf']
    exact ⟨.inl rfl, rfl⟩
  · next ht =>
    by_cases hv : d.violations t.inputSchema (arguments args) = []
    · rw [executeIn_of_fits hf hv, executeIn_of_fits hf' (ht.inputSchema ▸ hv)]
      exact ⟨contain_alike (ht.outcome ..), ht.services ..⟩
    · rw [executeIn_of_misfit hf hv, executeIn_of_misfit hf' (ht.inputSchema ▸ hv), ht.reject,
        ht.inputSchema]
      exact ⟨.inl rfl, rfl⟩

/-- A tool that breaks down makes its call fail, and what it had done stays done. -/
theorem executeIn_of_breaks {d : Schema.Dialect} {name : String} {t : Tool} {args : Json}
    {c : Context} {s : Services} (hf : r.find? name = some t)
    (hv : d.violations t.inputSchema (arguments args) = [])
    (hb : (t.run c (arguments args) s).1.Breaks) :
    ∃ detail, r.executeIn d name args c s =
      (.error (.executionFailed detail), (t.run c (arguments args) s).2) := by
  obtain ⟨detail, he⟩ := contain_of_breaks hb
  exact ⟨detail, by rw [executeIn_of_fits hf hv, he]⟩

end Registry

end Tool

/-! ## Faults of the bridge -/

/-- Failures of which a client hears no more than that there was one. -/
def BridgeError.Veiled : BridgeError → Prop
  | .internal _ | .request (.internal _) | .serialization _ | .write _ => True
  | _ => False

/-- Every other failure is told apart by its code, or by its message. -/
theorem BridgeError.toRpc_eq_internal_iff (e : BridgeError) :
    e.toRpc = .internal "Internal error" ↔ e.Veiled := by
  have code {code : Int} {message : String} {data : Option Json}
      (hc : code ≠ Rpc.internalErrorCode) :
      (⟨code, message, data⟩ : Rpc.Error) ≠ .internal "Internal error" :=
    fun he => hc (congrArg Rpc.Error.code he)
  cases e with
  | write e | internal e | serialization e => exact iff_of_true rfl trivial
  | validation e | command e | snapshot e => exact iff_of_false (code (by decide)) id
  | request e =>
    cases e with
    | internal detail => exact iff_of_true rfl trivial
    | methodNotFound method => exact iff_of_false (code (by decide)) id
  | session e => cases e <;> exact iff_of_false (code (by decide)) id
  | tool e =>
    cases e with
    | executionFailed detail =>
      have message : "Tool execution failed" ≠ "Internal error" := by decide
      exact iff_of_false (fun he => message (congrArg Rpc.Error.message he)) id
    | _ => exact iff_of_false (code (by decide)) id

namespace Hub

open Http (Request)
open Tool (Registry)

/-! ## Two bridges -/

/-- The message that answers a call whose tool broke down. -/
def breakdown (id : Json) : Rpc.Message := .errorReply id (.internal "Tool execution failed")

/-- How a call over the wire is answered if its tool broke down. -/
def brokenAnswer (reply : ToolReply) : Answer := toolAnswer reply (.error (.executionFailed ""))

theorem toolAnswer_executionFailed {reply : ToolReply} (hr : reply ≠ .plain) (detail : String) :
    toolAnswer reply (.error (.executionFailed detail)) = brokenAnswer reply := by
  cases reply with
  | plain => exact absurd rfl hr
  | message id | response id => rfl

section

variable {h : Hub} {tools : Registry}

theorem execute_of_breaks {reply : ToolReply} (hr : reply ≠ .plain) {name : String} {args : Json}
    {c : Tool.Context} (hb : (h.tools.execute name args c h.services).1.Breaks) :
    h.execute reply name args c =
      (h.withServices (h.tools.execute name args c h.services).2).answered (brokenAnswer reply) := by
  unfold execute
  generalize h.tools.execute name args c h.services = ran at hb ⊢
  obtain ⟨outcome, s⟩ := ran
  obtain ⟨detail, rfl⟩ | ⟨detail, rfl⟩ := hb.cases
  · simp only [toolAnswer_executionFailed hr]
  · simp only [toolAnswer_executionFailed hr]

variable (ha : h.tools.Alike tools)

include ha

theorem execute_alike {reply : ToolReply} (hr : reply ≠ .plain) (name : String) (args : Json)
    (c : Tool.Context) : (h.withTools tools).execute reply name args c =
      ((h.execute reply name args c).1, (h.execute reply name args c).2.withTools tools) := by
  obtain ⟨outcome, services⟩ := ha.executeIn Tool.Schema.keywordDialect name args c h.services
  rcases outcome with same | ⟨hb, hb'⟩
  · have same : h.tools.execute name args c h.services = tools.execute name args c h.services :=
      Prod.ext same services
    simp only [execute, same, withTools_services]
    cases (tools.execute name args c h.services).1 with
    | command o => exact withTools_dispatch (h.withServices _) tools ..
    | _ => rfl
  · rw [execute_of_breaks hr hb, execute_of_breaks (h := h.withTools tools) hr hb']
    exact congrArg (fun s => ((h.withTools tools).withServices s).answered (brokenAnswer reply))
      services.symm

theorem handling_alike (session : Option String) (q : Rpc.Request) :
    (h.withTools tools).handling session q =
      ((h.handling session q).1, (h.handling session q).2.withTools tools) := by
  simp only [handling, withTools_notice, withTools_handshake, withTools_readResource, ← ha.list]
  cases q.id with
  | none => rfl
  | some id =>
    simp only
    split
    · rfl
    · rfl
    · rfl
    · split <;> rfl
    · rfl
    · rfl
    · rfl
    · rfl

theorem handle_alike (session : Option String) (q : Rpc.Request) :
    (h.withTools tools).handle session q =
      ((h.handle session q).1, (h.handle session q).2.withTools tools) := by
  simp only [handle, handling_alike ha]
  have kept := (handling_cases h session q).2
  generalize h.handling session q = handled at kept ⊢
  obtain ⟨handling, h'⟩ := handled
  cases handling with
  | now m => rfl
  | tool id name args =>
    obtain rfl : h' = h := kept id name args rfl
    exact execute_alike ha (by simp) ..

theorem postHandshake_alike (r : Request) (q : Rpc.Request) :
    (h.withTools tools).postHandshake r q =
      ((h.postHandshake r q).1, (h.postHandshake r q).2.withTools tools) := by
  simp only [postHandshake, withTools_handshakeSession]
  split
  · rfl
  · have greeted : (h.handshakeSession r).2.tools = h.tools :=
      congrArg (·.2.tools) (withTools_handshakeSession h h.tools r)
    rw [handling_alike (greeted ▸ ha)]
    generalize (h.handshakeSession r).2.handling (h.handshakeSession r).1 q = handled
    obtain ⟨(_ | m) | _, h'⟩ := handled <;> rfl

theorem postCall_alike (r : Request) (q : Rpc.Request) :
    (h.withTools tools).postCall r q =
      ((h.postCall r q).1, (h.postCall r q).2.withTools tools) := by
  have admitted : (h.callerSession r).2.tools = h.tools :=
    congrArg (·.2.tools) (withTools_callerSession h h.tools r)
  simp only [postCall, withTools_callerSession]
  generalize h.callerSession r = called at admitted ⊢
  obtain ⟨session | session, h'⟩ := called
  · rfl
  · have ha' : h'.tools.Alike tools := admitted ▸ ha
    simp only [handling_alike ha']
    have kept := (handling_cases h' session q).2
    generalize h'.handling session q = handled at kept ⊢
    obtain ⟨m | ⟨id, name, args⟩, h''⟩ := handled
    · rfl
    · obtain rfl : h'' = h' := kept id name args rfl
      exact execute_alike ha' (by simp) ..

theorem post_alike (r : Request) : (h.withTools tools).post r =
    ((h.post r).1, (h.post r).2.withTools tools) := by
  simp only [post, withTools_callerSession, postHandshake_alike ha, postCall_alike ha]
  split
  · rfl
  · split
    · rfl
    · generalize h.callerSession r = called
      obtain ⟨_ | _, h'⟩ := called <;> rfl
    · split <;> rfl

theorem request_alike (r : Request) : (h.withTools tools).request r =
    ((h.request r).1, (h.request r).2.withTools tools) := by
  unfold request
  split
  · exact post_alike ha r
  · exact withTools_subscribe h tools r
  · exact withTools_terminate h tools r
  · simp only [health, withTools_wall, withTools_answered]
  · rfl

/-- One action of a schedule. -/
theorem act_alike (a : Action) : (h.withTools tools).act a = (h.act a).withTools tools := by
  cases a with
  | event e =>
    cases e with
    | request r => exact congrArg Prod.snd (request_alike ha r)
    | advance d => rfl
    | read t => exact congrArg (·.2.2) (withTools_readStream h tools t)
    | disconnect t => exact congrArg Prod.snd (withTools_dropReader h tools t)
    | abandon id => exact congrArg Prod.snd (withTools_abandon h tools id)
    | startSweeps timeout interval => exact withTools_startSweeps h tools timeout interval
  | move m =>
    simp only [act, withTools_move?]
    cases h.move? m <;> rfl

end

theorem tools_act (h : Hub) (a : Action) : (h.act a).tools = h.tools := by
  have same : h.act a = (h.act a).withTools h.tools := act_alike (.refl h.tools) a
  rw [same]

/-- A schedule goes the same way, whatever the details of breakdowns in it. -/
theorem exec_alike {h : Hub} {tools : Registry} (ha : h.tools.Alike tools) (actions : List Action) :
    (h.withTools tools).exec actions = (h.exec actions).withTools tools := by
  induction actions generalizing h with
  | nil => rfl
  | cons a actions ih =>
    simp only [exec, List.foldl_cons, act_alike ha] at ih ⊢
    exact ih (tools_act h a ▸ ha)

/-! ## What is disclosed -/

/-- A request calls a tool of the bridge with arguments that fit its schema. -/
structure AsksFor (h : Hub) (q : Rpc.Request) (id : Json) (t : Tool) (args : Json) : Prop where
  id : q.id = some id
  method : q.method = "tools/call"
  tool : ∃ call, params Rpc.ToolCall.decode q = .ok call ∧ h.tools.find? call.name = some t ∧
    Registry.arguments (Json.orNull call.arguments) = args
  fits : Tool.Schema.violations t.inputSchema args = []

/-- A call whose tool breaks down is answered by a message that holds nothing but its id. -/
theorem handle_of_breaks {h : Hub} {q : Rpc.Request} {id : Json} {t : Tool} {args : Json}
    (hq : h.AsksFor q id t args) (caller : Option String)
    (hb : (t.run (h.toolContext caller) args h.services).1.Breaks) :
    h.handle caller q = (h.withServices (t.run (h.toolContext caller) args h.services).2).answered
      (.message (some (breakdown id))) := by
  obtain ⟨call, hread, hfind, rfl⟩ := hq.tool
  obtain ⟨detail, he⟩ := Registry.executeIn_of_breaks (d := Tool.Schema.keywordDialect)
    hfind hq.fits hb
  rw [handle, handling_of_call h caller hq.id hq.method hread]
  simp only [execute, Registry.execute, he]
  rfl

/-- The detail of a failure stays on this side. In any language of schemas, a call of a tool that
breaks down, by an error or by a panic, with whatever text or none, fails as a breakdown; and however
a call comes to fail so, the message that answers it depends on the id of the request alone. Bridges
whose tools differ only in such details handle every request alike, and any schedule takes them
through the same states. The failures that are reported as a bare internal error are those of the
bridge itself, all of them, in the same words. -/
theorem breakdowns_undisclosed :
    (∀ (d : Tool.Schema.Dialect) (r : Registry) (name : String) (t : Tool) (args : Json)
      (c : Tool.Context) (s : Tool.Services),
      r.find? name = some t →
      d.violations t.inputSchema (Registry.arguments args) = [] →
      (t.run c (Registry.arguments args) s).1.Breaks →
      ∃ detail, r.executeIn d name args c s =
        (.error (.executionFailed detail), (t.run c (Registry.arguments args) s).2)) ∧
    (∀ id detail, toolMessage id (.error (.executionFailed detail)) = breakdown id) ∧
    (∀ (h : Hub) (q : Rpc.Request) (id : Json) (t : Tool) (args : Json) (caller : Option String),
      h.AsksFor q id t args →
      (t.run (h.toolContext caller) args h.services).1.Breaks →
      h.handle caller q =
        (h.withServices (t.run (h.toolContext caller) args h.services).2).answered
          (.message (some (breakdown id)))) ∧
    (∀ (h : Hub) (tools : Registry), h.tools.Alike tools →
      (∀ caller q, (h.withTools tools).handle caller q =
        ((h.handle caller q).1, (h.handle caller q).2.withTools tools)) ∧
      ∀ actions, (h.withTools tools).exec actions = (h.exec actions).withTools tools) ∧
    (∀ e : BridgeError, e.toRpc = .internal "Internal error" ↔ e.Veiled) ∧
    ∀ detail, (RequestError.internal detail).toRpc = .internal "Internal error" := by
  refine ⟨?_, fun _ _ => rfl, ?_, ?_, BridgeError.toRpc_eq_internal_iff, fun _ => rfl⟩
  · intro d r name t args c s hf hv hb
    exact Registry.executeIn_of_breaks hf hv hb
  · intro h q id t args caller hq hb
    exact handle_of_breaks hq caller hb
  · intro h tools ha
    exact ⟨handle_alike ha, exec_alike ha⟩

/-- A tool that breaks down in some way. -/
def sampleBroken (p : Tool.Probe) : Tool :=
  .ofProbe "export" "writes a file" (.obj [("type", .str "object")]) p

/-- A tool that panics with the name of a file. -/
def samplePanic : Tool := sampleBroken (.panic (some "open /home/alice/project/main.tscn: denied"))

/-- A bridge whose only tool panics so. -/
def sampleLeaky : Hub := { Hub.new .default sampleId with tools := [samplePanic] }

/-- A call of this tool. -/
def sampleExport : Rpc.Request :=
  ⟨some (.int 7), "tools/call", some (.obj [("name", .str "export")])⟩

theorem breakdowns_undisclosed_export :
    let quiet := sampleBroken (.error (.executionFailed "disk full"))
    let actions := [sampleHandshake, sampleReady "S1",
      .event (.request (samplePost (some "S1") (some (.int 7)) "tools/call"
        (.obj [("name", .str "export")])))]
    (∃ detail, sampleLeaky.tools.execute "export" .null ⟨none, false⟩ sampleLeaky.services =
      (.error (.executionFailed detail), sampleLeaky.services)) ∧
    (sampleLeaky.handle none sampleExport).2.answers =
      [(0, .message (some (breakdown (.int 7))))] ∧
    ((sampleLeaky.withTools [quiet]).handle none sampleExport).2.answers =
      [(0, .message (some (breakdown (.int 7))))] ∧
    (sampleLeaky.withTools [quiet]).exec actions = (sampleLeaky.exec actions).withTools [quiet] ∧
    (BridgeError.internal "secret path /etc/x").toRpc = .internal "Internal error" := by
  intro quiet actions
  obtain ⟨executed, -, called, alike, veiled, -⟩ := breakdowns_undisclosed
  have found : sampleLeaky.tools.find? "export" = some samplePanic := rfl
  have fits : Tool.Schema.violations samplePanic.inputSchema (.obj []) = [] := rfl
  have asks : sampleLeaky.AsksFor sampleExport (.int 7) samplePanic (.obj []) :=
    ⟨rfl, rfl, ⟨⟨"export", none⟩, rfl, found, rfl⟩, fits⟩
  have like : samplePanic.Alike quiet :=
    ⟨rfl, rfl, rfl, rfl, fun _ _ _ => .inr ⟨trivial, trivial⟩, fun _ _ _ => rfl⟩
  obtain ⟨handled, ran⟩ := alike sampleLeaky [quiet] (.cons like .nil)
  have answers : (sampleLeaky.handle none sampleExport).2.answers =
      [(0, .message (some (breakdown (.int 7))))] := by
    rw [called _ _ _ _ _ none asks trivial]
    rfl
  refine ⟨?_, answers, ?_, ?_, (veiled _).2 trivial⟩
  · exact executed Tool.Schema.keywordDialect _ _ samplePanic .null _ _ found fits trivial
  · exact (congrArg (fun p => p.2.answers) (handled none sampleExport)).trans answers
  · exact ran actions

end Hub

end EditorBridge
