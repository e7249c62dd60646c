import EditorBridge.Proofs.Hub.Request
import EditorBridge.Proofs.Json.Decode
import EditorBridge.Proofs.Json.Layout
import EditorBridge.Proofs.Rpc.Frame
/-!
# What callers of tools read

The responses to calls of tools, written out with all their members: a result
has a text and a value, an error its code, its message and its kind. The values
in them come from bodies that were read, so the members of their objects are in
order already, and nothing in them is moved.
-/

namespace EditorBridge

/-- The parts of a snapshot are in order. -/
def Snapshot.WellFormed (s : Snapshot) : Prop :=
  s.sceneSummary.WellFormed ∧ s.nodeTree.WellFormed ∧ s.nodeDetails.WellFormed

namespace Hub

open Http (Request Response)

/-! ## Responses -/

/-- A response that carries a value. -/
def carrying (body : Json) : Response :=
  ⟨200, some "application/json", none, none, .json body⟩

/-- A response that carries a result. -/
def resultResponse (id result : Json) : Response :=
  carrying (.obj [("jsonrpc", .str "2.0"), ("id", id), ("result", result)])

/-- The result of a tool: whether it is an error, its text and its value. -/
def toolResult (failed : Bool) (text : String) (value : Json) : Json :=
  .obj [("content", .arr [.obj [("text", .str text), ("type", .str "text")]]),
    ("isError", .bool failed), ("structuredContent", value)]

/-- A response that carries an error with a kind. -/
def errorResponse (id : Json) (code : Int) (message kind : String) : Response :=
  carrying (.obj [("jsonrpc", .str "2.0"), ("id", id),
    ("error", .obj [("code", .int code), ("message", .str message),
      ("data", .obj [("kind", .str kind)])])])

/-- A success shows its value twice, as its JSON text laid out in lines and as it is. -/
def successResponse (id value : Json) : Response :=
  resultResponse id (toolResult false value.laidOut value)

/-- The response that tells of an acknowledgement. A success shows what the editor answered, and
when; a failure shows the editor's own words, if it found any. -/
def ackResponse (id : Json) (command : String) (x : Broker.Claimed) : Response :=
  if x.ack.success then
    successResponse id (.obj [("ackedAt", .str (x.ack.ackedAt.getD x.wall).text),
      ("command", .str command), ("commandId", .str x.ack.commandId),
      ("result", x.ack.result.getD .null)])
  else
    let message := x.ack.error.getD ("editor reported failure for " ++ command)
    resultResponse id (toolResult true message
      (.obj [("error", .obj [("kind", .str "internal"), ("message", .str message)])]))

/-- Values in order are sent as they are. -/
theorem message_ok (id : Json) (failed : Bool) (text : String) {value : Json}
    (h : value.WellFormed) : .message 200 (toolMessage id (.ok ⟨[⟨text⟩], some value, failed⟩)) =
      resultResponse id (toolResult failed text value) := by
  have hsorted := Json.sorted_of_wellFormed value h
  have hresult : (Tool.Result.mk [⟨text⟩] (some value) failed).toJson.sorted =
      toolResult failed text value := by
    simp only [Tool.Result.toJson, List.map_cons, List.map_nil, Tool.Content.toJson,
      Option.map_some, Option.toList_some, List.cons_append, List.nil_append, Json.sorted,
      Json.sortedItems, Json.sortedMembers, hsorted, Json.Members.ofList, List.foldl_cons,
      List.foldl_nil, Json.Members.insert, String.reduceLT, String.reduceEq, reduceIte, toolResult]
  show Response.message 200
    (.response id (Tool.Result.mk [⟨text⟩] (some value) failed).toJson.sorted) = _
  rw [hresult]
  rfl

theorem message_success (id : Json) {members : List (String × Json)}
    (h : ∀ m ∈ members, m.2.WellFormed) :
    .message 200 (toolMessage id (.ok (.success (.object members)))) =
      successResponse id (.object members) := by
  rw [successResponse, ← Json.indented_eq_laidOut]
  exact message_ok id false _ (Json.wellFormed_object h)

/-- A response that tells of an acknowledgement tells what the editor answered. -/
theorem toolAnswer_ofAck (id : Json) (command : String) {x : Broker.Claimed}
    (h : ∀ j ∈ x.ack.result, j.WellFormed) :
    toolAnswer (.response id) (.ok (Tool.ofAck command (x.ack.stamped x.wall))) =
      .response (ackResponse id command x) := by
  refine congrArg Answer.response ?_
  cases hs : x.ack.success with
  | true =>
    let members : List (String × Json) := [("commandId", .str x.ack.commandId),
      ("command", .str command), ("result", x.ack.result.getD .null),
      ("ackedAt", .str (x.ack.ackedAt.getD x.wall).text)]
    have hack : Tool.ofAck command (x.ack.stamped x.wall) = .success (.object members) := if_pos hs
    have hvalue : Json.object members = .obj [("ackedAt", .str (x.ack.ackedAt.getD x.wall).text),
        ("command", .str command), ("commandId", .str x.ack.commandId),
        ("result", x.ack.result.getD .null)] := by
      simp only [members, Json.object, Json.Members.ofList, List.foldl_cons, List.foldl_nil,
        Json.Members.insert, String.reduceLT, String.reduceEq, reduceIte]
    have hresult : (x.ack.result.getD .null).WellFormed := Json.WellFormed.orNull h
    rw [hack, message_success, hvalue, ackResponse, if_pos hs]
    simp [members, Json.WellFormed, hresult]
  | false =>
    let message := x.ack.error.getD ("editor reported failure for " ++ command)
    have hack : Tool.ofAck command (x.ack.stamped x.wall) = ⟨[⟨message⟩],
        some (.obj [("error", .obj [("kind", .str "internal"), ("message", .str message)])]),
        true⟩ := if_neg (by simp [Broker.Ack.stamped, hs])
    have hkeys : "kind" < "message" := by decide
    rw [hack, message_ok, ackResponse, if_neg (by simp [hs])]
    exact ⟨List.pairwise_singleton .., ⟨List.pairwise_pair.2 hkeys, trivial, trivial, trivial⟩,
      trivial⟩

theorem toolAnswer_mendable (id : Json) {e : ToolError} (h : Tool.Mendable e.toRpc) :
    ∃ message, toolAnswer (.response id) (.error e) =
        .response (errorResponse id (-32000) message "not_available") ∨
      toolAnswer (.response id) (.error e) =
        .response (errorResponse id (-32602) message "invalid_params") := by
  have hanswer : toolAnswer (.response id) (.error e) =
      .response (.message 200 (.errorReply id e.toRpc)) := rfl
  rw [hanswer]
  obtain ⟨message, he | he⟩ := h
  · exact ⟨message, .inl (by rw [he]; rfl)⟩
  · exact ⟨message, .inr (by rw [he]; rfl)⟩

/-! ## What bodies hold -/

theorem wellFormed_of_parse {body : Text.Bytes} {q : Rpc.Request}
    (hq : Rpc.Frame.parse body = .request q) : ∀ j ∈ q.params, j.WellFormed := by
  obtain ⟨members, hread, hasks⟩ := Rpc.Frame.parse_request_iff.1 hq
  rw [← hasks.given]
  exact fun j hj => (Json.wellFormed_of_read hread).get? hj

theorem handling_tool {h : Hub} {session : Option String} {q : Rpc.Request} {id args : Json}
    {name : String} (hx : (h.handling session q).1 = .tool id name args) :
    ∃ call, params Rpc.ToolCall.decode q = .ok call ∧ args = Json.orNull call.arguments := by
  unfold handling at hx
  split at hx
  · cases hx
  · split at hx
    case h_4 =>
      split at hx
      · next call hcall =>
        cases hx
        exact ⟨call, hcall, rfl⟩
      · cases hx
    all_goals cases hx

/-- The arguments of a call are in order. -/
theorem wellFormed_of_toolCall? {h : Hub} {r : Request} {call : ToolCall}
    (hcall : h.toolCall? r = some call) : call.args.WellFormed := by
  obtain ⟨-, -, -, q, hq, -, -, hx⟩ := toolCall?_eq_some hcall
  obtain ⟨c, hc, hargs⟩ := handling_tool hx
  have hkeeps : (((Json.Record.pure Rpc.ToolCall.mk).seq
      (.required "name" Json.Decoder.string)).seq
      (.withDefault "arguments" (Json.Decoder.optional Json.Decoder.any) none)).Keeps
        fun c => ∀ j ∈ c.arguments, j.WellFormed := by
    refine ((Json.Record.keeps_pure ?_).seq Json.Record.keeps_any).seq
      (Json.Record.keeps_optional ?_)
    · exact fun _ _ arguments harguments => harguments
    · exact fun o ho => (Option.some.inj ho).symm
  rw [hargs]
  refine Json.WellFormed.orNull ?_
  unfold params at hc
  split at hc
  · cases hc
  · next j hj =>
    cases hd : Rpc.ToolCall.decode j with
    | error m => simp [hd, Except.mapError] at hc
    | ok c' =>
      obtain rfl : c' = c := by simpa [hd, Except.mapError] using hc
      exact hkeeps.decode (wellFormed_of_parse hq j hj) hd

theorem wellFormed_arguments {args : Json} (h : args.WellFormed) :
    (Tool.Registry.arguments args).WellFormed := by
  cases args with
  | null => exact ⟨.nil, trivial⟩
  | _ => exact h

/-- What an editor answers is in order. -/
theorem AcceptsAck.wellFormed {h : Hub} {r : Request} {x : Broker.Claimed}
    (hx : h.AcceptsAck r x) : ∀ j ∈ x.ack.result, j.WellFormed := by
  obtain ⟨call, hcall, -, -, hdecode, -⟩ := hx
  have hkeeps : Broker.Ack.record.Keeps fun a => ∀ j ∈ a.result, j.WellFormed := by
    refine (((((Json.Record.keeps_pure ?_).seq Json.Record.keeps_any).seq
      Json.Record.keeps_any).seq (Json.Record.keeps_optional ?_)).seq
        Json.Record.keeps_any).seq Json.Record.keeps_any
    · exact fun _ _ _ _ result hresult _ _ _ _ => hresult
    · exact fun o ho => (Option.some.inj ho).symm
  exact hkeeps.decode (wellFormed_arguments (wellFormed_of_toolCall? hcall)) hdecode

theorem wellFormed_content {args : Json} (h : args.WellFormed) :
    (Refresh.content args).WellFormed :=
  ⟨.orNull fun _ hj => h.get? hj, .orNull fun _ hj => h.get? hj, .orNull fun _ hj => h.get? hj⟩

theorem wellFormed_of_refresh? {h : Hub} {a : Action} {x : Refresh} {s : Snapshot}
    (hx : h.refresh? a = some x) (hs : x.synced = some s) : s.WellFormed := by
  unfold refresh? at hx
  split at hx
  · obtain ⟨call, hcall, hx⟩ := Option.bind_eq_some_iff.1 hx
    unfold refreshOf? at hx
    split at hx
    · unfold Refresh.ofCall? at hx
      split_ifs at hx
      · cases hx
        cases hs
        exact wellFormed_content (wellFormed_of_toolCall? hcall)
      · cases hx
        cases hs
    · cases hx
  · cases hx

/-- Whatever is synced during a schedule is in order. -/
theorem wellFormed_of_refreshes {h : Hub} {actions : List Action} {x : Refresh} {s : Snapshot}
    (hx : x ∈ h.refreshes actions) (hs : x.synced = some s) : s.WellFormed := by
  induction actions generalizing h with
  | nil => cases hx
  | cons a actions ih =>
    rcases List.mem_append.1 hx with hx | hx
    · exact wellFormed_of_refresh? (Option.mem_toList.1 hx) hs
    · exact ih hx

end Hub

end EditorBridge
