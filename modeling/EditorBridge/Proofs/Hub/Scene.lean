import EditorBridge.Proofs.Hub.Report
import EditorBridge.Proofs.Hub.Schedule
/-!
# What readers of the scene are served

Three tools and two resources show the scene. All of them look at one stored
snapshot: the caller's own while it is fresh, and otherwise the latest while
that is fresh. What it holds is what its owner synced last, whatever happened
before; and if there is none, the answer tells nothing but why.
-/

namespace EditorBridge.Hub

open Http (Request Response)
open Moment (Step Steps)

/-! ## Snapshots keep up with their history -/

theorem snapshots_endSession (h : Hub) (session : String) :
    (h.endSession session).2.snapshots = h.snapshots ∨
      (h.endSession session).2.snapshots = (h.snapshots.remove session).2 := by
  cases hs : h.sessions.get? session with
  | none => exact .inl (by rw [endSession_of_none hs])
  | some s => exact .inr (by rw [endSession_eq hs])

/-- Every small step keeps the snapshots what the history says, with the refresh that it tells of. -/
theorem current_step {past : List Refresh} {m m' : Moment} {log : List Mark}
    (hp : m.hub.path = .streams) (hc : m.hub.snapshots.Current past) (hs : Step m log m') :
    m'.hub.snapshots.Current (past ++ log.filterMap Mark.refresh?) := by
  have same (h : m'.hub.snapshots = m.hub.snapshots) : m'.hub.snapshots.Current (past ++ []) := by
    rw [List.append_nil, h]
    exact hc
  cases hs with
  | stored hwall hinit ha => exact hc.refresh ha
  | @ended h es session =>
    rcases snapshots_endSession h session with he | he
    · exact same he
    · show Snapshot.Store.Current (past ++ []) _
      rw [List.append_nil, he]
      exact hc.remove session
  | subscribed hx => exact same (by rw [startStream_eq hx])
  | loopEnded | broken => exact same (by rw [endLoop_eq])
  | abandoned ht hcall => exact same (by rw [abandon_eq hp ht hcall])
  | _ => exact same rfl

/-- The freshness limit stays. -/
theorem staleAfter_step {m m' : Moment} {log : List Mark} (hp : m.hub.path = .streams)
    (hs : Step m log m') : m'.hub.snapshots.staleAfter = m.hub.snapshots.staleAfter := by
  cases hs with
  | stored => exact Snapshot.Store.staleAfter_apply ..
  | @ended h es session =>
    rcases snapshots_endSession h session with he | he
    · rw [he]
    · rw [he, Snapshot.Store.staleAfter_remove]
  | subscribed hx => rw [startStream_eq hx]
  | loopEnded | broken => rw [endLoop_eq]
  | abandoned ht hcall => rw [abandon_eq hp ht hcall]
  | _ => rfl

/-- After every schedule the snapshots are what its refreshes say. -/
theorem current_exec (config : Config) (ids : Nat → String) (actions : List Action) :
    let h := (Hub.new config ids).exec actions
    h.snapshots.Current ((Hub.new config ids).refreshes actions) ∧
      h.snapshots.staleAfter = min (config.snapshotStaleAfter : Int) Snapshot.maxStaleAfter := by
  obtain ⟨log, hlog, -, hrefreshes⟩ :=
    exec_history (h := Hub.new config ids) rfl rfl actions
  let P (log : List Mark) (m : Moment) : Prop :=
    m.hub.snapshots.Current (log.filterMap Mark.refresh?) ∧
      m.hub.snapshots.staleAfter = min (config.snapshotStaleAfter : Int) Snapshot.maxStaleAfter
  have start : P [] ⟨Hub.new config ids, []⟩ :=
    ⟨fun session stored hget => (by cases hget), rfl⟩
  have last := steps_induction (P := P) (fun m m' past log hp hm hs => ?_) [] hlog rfl start
  · rw [← hrefreshes]
    exact last
  · refine ⟨?_, (staleAfter_step hp hs).trans hm.2⟩
    rw [List.filterMap_append]
    exact current_step hp hm.1 hs

/-! ## The snapshot that is served -/

/-- Whether a stored snapshot is fresh now. -/
def isFresh (h : Hub) (stored : Snapshot.Stored) : Bool :=
  h.wall.toNanos - stored.updatedAt.toNanos ≤ h.snapshots.staleAfter

/-- The snapshot that a caller is served: its own if that is fresh, and otherwise the latest if that
one is. -/
def served? (h : Hub) (caller : String) : Option Snapshot.Stored :=
  ((h.snapshots.entries.get? caller).filter h.isFresh).or
    ((h.snapshots.latest.bind h.snapshots.entries.get?).filter h.isFresh)

/-- Why the latest snapshot is not served. -/
def whyUnserved (h : Hub) : SnapshotError :=
  match h.snapshots.latest.bind h.snapshots.entries.get? with
  | none => .notFound
  | some stored =>
    .stale stored.session ((h.wall.toNanos - stored.updatedAt.toNanos).tdiv 1000000)

/-- Why nothing is served, in words: there is no snapshot, or the latest is too old. -/
def Excuse (why : String) : Prop :=
  why = "no snapshot available" ∨ ∃ (owner : String) (age : Int),
    why = "snapshot for session " ++ owner ++ " is stale (" ++ toString age ++ "ms old)"

theorem excuse_whyUnserved (h : Hub) : Excuse h.whyUnserved.message := by
  unfold whyUnserved
  split
  · exact .inl rfl
  · exact .inr ⟨_, _, rfl⟩

/-- The failure of a reader that is served nothing. -/
def unavailable (e : SnapshotError) : ToolError :=
  .notAvailable ("editor state unavailable (" ++ e.message ++ "); waiting for the editor to sync")

theorem ifFresh_eq (h : Hub) (stored : Snapshot.Stored) :
    h.snapshots.ifFresh stored h.wall = if h.isFresh stored then .ok stored else
      .error (.stale stored.session
        ((h.wall.toNanos - stored.updatedAt.toNanos).tdiv 1000000)) := by
  by_cases hf : h.wall.toNanos - stored.updatedAt.toNanos ≤ h.snapshots.staleAfter <;>
    simp [Snapshot.Store.ifFresh, Snapshot.Store.age, isFresh, hf]

/-- All readers look at this snapshot. -/
theorem visibleSnapshot_eq (h : Hub) (caller : String) :
    Tool.visibleSnapshot h.snapshots (some caller) h.wall =
      match h.served? caller with
      | some stored => .ok stored
      | none => .error (unavailable h.whyUnserved) := by
  have hown : (h.snapshots.freshFor caller h.wall).toOption =
      (h.snapshots.entries.get? caller).filter h.isFresh := by
    unfold Snapshot.Store.freshFor
    cases h.snapshots.entries.get? caller with
    | none => rfl
    | some stored =>
      cases hf : h.isFresh stored <;> simp [ifFresh_eq, hf, Option.filter_some, Except.toOption]
  have hlatest : h.snapshots.freshLatest h.wall =
      match (h.snapshots.latest.bind h.snapshots.entries.get?).filter h.isFresh with
      | some stored => .ok stored
      | none => .error h.whyUnserved := by
    unfold Snapshot.Store.freshLatest whyUnserved
    cases h.snapshots.latest.bind h.snapshots.entries.get? with
    | none => rfl
    | some stored => cases hf : h.isFresh stored <;> simp [ifFresh_eq, hf, Option.filter_some]
  simp only [Tool.visibleSnapshot, Option.bind_some, hown, hlatest, served?]
  cases (h.snapshots.entries.get? caller).filter h.isFresh with
  | some stored => rfl
  | none =>
    cases (h.snapshots.latest.bind h.snapshots.entries.get?).filter h.isFresh <;> rfl

/-! ## Those who ask -/

/-- A request for a resource, and the session it comes from. -/
structure ResourceRead where
  session : String
  id : Json
  uri : String
  deriving DecidableEq

/-- The resource that a request reads, if it is let in and reads one. -/
def resourceRead? (h : Hub) (r : Request) : Option ResourceRead :=
  if r.method = "POST" ∧ r.route = "/mcp" ∧ r.body.length ≤ h.config.maxBodyBytes then
    match Rpc.Frame.parse r.body with
    | .request ⟨some id, "resources/read", some params⟩ =>
      match (h.callerSession r).1, Rpc.ResourceRead.decode params with
      | .ok session, .ok p => some ⟨session, id, p.uri⟩
      | _, _ => none
    | _ => none
  else none

/-- What can be asked about the scene. -/
inductive SceneQuery where
  | summary
  | tree
  | details (path : String)
  | summaryResource
  | treeResource

/-- A call of a tool with arguments that fit it. -/
def Calls (h : Hub) (r : Request) (caller : String) (id : Json) (t : Tool) (args : Json) : Prop :=
  h.toolCall? r = some ⟨caller, id, t.name, args⟩ ∧
    Tool.Schema.violations t.inputSchema (Tool.Registry.arguments args) = []

/-- A request of a session asks about the scene, under an id. -/
def Asks (h : Hub) (r : Request) (caller : String) (id : Json) : SceneQuery → Prop
  | .summary => ∃ args, h.Calls r caller id Tool.sceneSummary args
  | .tree => ∃ args, h.Calls r caller id Tool.sceneTree args
  | .details path => ∃ args, h.Calls r caller id Tool.nodeDetails args ∧
      args.get? "path" = some (.str path)
  | .summaryResource => h.resourceRead? r = some ⟨caller, id, summaryUri⟩
  | .treeResource => h.resourceRead? r = some ⟨caller, id, treeUri⟩

/-- What a resource holds: the JSON text of a value, laid out in lines. -/
def resourceText (uri : String) (value : Json) : Json :=
  .obj [("contents", .arr [.obj [("mimeType", .str "application/json"),
    ("text", .str value.laidOut), ("uri", .str uri)]])]

/-- The response from a snapshot. -/
def SceneQuery.response (q : SceneQuery) (stored : Snapshot.Stored) (id : Json) : Response :=
  match q with
  | .summary => successResponse id (.obj [("sceneSummary", stored.snapshot.sceneSummary),
      ("sessionId", .str stored.session), ("updatedAt", .str stored.updatedAt.text)])
  | .tree => successResponse id (.obj [("nodeTree", stored.snapshot.nodeTree),
      ("sessionId", .str stored.session), ("updatedAt", .str stored.updatedAt.text)])
  | .details path =>
    match stored.snapshot.nodeDetails.get? path with
    | some found => successResponse id (.obj [("details", found), ("path", .str path),
        ("sessionId", .str stored.session), ("updatedAt", .str stored.updatedAt.text)])
    | none => errorResponse id (-32602) ("no node at path " ++ path) "invalid_params"
  | .summaryResource => resultResponse id (resourceText summaryUri stored.snapshot.sceneSummary)
  | .treeResource => resultResponse id (resourceText treeUri stored.snapshot.nodeTree)

/-- The response to a reader that is served nothing. -/
def unservedResponse (id : Json) (why : String) : Response :=
  errorResponse id (-32000)
    ("editor state unavailable (" ++ why ++ "); waiting for the editor to sync") "not_available"

/-! ## The answers -/

/-- What is not changed by looking at sessions. -/
theorem served?_touched {h h' : Hub} (ht : Touched h h') (caller : String) :
    h'.served? caller = h.served? caller ∧ h'.whyUnserved = h.whyUnserved := by
  obtain ⟨sessions, n, -, rfl⟩ := ht
  exact ⟨rfl, rfl⟩

theorem readScene_eq {h : Hub} {caller : String} {c : Tool.Context} (hc : c.session = some caller)
    (k : Snapshot.Stored → Tool.Outcome) : Tool.readScene k c h.services =
      (match h.served? caller with
        | some stored => k stored
        | none => .error (unavailable h.whyUnserved), h.services) := by
  have heq := visibleSnapshot_eq h caller
  simp only [Tool.readScene, services, hc, heq]
  cases h.served? caller <;> rfl

/-- An outcome that is there at once. -/
def outcomeOf : Except ToolError Tool.Result → Tool.Outcome
  | .ok result => .result result
  | .error e => .error e

/-- A reading tool answers from the snapshot that is served. -/
theorem tool_answers {h : Hub} (ht : h.tools = .standard) {r : Request} {caller : String}
    {id args : Json} {t : Tool} (hcall : h.Calls r caller id t args)
    (hfind : Tool.Registry.standard.find? t.name = some t)
    (shows : Snapshot.Stored → Except ToolError Tool.Result)
    (hrun : ∀ c s, t.run c (Tool.Registry.arguments args) s =
      Tool.readScene (fun stored => outcomeOf (shows stored)) c s)
    {response : Snapshot.Stored → Response} (hshows : ∀ stored, h.served? caller = some stored →
      .message 200 (toolMessage id (shows stored)) = response stored) :
    h.AnswersAtOnce r (match h.served? caller with
      | some stored => response stored
      | none => unservedResponse id h.whyUnserved.message) := by
  obtain ⟨hcall, hfits⟩ := hcall
  have hseen := touched_callerSession h r
  refine hseen.answersAtOnce ?_
  rw [request_of_toolCall hcall]
  obtain ⟨sessions, n, -, he⟩ := hseen
  have hservices : (h.callerSession r).2.services = h.services := by rw [he]; rfl
  have htools : (h.callerSession r).2.tools = .standard := by rw [he]; exact ht
  have hback : (h.callerSession r).2.withServices h.services = (h.callerSession r).2 := by
    rw [he]
    rfl
  unfold execute
  rw [hservices, htools, Tool.execute_of_fits hfind hfits, hrun,
    readScene_eq (c := h.toolContext (some caller)) rfl]
  cases hserved : h.served? caller with
  | none =>
    simp only [Tool.Registry.contain, hback]
    rfl
  | some stored =>
    simp only [← hshows stored hserved]
    cases hs : shows stored <;> simp only [Tool.Registry.contain, outcomeOf, hback] <;> rfl

theorem resourceRead?_eq_some {h : Hub} {r : Request} {x : ResourceRead}
    (hx : h.resourceRead? r = some x) : r.method = "POST" ∧ r.route = "/mcp" ∧
      r.body.length ≤ h.config.maxBodyBytes ∧ ∃ params,
        Rpc.Frame.parse r.body = .request ⟨some x.id, "resources/read", some params⟩ ∧
        (h.callerSession r).1 = .ok x.session ∧
        Rpc.ResourceRead.decode params = .ok ⟨x.uri⟩ := by
  unfold resourceRead? at hx
  split_ifs at hx with hr
  obtain ⟨hm, hroute, hl⟩ := hr
  refine ⟨hm, hroute, hl, ?_⟩
  split at hx
  · next id params hq =>
    split at hx
    · next session p hs hd =>
      cases hx
      exact ⟨params, hq, hs, hd⟩
    · cases hx
  · cases hx

/-- The part of a snapshot that a resource holds. -/
def resourcePart (uri : String) (snapshot : Snapshot) : Json :=
  if uri = summaryUri then snapshot.sceneSummary else snapshot.nodeTree

theorem readResource_eq {h : Hub} {caller uri : String} {q : Rpc.Request}
    (hparams : Hub.params Rpc.ResourceRead.decode q = .ok ⟨uri⟩)
    (huri : uri = summaryUri ∨ uri = treeUri) : h.readResource (some caller) q =
      match h.served? caller with
      | some stored => .ok (resourceText uri (resourcePart uri stored.snapshot))
      | none => .error (unavailable h.whyUnserved).toRpc := by
  have hknown : ¬ (uri ≠ summaryUri ∧ uri ≠ treeUri) := fun hn => huri.elim hn.1 hn.2
  have heq := visibleSnapshot_eq h caller
  unfold readResource
  rw [hparams]
  simp only [bind, Except.bind, if_neg hknown, heq]
  cases h.served? caller with
  | none => rfl
  | some stored =>
    simp only [Json.object, Json.Members.ofList, List.foldl_cons, List.foldl_nil,
      Json.Members.insert, String.reduceLT, String.reduceEq, reduceIte, Json.indented_eq_laidOut]
    rfl

/-- A reading resource answers from the snapshot that is served. -/
theorem resource_answers {h : Hub} {r : Request} {caller uri : String} {id : Json}
    (hread : h.resourceRead? r = some ⟨caller, id, uri⟩) (huri : uri = summaryUri ∨ uri = treeUri) :
    h.AnswersAtOnce r (match h.served? caller with
      | some stored => resultResponse id (resourceText uri (resourcePart uri stored.snapshot))
      | none => unservedResponse id h.whyUnserved.message) := by
  obtain ⟨hm, hroute, hl, params, hq, hs, hd⟩ := resourceRead?_eq_some hread
  have hseen := touched_callerSession h r
  obtain ⟨hserved, hwhy⟩ := served?_touched hseen caller
  let q : Rpc.Request := ⟨some id, "resources/read", some params⟩
  have hhandled : (h.callerSession r).2.handling (some caller) q =
      (.now (some (reply id ((h.callerSession r).2.readResource (some caller) q))),
        (h.callerSession r).2) := rfl
  have hparams : Hub.params Rpc.ResourceRead.decode q = .ok ⟨uri⟩ := by
    simp only [Hub.params, q, hd, Except.mapError]
  have hnow := request_of_now hm hroute hl hq rfl hs (congrArg Prod.fst hhandled)
  rw [hhandled, readResource_eq hparams huri, hserved, hwhy] at hnow
  refine hseen.answersAtOnce (hnow.trans ?_)
  cases h.served? caller <;> rfl

/-! ## Every caller -/

/-- What a caller is served. A snapshot that is served holds what its owner synced last, and tells
when its owner refreshed it last; every reader answers from it. If none is served, every reader
fails in the same way, and the failure tells of no content. A call for the details of a node asks
for one. -/
structure ServesScene (h : Hub) (history : List Refresh) (caller : String) : Prop where
  faithful : ∀ stored, h.served? caller = some stored →
    Refresh.lastSynced history stored.session = some stored.snapshot ∧
      Refresh.lastRefreshed history stored.session = some stored.updatedAt
  shows : ∀ stored, h.served? caller = some stored → ∀ r id q, h.Asks r caller id q →
    h.AnswersAtOnce r (q.response stored id)
  refuses : h.served? caller = none → ∃ why, Excuse why ∧ ∀ r id q, h.Asks r caller id q →
    h.AnswersAtOnce r (unservedResponse id why)
  named : ∀ r id args, h.Calls r caller id Tool.nodeDetails args →
    ∃ path, h.Asks r caller id (.details path)

theorem mem_served? {h : Hub} {caller : String} {stored : Snapshot.Stored}
    (hs : h.served? caller = some stored) :
    ∃ session, h.snapshots.entries.get? session = some stored := by
  rcases Option.or_eq_some_iff.1 hs with hs | ⟨-, hs⟩
  · exact ⟨caller, (Option.filter_eq_some_iff.1 hs).1⟩
  · obtain ⟨session, -, hget⟩ := Option.bind_eq_some_iff.1 (Option.filter_eq_some_iff.1 hs).1
    exact ⟨session, hget⟩

theorem get?_arguments (args : Json) (key : String) :
    (Tool.Registry.arguments args).get? key = args.get? key := by
  cases args <;> rfl

/-- What the tool for the details of a node shows. -/
def shownDetails (path : String) (stored : Snapshot.Stored) : Except ToolError Tool.Result :=
  match stored.snapshot.nodeDetails.get? path with
  | some found => .ok (.success (Tool.withOwner stored [("path", .str path), ("details", found)]))
  | none => .error (.invalidParams ("no node at path " ++ path))

theorem runNodeDetails_eq {args : Json} {path : String} (hpath : args.get? "path" = some (.str path))
    (c : Tool.Context) (s : Tool.Services) : Tool.runNodeDetails c args s =
      Tool.readScene (fun stored => outcomeOf (shownDetails path stored)) c s := by
  unfold Tool.runNodeDetails
  rw [hpath]
  refine congrArg (fun k => Tool.readScene k c s) (funext fun stored => ?_)
  unfold Tool.detailsOf shownDetails
  cases stored.snapshot.nodeDetails.get? path <;> rfl

/-- A part of a snapshot is shown with its owner and its time. -/
theorem message_part (id : Json) (stored : Snapshot.Stored) {key : String} {part : Json}
    (hkey : key < "sessionId") (hpart : part.WellFormed) :
    .message 200 (toolMessage id (.ok (.success (Tool.withOwner stored [(key, part)])))) =
      successResponse id (.obj [(key, part), ("sessionId", .str stored.session),
        ("updatedAt", .str stored.updatedAt.text)]) := by
  have hvalue : Tool.withOwner stored [(key, part)] =
      .obj [(key, part), ("sessionId", .str stored.session),
        ("updatedAt", .str stored.updatedAt.text)] := by
    simp only [Tool.withOwner, List.cons_append, List.nil_append, Json.object, Json.Members.ofList,
      List.foldl_cons, List.foldl_nil, Json.Members.insert, String.reduceLT, String.reduceEq,
      reduceIte, if_pos hkey]
  rw [← hvalue]
  exact message_success id (by simp [Json.WellFormed, hpart])

/-- The details of a node are shown with its path and with the owner and the time. -/
theorem message_details (id : Json) (path : String) (stored : Snapshot.Stored)
    (hdetails : stored.snapshot.nodeDetails.WellFormed) :
    .message 200 (toolMessage id (shownDetails path stored)) =
      (SceneQuery.details path).response stored id := by
  simp only [shownDetails, SceneQuery.response]
  cases hfound : stored.snapshot.nodeDetails.get? path with
  | none => rfl
  | some found =>
    have hvalue : Tool.withOwner stored [("path", .str path), ("details", found)] =
        .obj [("details", found), ("path", .str path), ("sessionId", .str stored.session),
          ("updatedAt", .str stored.updatedAt.text)] := by
      simp only [Tool.withOwner, List.cons_append, List.nil_append, Json.object,
        Json.Members.ofList, List.foldl_cons, List.foldl_nil, Json.Members.insert,
        String.reduceLT, String.reduceEq, reduceIte]
    have hpart : found.WellFormed := hdetails.get? hfound
    dsimp only
    rw [← hvalue]
    exact message_success id (by simp [Json.WellFormed, hpart])

/-- One answer for each question, in whatever state. -/
theorem scene_answers {h : Hub} (ht : h.tools = .standard) {r : Request} {caller : String}
    {id : Json} {q : SceneQuery}
    (hwell : ∀ stored, h.served? caller = some stored → stored.snapshot.WellFormed)
    (hq : h.Asks r caller id q) :
    h.AnswersAtOnce r (match h.served? caller with
      | some stored => q.response stored id
      | none => unservedResponse id h.whyUnserved.message) := by
  cases q with
  | summary =>
    obtain ⟨args, hcall⟩ := hq
    refine tool_answers ht hcall rfl (fun stored => .ok (.success (Tool.withOwner stored
      [("sceneSummary", stored.snapshot.sceneSummary)]))) (fun _ _ => rfl) fun stored hs => ?_
    exact message_part id stored (by decide) (hwell stored hs).1
  | tree =>
    obtain ⟨args, hcall⟩ := hq
    refine tool_answers ht hcall rfl (fun stored => .ok (.success (Tool.withOwner stored
      [("nodeTree", stored.snapshot.nodeTree)]))) (fun _ _ => rfl) fun stored hs => ?_
    exact message_part id stored (by decide) (hwell stored hs).2.1
  | details path =>
    obtain ⟨args, hcall, hpath⟩ := hq
    rw [← get?_arguments] at hpath
    refine tool_answers ht hcall rfl _ (runNodeDetails_eq hpath) fun stored hs => ?_
    exact message_details id path stored (hwell stored hs).2.2
  | summaryResource => exact resource_answers hq (.inl rfl)
  | treeResource => exact resource_answers hq (.inr rfl)

/-- Only fresh and faithful state is served, after every schedule and to every caller. -/
theorem scene_served (config : Config) (ids : Nat → String) (actions : List Action)
    (caller : String) :
    let h := (Hub.new config ids).exec actions
    h.ServesScene ((Hub.new config ids).refreshes actions) caller ∧
      h.snapshots.staleAfter = min (config.snapshotStaleAfter : Int) Snapshot.maxStaleAfter := by
  intro h
  obtain ⟨hcurrent, hlimit⟩ := current_exec config ids actions
  have ht : h.tools = .standard := (sameSetting_exec (h := Hub.new config ids) rfl rfl actions).2.1
  have hfaithful (stored : Snapshot.Stored) (hs : h.served? caller = some stored) :
      Refresh.lastSynced ((Hub.new config ids).refreshes actions) stored.session =
          some stored.snapshot ∧
        Refresh.lastRefreshed ((Hub.new config ids).refreshes actions) stored.session =
          some stored.updatedAt := by
    obtain ⟨session, hget⟩ := mem_served? hs
    obtain ⟨rfl, hkept⟩ := hcurrent _ _ hget
    exact hkept
  have hwell (stored : Snapshot.Stored) (hs : h.served? caller = some stored) :
      stored.snapshot.WellFormed := by
    obtain ⟨x, hx, hsynced⟩ := Refresh.mem_of_lastSynced _ (hfaithful stored hs).1
    exact wellFormed_of_refreshes hx hsynced
  refine ⟨⟨hfaithful, fun stored hs r id q hq => ?_,
    fun hs => ⟨h.whyUnserved.message, excuse_whyUnserved h, fun r id q hq => ?_⟩,
    fun r id args hcall => ?_⟩, hlimit⟩
  · simpa only [hs] using scene_answers ht hwell hq
  · simpa only [hs] using scene_answers ht hwell hq
  · obtain ⟨path, hpath⟩ := Tool.path_of_fits hcall.2
    exact ⟨path, args, hcall, by rw [← get?_arguments]; exact hpath⟩

end EditorBridge.Hub
