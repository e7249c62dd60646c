import EditorBridge.Proofs.Snapshot
/-!
# What the built-in tools can do

A built-in tool answers and changes nothing; or it refreshes the snapshot of its
caller; or it is the one that acknowledges, and takes an acknowledgement to the
broker; or it orders a command for the editor with the latest snapshot. Commands
are ordered by the three tools that are there for it, and their calls fail in
two ways only.
-/

namespace EditorBridge.Tool

/-- The tools that command the editor. -/
def commandTools : List String := [runProject.name, stopProject.name, editorCommand.name]

/-- What a call of a tool with a name can come to. -/
inductive Ran (name : String) (c : Context) (args : Json) (s : Services) : Outcome → Services → Prop
  /-- It is answered. Who wanted to refresh a snapshot has failed. -/
  | answers {o : Outcome} : (∀ order, o ≠ .command order) →
      (∀ result, o = .result result → result.isError = false →
        name ≠ syncSnapshot.name ∧ name ≠ ping.name) → Ran name c args s o s
  /-- A snapshot is refreshed. -/
  | refreshes {session : String} {x : Refresh} {result : Result} : c.ready? = some session →
      Refresh.ofCall? name args session s.now = some x → x.Accepted s.snapshots →
      result.isError = false →
      Ran name c args s (.result result) { s with snapshots := s.snapshots.apply x.event }
  /-- An acknowledgement is accepted. -/
  | acks {session : String} {a : Broker.Ack} {result : Result} : name = ackCommand.name →
      c.ready? = some session → Broker.Ack.decode args = .ok a →
      (s.broker.ack session a s.now).1 = .ok () → result.isError = false →
      Ran name c args s (.result result) { s with broker := (s.broker.ack session a s.now).2 }
  /-- A command is ordered. -/
  | orders {o : Broker.Order} : name ∈ commandTools → s.snapshots.latest = some o.session →
      Ran name c args s (.command o) s

namespace Ran

variable {name : String} {c : Context} {args : Json} {s : Services}

/-- A tool that refreshes nothing answers. -/
theorem same {o : Outcome} (h : ∀ order, o ≠ .command order)
    (hn : name ≠ syncSnapshot.name ∧ name ≠ ping.name) : Ran name c args s o s :=
  .answers h fun _ _ _ => hn

theorem error (e : ToolError) : Ran name c args s (.error e) s := .answers (by simp) (by simp)

/-- A failure as a result. -/
theorem failure (kind : Rpc.ErrorKind) (message : String) :
    Ran name c args s (.failure kind message) s := by
  refine .answers (by simp [Outcome.failure]) fun result hr hs => ?_
  cases hr
  cases hs

theorem whenReady {k : String → Json → Services → Outcome × Services}
    (h : ∀ session, c.ready? = some session →
      Ran name c args s (k session args s).1 (k session args s).2) :
    Ran name c args s (Tool.whenReady k c args s).1 (Tool.whenReady k c args s).2 := by
  unfold Tool.whenReady
  split
  · next session hs => exact h session hs
  · exact failure ..

theorem syncSnapshot (session : String) (hs : c.ready? = some session)
    (hargs : ∃ members, args = .obj members) :
    Ran Tool.syncSnapshot.name c args s (runSync session args s).1 (runSync session args s).2 := by
  obtain ⟨members, rfl⟩ := hargs
  simp only [runSync, Snapshot.decode_obj, Snapshot.Store.upsert]
  cases hb : Text.blank session with
  | true => exact failure ..
  | false =>
    let value := Json.object
      [("ok", .bool true), ("sessionId", .str session), ("updatedAt", .str s.now.text)]
    have ran : Ran Tool.syncSnapshot.name c (.obj members) s (.result (.success value)) _ :=
      refreshes (x := ⟨session, s.now, some (Refresh.content (.obj members))⟩) hs (if_pos rfl) hb rfl
    simpa [Refresh.event, Snapshot.Store.apply, Snapshot.Store.upsert, hb] using ran

theorem ping (session : String) (hs : c.ready? = some session) :
    Ran Tool.ping.name c args s (runPing session args s).1 (runPing session args s).2 := by
  simp only [runPing, Snapshot.Store.touch]
  cases hget : s.snapshots.entries.get? session with
  | none => exact failure ..
  | some stored =>
    let value := Json.object [("ok", .bool true), ("updatedAt", .str s.now.text)]
    have ran : Ran Tool.ping.name c args s (.result (.success value)) _ :=
      refreshes (x := ⟨session, s.now, none⟩) hs ((if_neg (by decide)).trans (if_pos rfl))
        ⟨stored, hget⟩ rfl
    simpa [Refresh.event, Snapshot.Store.apply, Snapshot.Store.touch, hget] using ran

theorem ack (session : String) (hs : c.ready? = some session) :
    Ran ackCommand.name c args s (runAck session args s).1 (runAck session args s).2 := by
  unfold runAck
  split
  · exact failure ..
  · next a ha =>
    split
    · next b hb =>
      obtain rfl : b = (s.broker.ack session a s.now).2 := by rw [hb]
      exact .acks rfl hs ha (by rw [hb]) rfl
    · exact failure ..
    · exact failure ..

theorem readScene {k : Snapshot.Stored → Outcome} (hk : ∀ stored order, k stored ≠ .command order)
    (hn : name ≠ Tool.syncSnapshot.name ∧ name ≠ Tool.ping.name) :
    Ran name c args s (Tool.readScene k c s).1 (Tool.readScene k c s).2 := by
  unfold Tool.readScene
  split
  · exact same (hk _) hn
  · exact error _

theorem sendCommand (hn : name ∈ commandTools) (command : String) (params : Json) (timeout : Nanos) :
    Ran name c args s (Tool.sendCommand command params timeout s).1
      (Tool.sendCommand command params timeout s).2 := by
  unfold Tool.sendCommand
  split
  · exact error _
  · next h => exact .orders hn h

end Ran

/-- Every built-in tool does one of these things with the members of an object. -/
theorem run_ran {t : Tool} (ht : t ∈ builtin) (c : Context) {args : Json}
    (hargs : ∃ members, args = .obj members) (s : Services) :
    Ran t.name c args s (t.run c args s).1 (t.run c args s).2 := by
  simp only [builtin, List.mem_cons, List.not_mem_nil, or_false] at ht
  rcases ht with rfl | rfl | rfl | rfl | rfl | rfl | rfl | rfl | rfl
  · exact .whenReady fun session hs => .syncSnapshot session hs hargs
  · exact .whenReady fun session hs => .ping session hs
  · exact .whenReady fun session hs => .ack session hs
  · exact .readScene (by simp) (by decide)
  · exact .readScene (by simp) (by decide)
  · show Ran _ c args s (runNodeDetails c args s).1 (runNodeDetails c args s).2
    unfold runNodeDetails
    split
    · refine .readScene (fun stored order => ?_) (by decide)
      unfold detailsOf
      split <;> simp
    · exact .error _
  · exact .sendCommand (by decide) ..
  · exact .sendCommand (by decide) ..
  · show Ran _ c args s (runAnyCommand c args s).1 (runAnyCommand c args s).2
    unfold runAnyCommand
    split
    · split
      · exact .error _
      · exact .sendCommand (by decide) ..
    · exact .error _

/-- The keywords of the schema of an object, in the order of their names. -/
theorem objectSchema_eq (properties : List (String × Json)) (required : List String) :
    objectSchema properties required = .obj ([("properties", .object properties)] ++
      (if required = [] then [] else [("required", .arr (required.map .str))]) ++
      [("type", .str "object")]) := by
  unfold objectSchema
  split <;> rfl

/-- What fits the schema of an object is an object whose members fit, with the required ones. -/
theorem fits_objectSchema {properties : List (String × Json)} {required : List String} {x : Json}
    (h : Schema.violations (objectSchema properties required) x = []) :
    (∃ members, x = .obj members) ∧
      Schema.memberViolations (Json.Members.ofList properties) x = [] ∧
      Schema.requiredViolations (.arr (required.map .str)) x = [] := by
  have hkeywords : Schema.memberViolations (Json.Members.ofList properties) x = [] ∧
      Schema.requiredViolations (.arr (required.map .str)) x = [] ∧
      Schema.typeViolations (.str "object") x = [] := by
    rw [objectSchema_eq] at h
    by_cases hr : required = []
    · have hnone : Schema.requiredViolations (.arr (required.map .str)) x = [] := by
        cases x <;> simp [hr, Schema.requiredViolations]
      simp [hr, Json.object, Schema.violations, Schema.allViolations, Schema.keywordViolations] at h
      exact ⟨h.1, hnone, h.2⟩
    · simpa [hr, Json.object, Schema.violations, Schema.allViolations, Schema.keywordViolations]
        using h
  obtain ⟨hmembers, hrequired, htype⟩ := hkeywords
  refine ⟨?_, hmembers, hrequired⟩
  cases x with
  | obj members => exact ⟨members, rfl⟩
  | _ => simp [Schema.typeViolations, Schema.hasType] at htype

theorem inputSchema_builtin {t : Tool} (ht : t ∈ builtin) :
    ∃ properties required, t.inputSchema = objectSchema properties required := by
  simp only [builtin, List.mem_cons, List.not_mem_nil, or_false] at ht
  rcases ht with rfl | rfl | rfl | rfl | rfl | rfl | rfl | rfl | rfl <;> exact ⟨_, _, rfl⟩

theorem session_of_ready? {session session' : String} {initialized : Bool}
    (h : Context.ready? ⟨some session, initialized⟩ = some session') : session = session' := by
  cases initialized with
  | false => cases h
  | true => exact Option.some.inj (Option.ite_none_left_eq_some.1 h).2

/-! ## The registry -/

namespace Registry

theorem mem_insert {t u : Tool} {r : Registry} (h : u ∈ r.insert t) : u = t ∨ u ∈ r := by
  induction r with
  | nil => exact .inl (List.mem_singleton.1 h)
  | cons v rest ih =>
    unfold insert at h
    split at h
    · exact (List.mem_cons.1 h).imp_right id
    · rcases List.mem_cons.1 h with rfl | h
      · exact .inr List.mem_cons_self
      · exact (ih h).imp_right (List.mem_cons_of_mem _)

theorem mem_register {t u : Tool} {r r' : Registry} (hr : r.register t = .ok r') (h : u ∈ r') :
    u = t ∨ u ∈ r := by
  unfold register registerIn at hr
  split at hr
  · cases hr
  · split at hr
    · cases hr
    · split at hr
      · cases hr
      · cases hr
        exact mem_insert h
  · cases hr

/-- Whatever is registered was there or was given. -/
theorem mem_registerAll {ts : List Tool} {r : Registry} {u : Tool} (h : u ∈ (registerAll ts r).2) :
    u ∈ ts ∨ u ∈ r := by
  induction ts generalizing r with
  | nil => exact .inr h
  | cons t ts ih =>
    unfold registerAll at h
    split at h
    · next r' hr =>
      rcases ih h with h | h
      · exact .inl (List.mem_cons_of_mem _ h)
      · rcases mem_register hr h with rfl | h
        · exact .inl List.mem_cons_self
        · exact .inr h
    · exact .inr h

/-- A call of a registered tool runs it or rejects the arguments. -/
theorem execute_cases {r : Registry} {name : String} {t : Tool} (h : r.find? name = some t)
    (args : Json) (c : Context) (s : Services) :
    (Schema.violations t.inputSchema (arguments args) = [] ∧ r.execute name args c s =
      (contain (t.run c (arguments args) s).1, (t.run c (arguments args) s).2)) ∨
    ∃ m, r.execute name args c s = (t.reject m c, s) := by
  by_cases hv : Schema.violations t.inputSchema (arguments args) = []
  · exact .inl ⟨hv, executeIn_of_fits h hv⟩
  · exact .inr ⟨_, executeIn_of_misfit h hv⟩

theorem mem_builtin {t : Tool} (h : t ∈ standard) : t ∈ builtin := by
  rcases mem_registerAll h with h | h
  · exact h
  · cases h

end Registry

/-- Rejected arguments never order a command. -/
theorem reject_ne_command {t : Tool} (ht : t ∈ builtin) (m : String) (c : Context)
    (order : Broker.Order) : t.reject m c ≠ .command order := by
  simp only [builtin, List.mem_cons, List.not_mem_nil, or_false] at ht
  rcases ht with rfl | rfl | rfl | rfl | rfl | rfl | rfl | rfl | rfl
  iterate 3
    show rejectByResult m c ≠ _
    unfold rejectByResult
    split <;> simp [Outcome.failure, unfinishedHandshake]
  all_goals exact fun h => nomatch h

/-- Rejected arguments refresh nothing. -/
theorem reject_isError {t : Tool} (ht : t ∈ builtin) (m : String) (c : Context) (result : Result)
    (hr : t.reject m c = .result result) : result.isError = true := by
  simp only [builtin, List.mem_cons, List.not_mem_nil, or_false] at ht
  rcases ht with rfl | rfl | rfl | rfl | rfl | rfl | rfl | rfl | rfl
  iterate 3
    revert hr
    show rejectByResult m c = _ → _
    unfold rejectByResult
    split <;> (intro hr; cases hr; rfl)
  all_goals cases hr

/-- And so does every call of one of them. -/
theorem execute_ran (name : String) (args : Json) (c : Context) (s : Services) :
    Ran name c (Registry.arguments args) s (Registry.standard.execute name args c s).1
      (Registry.standard.execute name args c s).2 := by
  cases ht : Registry.standard.find? name with
  | none =>
    rw [Registry.execute, Registry.executeIn_of_none ht]
    exact .error _
  | some t =>
    have hname : t.name = name := by simpa using List.find?_some ht
    have hmem : t ∈ builtin := Registry.mem_builtin (List.mem_of_find?_eq_some ht)
    rcases Registry.execute_cases ht args c s with ⟨hv, h⟩ | ⟨m, h⟩ <;> rw [h]
    · obtain ⟨properties, required, hschema⟩ := inputSchema_builtin hmem
      have hran := hname ▸ run_ran hmem c (fits_objectSchema (hschema ▸ hv)).1 s
      generalize t.run c (Registry.arguments args) s = run at hran
      obtain ⟨o, s'⟩ := run
      cases hran with
      | answers ho hr =>
        cases o with
        | command o' => exact absurd rfl (ho o')
        | panic detail => exact .error _
        | _ => exact .answers ho hr
      | refreshes hs hx ha hr => exact .refreshes hs hx ha hr
      | acks hn hs ha hb hr => exact .acks hn hs ha hb hr
      | orders hn hl => exact .orders hn hl
    · refine .answers (reject_ne_command hmem m c) fun result hr hok => ?_
      rw [reject_isError hmem m c result hr] at hok
      cases hok

theorem execute_of_fits {r : Registry} {name : String} {t : Tool} (h : r.find? name = some t)
    {args : Json} (hv : Schema.violations t.inputSchema (Registry.arguments args) = []) (c : Context)
    (s : Services) : r.execute name args c s =
      (Registry.contain (t.run c (Registry.arguments args) s).1,
        (t.run c (Registry.arguments args) s).2) :=
  Registry.executeIn_of_fits h hv

/-- Arguments that fit name a node. -/
theorem path_of_fits {args : Json} (h : Schema.violations nodeDetails.inputSchema args = []) :
    ∃ path, args.get? "path" = some (.str path) := by
  obtain ⟨⟨members, rfl⟩, hmembers, hrequired⟩ := fits_objectSchema h
  cases hpath : Json.Members.get? "path" members with
  | none => simp [Schema.requiredViolations, Json.str?, hpath] at hrequired
  | some j =>
    have fits {schema : Json} (h : Schema.memberViolations (Json.Members.ofList [("path", schema)])
        (.obj members) = []) : Schema.violations schema j = [] := by
      simpa [Json.Members.ofList, Json.Members.insert, Schema.memberViolations, Json.get?, hpath]
        using h
    have hschema : Schema.violations (.obj [("description", .str "Node path, e.g. \"Root/Player\""),
        ("minLength", .int 1), ("type", .str "string")]) j = [] := fits hmembers
    have htype : Schema.typeViolations (.str "string") j = [] := by
      simp [Schema.violations, Schema.allViolations, Schema.keywordViolations] at hschema
      exact hschema.2
    cases j with
    | str path => exact ⟨path, hpath⟩
    | _ => simp [Schema.typeViolations, Schema.hasType] at htype

/-! ## Calls of the tools that command -/

/-- The errors that a client can get over: the editor is away, or the call is wrong. -/
def Mendable (e : Rpc.Error) : Prop :=
  ∃ message, e = ⟨-32000, message, some (.obj [("kind", .str "not_available")])⟩ ∨
    e = ⟨-32602, message, some (.obj [("kind", .str "invalid_params")])⟩

theorem mendable_notAvailable (m : String) : Mendable (ToolError.notAvailable m).toRpc :=
  ⟨m, .inl rfl⟩

theorem mendable_invalidParams (m : String) : Mendable (ToolError.invalidParams m).toRpc :=
  ⟨m, .inr rfl⟩

theorem sendCommand_cases (command : String) (params : Json) (timeout : Nanos) (s : Services) :
    (∃ o, sendCommand command params timeout s = (.command o, s) ∧
      s.snapshots.latest = some o.session) ∨
    ∃ e, sendCommand command params timeout s = (.error e, s) ∧ Mendable e.toRpc := by
  unfold sendCommand
  split
  · exact .inr ⟨_, rfl, mendable_notAvailable _⟩
  · next h => exact .inl ⟨_, rfl, h⟩

/-- A call of such a tool orders a command for the editor with the latest snapshot, or fails in one
of two ways; it changes nothing. -/
theorem execute_command {name : String} (hn : name ∈ commandTools) (args : Json) (c : Context)
    (s : Services) :
    (∃ o, Registry.standard.execute name args c s = (.command o, s) ∧
      s.snapshots.latest = some o.session) ∨
    ∃ e, Registry.standard.execute name args c s = (.error e, s) ∧ Mendable e.toRpc := by
  have rejects (t : Tool) (hf : Registry.standard.find? name = some t)
      (hr : ∀ m c, t.reject m c = .error (.invalidParams m))
      (hrun : ∀ args, (∃ o, t.run c args s = (.command o, s) ∧ s.snapshots.latest = some o.session) ∨
        ∃ e, t.run c args s = (.error e, s) ∧ Mendable e.toRpc) :
      (∃ o, Registry.standard.execute name args c s = (.command o, s) ∧
        s.snapshots.latest = some o.session) ∨
      ∃ e, Registry.standard.execute name args c s = (.error e, s) ∧ Mendable e.toRpc := by
    rcases Registry.execute_cases hf args c s with ⟨-, h⟩ | ⟨m, h⟩
    · rcases hrun (Registry.arguments args) with ⟨o, ho, hl⟩ | ⟨e, he, hk⟩
      · exact .inl ⟨o, by rw [h, ho]; rfl, hl⟩
      · exact .inr ⟨e, by rw [h, he]; rfl, hk⟩
    · exact .inr ⟨_, by rw [h, hr], mendable_invalidParams _⟩
  simp only [commandTools, List.mem_cons, List.not_mem_nil, or_false] at hn
  rcases hn with rfl | rfl | rfl
  · exact rejects runProject rfl (fun _ _ => rfl) fun _ => sendCommand_cases ..
  · exact rejects stopProject rfl (fun _ _ => rfl) fun _ => sendCommand_cases ..
  · refine rejects editorCommand rfl (fun _ _ => rfl) fun args => ?_
    show (∃ o, runAnyCommand c args s = _ ∧ _) ∨ ∃ e, runAnyCommand c args s = _ ∧ _
    unfold runAnyCommand
    split
    · split
      · exact .inr ⟨_, rfl, mendable_invalidParams _⟩
      · exact sendCommand_cases ..
    · exact .inr ⟨_, rfl, mendable_invalidParams _⟩

end EditorBridge.Tool
