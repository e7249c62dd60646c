import EditorBridge.Proofs.Hub.Schedule
/-!
# Sessions and their snapshots

Sessions and snapshots are two tables, and what a small step can do to the two
is said once, by `turnover_step`: sessions come and stay, an initialized session
refreshes its snapshot, or a session goes and takes its snapshot with it. So a
snapshot is always that of a live and initialized session, and so is the latest
one, to which commands go.
-/

namespace EditorBridge.Hub

open Moment (Step Steps)
open Sessions (Grown)

/-! ## What one step does -/

/-- What a small step can do to the sessions and to their snapshots. -/
inductive Turnover (h h' : Hub) : Prop
  | grown : Grown h.sessionId h.sessions h.sessionsNamed h'.sessions h'.sessionsNamed →
      h'.snapshots = h.snapshots → Turnover h h'
  | refreshed (x : Refresh) : h.sessions.isInitialized x.session = true →
      h'.sessions = h.sessions → h'.sessionsNamed = h.sessionsNamed →
      h'.snapshots = h.snapshots.apply x.event → Turnover h h'
  | ended (session : String) : h'.sessions = h.sessions.erase session →
      h'.sessionsNamed = h.sessionsNamed → h'.snapshots = (h.snapshots.remove session).2 →
      Turnover h h'

theorem Turnover.same {h h' : Hub} (hsessions : h'.sessions = h.sessions)
    (hnamed : h'.sessionsNamed = h.sessionsNamed) (hsnapshots : h'.snapshots = h.snapshots) :
    Turnover h h' := by
  refine .grown ?_ hsnapshots
  rw [hsessions, hnamed]
  exact .refl ..

theorem turnover_step {m m' : Moment} {log : List Mark} (hp : m.hub.path = .streams)
    (hs : Step m log m') : Turnover m.hub m'.hub := by
  cases hs with
  | touched sessions n hlooked => exact .grown hlooked.toGrown rfl
  | stored hwall hinit ha => exact .refreshed _ hinit rfl rfl rfl
  | @ended h es session =>
    cases hx : h.sessions.get? session with
    | none =>
      rw [endSession_of_none hx]
      exact .same rfl rfl rfl
    | some s =>
      rw [endSession_eq hx]
      exact .ended session rfl rfl rfl
  | subscribed hx =>
    rw [startStream_eq hx]
    exact .grown (.set hx fun hi => hi) rfl
  | loopEnded =>
    rw [endLoop_eq]
    exact .grown (.clearTransport ..) rfl
  | broken =>
    rw [endLoop_eq]
    exact .grown (.clearTransport ..) rfl
  | abandoned ht hc =>
    rw [abandon_eq hp ht hc]
    exact .same rfl rfl rfl
  | _ => exact .same rfl rfl rfl

/-! ## Snapshots of live sessions -/

/-- Every snapshot is that of a live session that is initialized. -/
structure Lodged (h : Hub) : Prop where
  pointed : h.snapshots.Pointed
  initialized : ∀ {session stored}, h.snapshots.entries.get? session = some stored →
    h.sessions.isInitialized session = true

theorem lodged_step {m m' : Moment} {log : List Mark} (hp : m.hub.path = .streams)
    (h : m.hub.Lodged) (hs : Step m log m') : m'.hub.Lodged := by
  cases turnover_step hp hs with
  | grown hgrown hsnapshots =>
    refine ⟨hsnapshots ▸ h.pointed, fun hget => ?_⟩
    rw [hsnapshots] at hget
    exact hgrown.isInitialized (h.initialized hget)
  | refreshed x hinit hsessions hnamed hsnapshots =>
    refine ⟨hsnapshots ▸ h.pointed.apply x.event, fun hget => ?_⟩
    rw [hsnapshots] at hget
    rw [hsessions]
    rcases Snapshot.Store.of_get?_refresh hget with rfl | hget
    · exact hinit
    · exact h.initialized hget
  | ended session hsessions hnamed hsnapshots =>
    refine ⟨hsnapshots ▸ h.pointed.remove session, fun {other stored} hget => ?_⟩
    rw [hsnapshots, Snapshot.Store.get?_remove] at hget
    split_ifs at hget with hne
    have hinit := h.initialized hget
    rw [hsessions]
    simp only [Sessions.isInitialized] at hinit ⊢
    rw [Table.get?_erase_of_ne _ hne]
    exact hinit

theorem lodged_exec (config : Config) (ids : Nat → String) (actions : List Action) :
    ((Hub.new config ids).exec actions).Lodged := by
  refine schedule_induction (P := fun m => m.hub.Lodged) rfl rfl ?_
    (fun m m' log hp hm hs => lodged_step hp hm hs) actions
  exact ⟨.empty _, nofun⟩

/-- A session that is initialized lives. -/
theorem initialized_iff {h : Hub} {session : String} : h.sessions.isInitialized session = true ↔
    ∃ s, h.sessions.get? session = some s ∧ s.initialized = true := by
  simp only [Sessions.isInitialized]
  cases h.sessions.get? session <;> simp

/-- The latest snapshot is that of a live session, and commands go there. -/
theorem Lodged.latest {h : Hub} (hl : h.Lodged) {session : String}
    (hs : h.snapshots.latest = some session) : h.sessions.isInitialized session = true := by
  obtain ⟨stored, hm⟩ := hl.pointed.latest hs
  exact hl.initialized (Table.get?_of_mem hl.pointed.nodup hm)

/-- Who orders a command has called one of the tools for that, and the order goes to the session with
the latest snapshot. Nothing else comes of the call. -/
theorem run_of_order? {h : Hub} (ht : h.tools = .standard) {call : ToolCall} {o : Broker.Order}
    (ho : h.order? call = some o) :
    call.name ∈ Tool.commandTools ∧ h.snapshots.latest = some o.session ∧
      h.tools.execute call.name call.args (h.toolContext (some call.session)) h.services =
        (.command o, h.services) := by
  have hran := Tool.execute_ran call.name call.args (h.toolContext (some call.session)) h.services
  unfold order? at ho
  rw [ht] at ho ⊢
  generalize Tool.Registry.standard.execute call.name call.args
    (h.toolContext (some call.session)) h.services = run at hran ho ⊢
  obtain ⟨outcome, s⟩ := run
  cases hran with
  | answers hn =>
    cases outcome with
    | command o' => exact absurd rfl (hn o')
    | _ => cases ho
  | refreshes => cases ho
  | acks => cases ho
  | orders hn hl =>
    cases ho
    exact ⟨hn, hl, rfl⟩

theorem latest_of_order? {h : Hub} (ht : h.tools = .standard) {call : ToolCall} {o : Broker.Order}
    (ho : h.order? call = some o) :
    call.name ∈ Tool.commandTools ∧ h.snapshots.latest = some o.session := by
  obtain ⟨hname, hlatest, -⟩ := run_of_order? ht ho
  exact ⟨hname, hlatest⟩

/-- In every state that a schedule leads to, every snapshot is kept under its own session, which
lives and is initialized; the latest one is set unless there is none, and is one of them. So the
session that a command goes to lives and is initialized. -/
theorem snapshots_lodged (config : Config) (ids : Nat → String) (actions : List Action) :
    let h := (Hub.new config ids).exec actions
    (∀ session stored, (session, stored) ∈ h.snapshots.entries → stored.session = session ∧
      ∃ s, h.sessions.get? session = some s ∧ s.initialized = true) ∧
    (h.snapshots.latest.isSome ↔ h.snapshots.entries ≠ []) ∧
    (∀ session, h.snapshots.latest = some session →
      ∃ stored, (session, stored) ∈ h.snapshots.entries) ∧
    ∀ call o, h.order? call = some o →
      ∃ s, h.sessions.get? o.session = some s ∧ s.initialized = true := by
  intro h
  have hl : h.Lodged := lodged_exec config ids actions
  obtain ⟨-, ht, -⟩ := sameSetting_exec (h := Hub.new config ids) rfl rfl actions
  refine ⟨?_, hl.pointed.isSome_latest, fun session => hl.pointed.latest, ?_⟩
  · intro session stored hm
    have hget := Table.get?_of_mem hl.pointed.nodup hm
    exact ⟨hl.pointed.own hm, initialized_iff.1 (hl.initialized hget)⟩
  · intro call o ho
    obtain ⟨-, hlatest⟩ := latest_of_order? ht ho
    exact initialized_iff.1 (hl.latest hlatest)

end EditorBridge.Hub
