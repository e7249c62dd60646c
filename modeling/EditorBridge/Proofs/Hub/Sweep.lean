import EditorBridge.Proofs.Hub.Ending
import EditorBridge.Proofs.Snapshot.Election
/-!
# What a sweep leaves

A sweep ends the idle sessions one after the other. `sweep_eq` says what that
comes to: the tables without those sessions, their transports closed, and the
snapshots after as many evictions. None of it depends on the order in which the
tables go through their entries, unless two snapshots have the same time.
-/

namespace EditorBridge.Hub

variable {h : Hub} {timeout : Nanos}

/-! ## Who is idle -/

/-- A session lives and has been idle for longer than a span. -/
def expired (h : Hub) (timeout : Nanos) (session : String) : Bool :=
  (h.sessions.get? session).any fun x => timeout < h.now - x.lastSeen

/-- The sessions that have been idle for longer than a span. -/
def idleSessions (h : Hub) (timeout : Nanos) : Sessions :=
  h.sessions.filter fun (_, x) => timeout < h.now - x.lastSeen

theorem expired_iff {session : String} : h.expired timeout session = true ↔
    ∃ x, h.sessions.get? session = some x ∧ timeout < h.now - x.lastSeen := by
  cases hs : h.sessions.get? session <;> simp [expired, hs]

theorem mem_idleSessions {p : String × Session} : p ∈ h.idleSessions timeout ↔
    p ∈ h.sessions ∧ timeout < h.now - p.2.lastSeen := by
  simp [idleSessions]

theorem nodup_idleSessions (hn : h.sessions.keys.Nodup) (timeout : Nanos) :
    (h.idleSessions timeout).keys.Nodup :=
  (List.Sublist.map _ List.filter_sublist).nodup hn

theorem get?_of_mem_idleSessions (hn : h.sessions.keys.Nodup) {p : String × Session}
    (hp : p ∈ h.idleSessions timeout) : h.sessions.get? p.1 = some p.2 :=
  Table.get?_of_mem hn (mem_idleSessions.1 hp).1

theorem mem_keys_idleSessions (hn : h.sessions.keys.Nodup) {session : String} :
    session ∈ (h.idleSessions timeout).keys ↔ h.expired timeout session = true := by
  rw [expired_iff]
  constructor
  · intro hm
    obtain ⟨p, hp, rfl⟩ := List.mem_map.1 hm
    exact ⟨p.2, get?_of_mem_idleSessions hn hp, (mem_idleSessions.1 hp).2⟩
  · rintro ⟨x, hx, hlong⟩
    exact List.mem_map.2 ⟨(session, x), mem_idleSessions.2 ⟨Table.mem_of_get? hx, hlong⟩, rfl⟩

/-! ## Closing the transports of many sessions -/

/-- Transports of which those of some sessions have been closed. -/
def shutAll (sessions : Sessions) (transports : Table TransportId Transport) :
    Table TransportId Transport :=
  sessions.foldl (fun transports p => shutAny transports p.2.transport) transports

theorem shutAny_comm (transports : Table TransportId Transport) (o o' : Option TransportId) :
    shutAny (shutAny transports o) o' = shutAny (shutAny transports o') o := by
  cases o with
  | none => rfl
  | some t =>
    cases o' with
    | none => rfl
    | some t' => exact Table.modify_comm transports t t' shut

/-- It does not matter whose transport is closed first. -/
theorem shutAll_perm {sessions sessions' : Sessions} (hp : sessions.Perm sessions')
    (transports : Table TransportId Transport) :
    shutAll sessions transports = shutAll sessions' transports :=
  hp.foldl_eq' (fun p _ p' _ transports => shutAny_comm transports p.2.transport p'.2.transport) _

theorem get?_shutAll (sessions : Sessions) (transports : Table TransportId Transport)
    (t : TransportId) : (shutAll sessions transports).get? t =
      if sessions.any (·.2.transport = some t) then (transports.get? t).map shut
      else transports.get? t := by
  induction sessions generalizing transports with
  | nil => rfl
  | cons p sessions ih =>
    have again : shut ∘ shut = shut := rfl
    show (shutAll sessions (shutAny transports p.2.transport)).get? t = _
    rw [ih, get?_shutAny, List.any_cons]
    cases sessions.any (·.2.transport = some t) <;> by_cases hp : p.2.transport = some t <;>
      simp [hp, again]

/-! ## A sweep as one equation -/

theorem foldl_endSession {idle : Sessions} (hn : idle.keys.Nodup)
    (hlive : ∀ p ∈ idle, h.sessions.get? p.1 = some p.2) :
    idle.keys.foldl (fun h session => (h.endSession session).2) h = { h with
      sessions := h.sessions.filter (·.1 ∉ idle.keys)
      transports := shutAll idle h.transports
      snapshots := h.snapshots.evict idle.keys } := by
  induction idle generalizing h with
  | nil =>
    have all : h.sessions.filter (·.1 ∉ ([] : List String)) = h.sessions :=
      List.filter_eq_self.2 fun p _ => by simp
    show h = { h with sessions := h.sessions.filter (·.1 ∉ ([] : List String)) }
    rw [all]
  | cons p idle ih =>
    obtain ⟨hp, hn⟩ := List.nodup_cons.1 hn
    have left (q : String × Session) (hq : q ∈ idle) :
        (h.sessions.erase p.1).get? q.1 = some q.2 := by
      have other : q.1 ≠ p.1 := fun he => hp (List.mem_map.2 ⟨q, hq, he⟩)
      rw [Table.get?_erase_of_ne _ other]
      exact hlive q (List.mem_cons_of_mem _ hq)
    have rest : (h.sessions.erase p.1).filter (·.1 ∉ Table.keys idle) =
        h.sessions.filter (·.1 ∉ p.1 :: Table.keys idle) := by
      rw [Table.erase, List.filter_filter]
      refine List.filter_congr fun q _ => ?_
      simp [Bool.and_comm]
    show (Table.keys idle).foldl _ (h.endSession p.1).2 = _
    rw [endSession_eq (hlive p List.mem_cons_self), ih hn left, rest]
    rfl

/-- What a sweep leaves. -/
theorem sweep_eq (hn : h.sessions.keys.Nodup) (timeout : Nanos) : (h.sweep timeout).2 = { h with
      sessions := h.sessions.filter fun (_, x) => h.now - x.lastSeen ≤ timeout
      transports := shutAll (h.idleSessions timeout) h.transports
      snapshots := h.snapshots.evict (h.idleSessions timeout).keys } := by
  have rest : h.sessions.filter (·.1 ∉ (h.idleSessions timeout).keys) =
      h.sessions.filter fun (_, x) => h.now - x.lastSeen ≤ timeout := by
    refine List.filter_congr fun p hp => ?_
    simp [mem_keys_idleSessions hn, expired, Table.get?_of_mem hn hp]
  show (h.idleSessions timeout).keys.foldl _ h = _
  rw [foldl_endSession (nodup_idleSessions hn timeout) fun p hp => get?_of_mem_idleSessions hn hp,
    rest]

/-! ## The law of sweeps -/

/-- What a sweep does: it ends the sessions that have been idle for longer than the span, closes
their transports and evicts their snapshots, and counts them. The latest stays if its session does,
else a newest of the snapshots that are left takes its place. -/
structure Swept (h : Hub) (timeout : Nanos) (n : Nat) (h' : Hub) : Prop where
  count : n = h.sessions.countP fun (_, x) => timeout < h.now - x.lastSeen
  sessions : h'.sessions = h.sessions.filter fun (_, x) => h.now - x.lastSeen ≤ timeout
  closed : ∀ s x t, h.sessions.get? s = some x → timeout < h.now - x.lastSeen →
    x.transport = some t → h'.transport? t = (h.transport? t).map shut
  untouched : ∀ t, (∀ s x, h.sessions.get? s = some x → timeout < h.now - x.lastSeen →
    x.transport ≠ some t) → h'.transport? t = h.transport? t
  entries : h'.snapshots.entries = h.snapshots.entries.filter fun (s, _) => !h.expired timeout s
  kept : (∀ s, h.snapshots.latest = some s → h.expired timeout s = false) →
    h'.snapshots.latest = h.snapshots.latest
  elected : ∀ s, h.snapshots.latest = some s → h.expired timeout s = true →
    (h'.snapshots.latest = none ↔ h'.snapshots.entries = []) ∧
    ∀ s', h'.snapshots.latest = some s' → h'.snapshots.Newest s'
  /-- All else stays. -/
  rest : h' = { h with
    sessions := h'.sessions
    transports := h'.transports
    snapshots := { h.snapshots with
      entries := h'.snapshots.entries
      latest := h'.snapshots.latest } }

/-- The same bridge, but its tables of sessions and of snapshots go through their entries in other
orders. -/
inductive Rearranged (h : Hub) : Hub → Prop
  | intro {sessions : Sessions} {entries : Table String Snapshot.Stored} :
      h.sessions.Perm sessions → h.snapshots.entries.Perm entries →
      Rearranged h { h with
        sessions := sessions
        snapshots := { h.snapshots with entries := entries } }

/-- No two snapshots were refreshed at the same time. -/
def Distinct (h : Hub) : Prop := (h.snapshots.entries.map (·.2.updatedAt)).Nodup

theorem swept_sweep (hsessions : h.sessions.keys.Nodup) (hsnapshots : h.snapshots.Pointed)
    (timeout : Nanos) : h.Swept timeout (h.sweep timeout).1 (h.sweep timeout).2 where
  count := by
    show ((h.idleSessions timeout).map (·.1)).length = _
    rw [List.length_map, idleSessions, List.countP_eq_length_filter]
  sessions := by rw [sweep_eq hsessions]
  closed s x t hx hlong ht := by
    rw [sweep_eq hsessions]
    refine (get?_shutAll _ _ t).trans (if_pos (List.any_eq_true.2 ⟨(s, x), ?_, by simpa using ht⟩))
    exact mem_idleSessions.2 ⟨Table.mem_of_get? hx, hlong⟩
  untouched t hother := by
    rw [sweep_eq hsessions]
    refine (get?_shutAll _ _ t).trans (if_neg fun hany => ?_)
    obtain ⟨p, hp, ht⟩ := List.any_eq_true.1 hany
    exact hother p.1 p.2 (get?_of_mem_idleSessions hsessions hp) (mem_idleSessions.1 hp).2
      (of_decide_eq_true ht)
  entries := by
    rw [sweep_eq hsessions]
    refine (Snapshot.Store.entries_evict ..).trans (List.filter_congr fun p _ => ?_)
    simp [mem_keys_idleSessions hsessions]
  kept hstay := by
    rw [sweep_eq hsessions]
    refine Snapshot.Store.latest_evict fun s hs => ?_
    simp [mem_keys_idleSessions hsessions, hstay s hs]
  elected s hs hgone := by
    rw [sweep_eq hsessions]
    have pointed := hsnapshots.evict (h.idleSessions timeout).keys
    exact ⟨pointed.latest_eq_none_iff, Snapshot.Store.led_evict hsnapshots hs
      ((mem_keys_idleSessions hsessions).2 hgone)⟩
  rest := by
    rw [sweep_eq hsessions]
    simp only [← Snapshot.Store.staleAfter_evict h.snapshots (h.idleSessions timeout).keys]

/-- Where no two snapshots have the same time, the order of the tables does not matter to a sweep. -/
theorem rearranged_sweep (hsessions : h.sessions.keys.Nodup) (hsnapshots : h.snapshots.Pointed)
    (hdistinct : h.Distinct) {g : Hub} (hg : h.Rearranged g) (timeout : Nanos) :
    (g.sweep timeout).1 = (h.sweep timeout).1 ∧
      (h.sweep timeout).2.Rearranged (g.sweep timeout).2 := by
  obtain ⟨hs, he⟩ := hg
  rename_i sessions entries
  let g : Hub := { h with
    sessions := sessions
    snapshots := { h.snapshots with entries := entries } }
  have hsessions' : g.sessions.keys.Nodup := Table.nodup_perm hsessions hs
  have hsnapshots' : g.snapshots.Pointed := hsnapshots.perm he
  have idle : (h.idleSessions timeout).Perm (g.idleSessions timeout) := hs.filter _
  have keys : (h.idleSessions timeout).keys.Perm (g.idleSessions timeout).keys := idle.map _
  have evicted := Snapshot.Store.evict_perm hsnapshots hsnapshots' rfl rfl he hdistinct keys
  have closed : shutAll (g.idleSessions timeout) g.transports =
      shutAll (h.idleSessions timeout) h.transports := (shutAll_perm idle h.transports).symm
  refine ⟨keys.length_eq.symm, ?_⟩
  rw [sweep_eq hsessions, sweep_eq hsessions', evicted, closed]
  exact .intro (hs.filter _) (Snapshot.Store.entries_evict_perm he keys)

/-- A sweep does to any sessions and any snapshots exactly what `Swept` says; and where no two
snapshots have the same time, it leaves the same whatever the order of the tables. -/
theorem sweep_exact (hsessions : h.sessions.keys.Nodup) (hsnapshots : h.snapshots.Pointed)
    (timeout : Nanos) :
    h.Swept timeout (h.sweep timeout).1 (h.sweep timeout).2 ∧
    (h.Distinct → ∀ g, h.Rearranged g → (g.sweep timeout).1 = (h.sweep timeout).1 ∧
      (h.sweep timeout).2.Rearranged (g.sweep timeout).2) :=
  ⟨swept_sweep hsessions hsnapshots timeout, fun hdistinct _ hg =>
    rearranged_sweep hsessions hsnapshots hdistinct hg timeout⟩

/-- Three sessions with snapshots, of which two have been idle for long: the latest, and the one
that comes after it. -/
def crowded : Hub :=
  let session (lastSeen : Nanos) (t : Option TransportId) : Session :=
    ⟨⟨0, 0⟩, lastSeen, true, none, t⟩
  let snapshot : Snapshot := ⟨.null, .null, .null⟩
  { Hub.new .default (fun n => "S" ++ toString n) with
    now := 100
    sessions := [("S1", session 10 (some 0)), ("S2", session 20 none), ("S3", session 60 (some 1))]
    transports := [(0, .opened "S1" 4 50), (1, .opened "S3" 4 50)]
    snapshots := (Snapshot.Store.empty 10).run [.upsert "S3" snapshot ⟨1, 0⟩,
      .upsert "S2" snapshot ⟨2, 0⟩, .upsert "S1" snapshot ⟨3, 0⟩] }

/-- The pointer goes past the one that is evicted next. -/
theorem sweep_exact_crowded :
    (crowded.sessions.keys.Nodup ∧ crowded.snapshots.Pointed) ∧
    (crowded.snapshots.latest = some "S1" ∧ (crowded.sweep 50).1 = 2 ∧
      (crowded.sweep 50).2.snapshots.latest = some "S3") ∧
    crowded.Swept 50 2 (crowded.sweep 50).2 ∧
    ∀ g, crowded.Rearranged g → (crowded.sweep 50).2.Rearranged (g.sweep 50).2 := by
  have nodup : crowded.sessions.keys.Nodup := by decide
  have pointed : crowded.snapshots.Pointed := .run (.empty 10) _
  have distinct : crowded.Distinct := by
    unfold Distinct
    decide
  have ran : crowded.snapshots.latest = some "S1" ∧ (crowded.sweep 50).1 = 2 ∧
      (crowded.sweep 50).2.snapshots.latest = some "S3" := by decide
  obtain ⟨swept, same⟩ := sweep_exact nodup pointed 50
  exact ⟨⟨nodup, pointed⟩, ran, ran.2.1 ▸ swept, fun g hg => (same distinct g hg).2⟩

end EditorBridge.Hub
