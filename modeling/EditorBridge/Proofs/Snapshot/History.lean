import EditorBridge.Proofs.Snapshot.Election
import Mathlib.Data.List.Induction
/-!
# A store and its history

After every history, and in whatever order a table goes through its entries, the
entry of a session is the one that the history tells of (`get?_store`), and the
latest pointer is where the last sync put it or where an election did
(`latest_store`). Both are inductions over the history, by what one event does
to an entry and to the pointer.
-/

namespace EditorBridge.Snapshot.Store

variable {history : List Event} {session : String}

/-! ## What a longer history tells -/

theorem sinceRemoval_concat (history : List Event) (e : Event) (session : String) :
    sinceRemoval (history ++ [e]) session =
      if e = .remove session then [] else e :: sinceRemoval history session := by
  by_cases he : e = .remove session <;> simp [sinceRemoval, he]

theorem lastContent_concat (history : List Event) (e : Event) (session : String) :
    lastContent (history ++ [e]) session = if e = .remove session then none else
      (e.content? session).or (lastContent history session) := by
  rw [lastContent, sinceRemoval_concat]
  split
  · rfl
  · cases hc : e.content? session <;> simp [lastContent, hc]

theorem lastTime_concat (history : List Event) (e : Event) (session : String) :
    lastTime (history ++ [e]) session = if e = .remove session then none else
      (e.time? session).or (lastTime history session) := by
  rw [lastTime, sinceRemoval_concat]
  split
  · rfl
  · cases ht : e.time? session <;> simp [lastTime, ht]

/-- A sync refreshes its session, which has a name. -/
theorem of_content? {e : Event} {snapshot : Snapshot} (h : e.content? session = some snapshot) :
    Text.blank session = false ∧ (e.time? session).isSome := by
  cases e with
  | upsert session' snapshot' now =>
    obtain ⟨⟨rfl, hb⟩, -⟩ := Option.ite_none_right_eq_some.1 h
    exact ⟨hb, by simp [Event.time?]⟩
  | touch | remove => cases h

theorem of_lastContent {snapshot : Snapshot} (h : lastContent history session = some snapshot) :
    Text.blank session = false ∧ (lastTime history session).isSome := by
  obtain ⟨e, hmem, he⟩ := List.exists_of_findSome?_eq_some h
  obtain ⟨hb, ht⟩ := of_content? he
  exact ⟨hb, List.findSome?_isSome_iff.2 ⟨e, hmem, ht⟩⟩

theorem blank_of_recorded {stored : Stored} (h : recorded history session = some stored) :
    Text.blank session = false := by
  obtain ⟨snapshot, hs, -⟩ := Option.bind_eq_some_iff.1 h
  exact (of_lastContent hs).1

theorem session_of_recorded {stored : Stored} (h : recorded history session = some stored) :
    stored.session = session := by
  obtain ⟨snapshot, -, ht⟩ := Option.bind_eq_some_iff.1 h
  obtain ⟨time, -, rfl⟩ := Option.map_eq_some_iff.1 ht
  rfl

theorem recorded_of_blank (history : List Event) (h : Text.blank session = true) :
    recorded history session = none := by
  cases hr : recorded history session with
  | none => rfl
  | some stored => simp [blank_of_recorded hr] at h

theorem recorded_upsert (history : List Event) {synced : String} (snapshot : Snapshot)
    (now : Timestamp) (hb : Text.blank synced = false) (session : String) :
    recorded (history ++ [.upsert synced snapshot now]) session =
      if session = synced then some ⟨synced, snapshot, now⟩ else recorded history session := by
  simp only [recorded, lastContent_concat, lastTime_concat]
  by_cases hs : session = synced
  · subst hs
    simp [Event.content?, Event.time?, hb]
  · simp [Event.content?, Event.time?, hs, Ne.symm hs]

/-- A sync under a blank name is no sync. -/
theorem recorded_upsert_blank (history : List Event) {synced : String} (snapshot : Snapshot)
    (now : Timestamp) (hb : Text.blank synced = true) (session : String) :
    recorded (history ++ [.upsert synced snapshot now]) session = recorded history session := by
  by_cases hs : session = synced
  · subst hs
    rw [recorded_of_blank _ hb, recorded_of_blank _ hb]
  · simp [recorded, lastContent_concat, lastTime_concat, Event.content?, Event.time?, Ne.symm hs]

theorem recorded_touch (history : List Event) (touched : String) (now : Timestamp)
    (session : String) : recorded (history ++ [.touch touched now]) session =
      if session = touched then
        (recorded history session).map fun stored => { stored with updatedAt := now }
      else recorded history session := by
  simp only [recorded, lastContent_concat, lastTime_concat]
  by_cases hs : session = touched
  · subst hs
    cases hc : lastContent history session with
    | none => simp [Event.content?]
    | some snapshot =>
      obtain ⟨time, ht⟩ := Option.isSome_iff_exists.1 (of_lastContent hc).2
      simp [Event.content?, Event.time?, ht]
  · simp [Event.content?, Event.time?, hs, Ne.symm hs]

theorem recorded_remove (history : List Event) (removed session : String) :
    recorded (history ++ [.remove removed]) session =
      if session = removed then none else recorded history session := by
  simp only [recorded, lastContent_concat, lastTime_concat]
  by_cases hs : session = removed
  · simp [hs]
  · simp [Event.content?, Event.time?, hs, Ne.symm hs]

/-! ## What one event does -/

variable {s : Store}

theorem get?_upsert (s : Store) {synced : String} (snapshot : Snapshot) (now : Timestamp)
    (hb : Text.blank synced = false) (session : String) :
    (s.apply (.upsert synced snapshot now)).entries.get? session =
      if session = synced then some ⟨synced, snapshot, now⟩ else s.entries.get? session := by
  simp [apply, upsert, hb, Table.get?_set]

theorem apply_upsert_blank (s : Store) {synced : String} (snapshot : Snapshot) (now : Timestamp)
    (hb : Text.blank synced = true) : s.apply (.upsert synced snapshot now) = s := by
  simp [apply, upsert, hb]

theorem get?_touch (s : Store) (touched : String) (now : Timestamp) (session : String) :
    (s.apply (.touch touched now)).entries.get? session =
      if session = touched then
        (s.entries.get? session).map fun stored => { stored with updatedAt := now }
      else s.entries.get? session := by
  simp only [apply, touch]
  split
  · next hnone =>
    split_ifs with hs
    · simp [hs, hnone]
    · rfl
  · next stored hsome =>
    rw [Table.get?_set]
    split_ifs with hs
    · simp [hs, hsome]
    · rfl

theorem latest_touch (s : Store) (touched : String) (now : Timestamp) :
    (s.apply (.touch touched now)).latest = s.latest := by
  simp only [apply, touch]
  split <;> rfl

/-! ## Tables in any order -/

theorem Pointed.arranged (h : s.Pointed) (a : Arrangement) (n : Nat) : (s.arranged a n).Pointed :=
  h.perm (a.perm n s.entries).symm

theorem Pointed.get?_arranged (h : s.Pointed) (a : Arrangement) (n : Nat) (session : String) :
    (s.arranged a n).entries.get? session = s.entries.get? session :=
  Table.get?_perm h.nodup (a.perm n s.entries).symm session

theorem store_concat (a : Arrangement) (limit : Nanos) (history : List Event) (e : Event) :
    a.store limit (history ++ [e]) =
      ((a.store limit history).arranged a history.length).apply e := by
  simp [Arrangement.store, List.zipIdx_append]

/-- A table that stays in order goes through a plain run. -/
theorem store_inOrder (limit : Nanos) (history : List Event) :
    Arrangement.inOrder.store limit history = (Store.empty limit).run history := by
  induction history using List.reverseRecOn with
  | nil => rfl
  | append_singleton history e ih =>
    rw [store_concat, ih, run, run, List.foldl_append]
    rfl

/-! ## The entries -/

variable (a : Arrangement) (limit : Nanos)

theorem pointed_store (history : List Event) : (a.store limit history).Pointed := by
  induction history using List.reverseRecOn with
  | nil => exact .empty limit
  | append_singleton history e ih =>
    rw [store_concat]
    exact (ih.arranged a _).apply e

/-- The entry of a session is the one that the history tells of. -/
theorem get?_store (history : List Event) (session : String) :
    (a.store limit history).entries.get? session = recorded history session := by
  induction history using List.reverseRecOn generalizing session with
  | nil => rfl
  | append_singleton history e ih =>
    have before (session : String) :=
      ((pointed_store a limit history).get?_arranged a history.length session).trans (ih session)
    rw [store_concat]
    cases e with
    | upsert synced snapshot now =>
      cases hb : Text.blank synced with
      | true => rw [apply_upsert_blank _ _ _ hb, recorded_upsert_blank _ _ _ hb, before]
      | false => rw [get?_upsert _ _ _ hb, recorded_upsert _ _ _ hb, before]
    | touch touched now => rw [get?_touch, recorded_touch, before]
    | remove removed =>
      rw [apply, get?_remove, recorded_remove, before]

/-! ## The latest pointer -/

theorem latest_arranged (s : Store) (n : Nat) : (s.arranged a n).latest = s.latest := rfl

/-- The pointer moves when a session syncs and when the latest goes, and at no other event. -/
theorem latest_apply {e : Event} (hs : e.synced? = none)
    (hr : ∀ session, e = .remove session → s.latest ≠ some session) :
    (s.apply e).latest = s.latest := by
  cases e with
  | upsert synced snapshot now =>
    have hb : Text.blank synced = true := by
      by_contra hb
      simp [Event.synced?, hb] at hs
    rw [apply_upsert_blank _ _ _ hb]
  | touch touched now => exact latest_touch s touched now
  | remove removed => exact latest_remove_of_ne (hr removed rfl)

theorem latest_upsert (s : Store) {synced : String} (snapshot : Snapshot) (now : Timestamp)
    (hb : Text.blank synced = false) :
    (s.apply (.upsert synced snapshot now)).latest = some synced := by
  simp [apply, upsert, hb]

theorem SyncedLast.concat {e : Event} (h : SyncedLast history session) (hs : e.synced? = none)
    (hr : e ≠ .remove session) : SyncedLast (history ++ [e]) session := by
  obtain ⟨before, snapshot, now, after, rfl, hb, hafter, hremoved⟩ := h
  refine ⟨before, snapshot, now, after ++ [e], by simp, hb, ?_, by simp [hremoved, Ne.symm hr]⟩
  simpa [or_imp, forall_and, hs] using hafter

theorem Elected.concat {store : List Event → Store} {e : Event}
    (h : Elected store history session) (hl : (store (history ++ [e])).latest = some session) :
    Elected store (history ++ [e]) session := by
  obtain ⟨before, previous, after, rfl, hprevious, hnewest, hsince⟩ := h
  refine ⟨before, previous, after ++ [e], by simp, hprevious, hnewest, fun later hlater => ?_⟩
  rcases List.prefix_concat_iff.1 hlater with rfl | hlater
  · simpa using hl
  · exact hsince later hlater

/-- Who synced last and was not removed is the latest. -/
theorem latest_of_syncedLast (h : SyncedLast history session) :
    (a.store limit history).latest = some session := by
  obtain ⟨before, snapshot, now, after, rfl, hb, hafter, hremoved⟩ := h
  induction after using List.reverseRecOn with
  | nil =>
    rw [store_concat]
    exact latest_upsert _ snapshot now hb
  | append_singleton after e ih =>
    have still := ih (fun e he => hafter e (List.mem_append_left _ he))
      (fun hm => hremoved (List.mem_append_left _ hm))
    rw [← List.cons_append, ← List.append_assoc, store_concat, latest_apply]
    · exact still
    · exact hafter e (List.mem_append_right _ List.mem_cons_self)
    · rintro removed rfl he
      rw [latest_arranged, still] at he
      cases he
      exact hremoved (List.mem_append_right _ List.mem_cons_self)

/-- The latest synced last and was not removed, or it was elected when the one before went. -/
theorem latest_store (history : List Event) {session : String}
    (h : (a.store limit history).latest = some session) :
    SyncedLast history session ∨ Elected (a.store limit) history session := by
  induction history using List.reverseRecOn generalizing session with
  | nil => cases h
  | append_singleton history e ih =>
    have hl := h
    rw [store_concat] at h
    cases hs : e.synced? with
    | some synced =>
      cases e with
      | touch | remove => cases hs
      | upsert synced snapshot now =>
        have hb : Text.blank synced = false := by
          by_contra hb
          simp [Event.synced?, hb] at hs
        rw [latest_upsert _ _ _ hb] at h
        cases h
        exact .inl ⟨history, snapshot, now, [], rfl, hb, by simp, by simp⟩
    | none =>
      by_cases hr : ∃ removed, e = .remove removed ∧
          (a.store limit history).latest = some removed
      · obtain ⟨removed, rfl, hremoved⟩ := hr
        refine .inr ⟨history, removed, [], rfl, hremoved, ?_, fun later hlater => ?_⟩
        · rw [store_concat]
          exact newest_of_latest_remove ((pointed_store a limit history).arranged a _) hremoved h
        · rw [List.prefix_nil.1 hlater]
          exact hl
      · have kept (removed : String) (he : e = .remove removed) :
            ((a.store limit history).arranged a history.length).latest ≠ some removed :=
          fun hremoved => hr ⟨removed, he, hremoved⟩
        rw [latest_apply hs kept] at h
        refine (ih h).imp (fun synced => ?_) fun elected => elected.concat hl
        exact synced.concat hs fun he => kept session he h

/-! ## Failures -/

theorem fails_iff {e : Event} : e.Fails s ↔ e.Refused s := by
  cases e with
  | upsert session snapshot now =>
    cases hb : Text.blank session <;> simp [Event.Fails, Event.Refused, upsert, hb, Except.isOk,
      Except.toBool]
  | touch session now =>
    cases hs : s.entries.get? session <;> simp [Event.Fails, Event.Refused, touch, hs, Except.isOk,
      Except.toBool]
  | remove session =>
    cases hs : s.entries.get? session <;> simp [Event.Fails, Event.Refused, remove, Table.has, hs]

theorem apply_of_refused {e : Event} (h : e.Refused s) : s.apply e = s := by
  cases e with
  | upsert session snapshot now => exact apply_upsert_blank s snapshot now h
  | touch session now =>
    have hs : s.entries.get? session = none := h
    simp [apply, touch, hs]
  | remove session =>
    have hs : s.entries.get? session = none := h
    simp [apply, remove, Table.has, hs]

/-! ## The law -/

/-- After every history, and whatever the order of the table was before each event: each session has
the entry that the history tells of, under its own name, which is not blank; the latest pointer is
set unless there is no entry, it is where the last sync put it if that session has not been removed
since, and otherwise it was elected when the one before went. A ping leaves all contents and the
pointer alone, the removal of another session leaves the pointer alone, and an event fails exactly
if its name is blank or unknown, and then changes nothing. -/
theorem history_refined (a : Arrangement) (limit : Nanos) (history : List Event) :
    let s := a.store limit history
    (∀ session, s.entries.get? session = recorded history session) ∧
    (s.entries.keys.Nodup ∧ ∀ session stored, (session, stored) ∈ s.entries →
      stored.session = session ∧ Text.blank session = false) ∧
    (s.latest = none ↔ s.entries = []) ∧
    (∀ session, SyncedLast history session → s.latest = some session) ∧
    (∀ session, s.latest = some session → ¬ SyncedLast history session →
      Elected (a.store limit) history session) ∧
    (∀ touched now, (s.apply (.touch touched now)).latest = s.latest ∧
      ∀ session, ((s.apply (.touch touched now)).entries.get? session).map (·.snapshot) =
        (s.entries.get? session).map (·.snapshot)) ∧
    (∀ removed, s.latest ≠ some removed → (s.apply (.remove removed)).latest = s.latest) ∧
    ∀ e : Event, (e.Fails s ↔ e.Refused s) ∧ (e.Fails s → s.apply e = s) := by
  intro s
  have hp : s.Pointed := pointed_store a limit history
  have entry (session : String) : s.entries.get? session = recorded history session :=
    get?_store a limit history session
  refine ⟨entry, ⟨hp.nodup, fun session stored hm => ?_⟩, ?_, ?_, ?_, ?_, ?_, ?_⟩
  · have hrecorded := (entry session).symm.trans (Table.get?_of_mem hp.nodup hm)
    exact ⟨session_of_recorded hrecorded, blank_of_recorded hrecorded⟩
  · exact hp.latest_eq_none_iff
  · exact fun session => latest_of_syncedLast a limit
  · exact fun session hl hn => (latest_store a limit history hl).resolve_left hn
  · refine fun touched now => ⟨latest_touch s touched now, fun session => ?_⟩
    rw [get?_touch]
    split_ifs
    · rw [Option.map_map]
      rfl
    · rfl
  · exact fun removed => latest_remove_of_ne
  · exact fun e => ⟨fails_iff, fun hf => apply_of_refused (fails_iff.1 hf)⟩

end EditorBridge.Snapshot.Store
