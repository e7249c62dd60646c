import EditorBridge.Proofs.Table
import EditorBridge.Tool.Refresh
import Mathlib.Tactic.SplitIfs
/-!
# The law of the snapshot store

Reading a snapshot from an object never fails. A refresh changes the entry of
its session and no other; a removal takes one entry away. The history of
refreshes tells what an entry holds. The latest snapshot is one of the store's,
and there is one unless the store is empty.
-/

namespace EditorBridge

namespace Snapshot

/-- No member of an object is a wrong part. -/
theorem checkAll_record (members : Json.Members) : record.checkAll members = .ok () := by
  have passes : ∀ p ∈ record.checks, ∀ j, p.2 j = .ok () := by
    intro p hp j
    change p ∈ [_, _, _] at hp
    simp only [List.mem_cons, List.not_mem_nil, or_false] at hp
    rcases hp with rfl | rfl | rfl <;> rfl
  have hcheck (key : String) (check : Json.Decoder Unit) (h : record.check? key = some check)
      (j : Json) : check j = .ok () := by
    obtain ⟨before, after, hchecks, -⟩ := List.lookup_eq_some_iff.1 h
    exact passes (key, check) (hchecks ▸ List.mem_append_right _ List.mem_cons_self) j
  have hall : record.checkAll members = members.forM fun _ => .ok () := by
    refine congrArg members.forM (funext fun m => ?_)
    obtain ⟨key, j⟩ := m
    cases h : record.check? key with
    | none => simp only [h]
    | some check => simp only [h, hcheck key check h]
  rw [hall]
  clear hall
  induction members with
  | nil => rfl
  | cons m members ih => exact ih

theorem decode_obj (members : Json.Members) :
    decode (.obj members) = .ok (Refresh.content (.obj members)) := by
  simp only [decode, Json.Record.decode]
  rw [checkAll_record]
  simp only [record, Json.Record.withDefault, Json.Record.field, Json.Record.seq, Json.Record.pure,
    Refresh.content, Json.get?, Json.Decoder.any]
  cases Json.Members.get? "sceneSummary" members <;>
    cases Json.Members.get? "nodeTree" members <;>
    cases Json.Members.get? "nodeDetails" members <;> rfl

end Snapshot

/-! ## Histories -/

namespace Refresh

/-- A store takes a refresh: who syncs has a name, and who pings has synced. -/
def Accepted (x : Refresh) (s : Snapshot.Store) : Prop :=
  match x.synced with
  | some _ => Text.blank x.session = false
  | none => ∃ stored, s.entries.get? x.session = some stored

variable {x : Refresh} {session : String} (history : List Refresh)

theorem mem_of_lastSynced {snapshot : Snapshot} (h : lastSynced history session = some snapshot) :
    ∃ x ∈ history, x.synced = some snapshot := by
  obtain ⟨x, hx, hsynced⟩ := List.mem_filterMap.1 (List.mem_of_getLast? h)
  exact ⟨x, (List.mem_filter.1 hx).1, hsynced⟩

theorem lastSynced_of_ne (h : x.session ≠ session) :
    lastSynced (history ++ [x]) session = lastSynced history session := by
  simp [lastSynced, h]

theorem lastSynced_of_ping (h : x.synced = none) :
    lastSynced (history ++ [x]) session = lastSynced history session := by
  by_cases hs : x.session = session <;> simp [lastSynced, hs, h]

theorem lastSynced_of_sync {snapshot : Snapshot} (h : x.synced = some snapshot) :
    lastSynced (history ++ [x]) x.session = some snapshot := by
  simp [lastSynced, h]

theorem lastRefreshed_of_ne (h : x.session ≠ session) :
    lastRefreshed (history ++ [x]) session = lastRefreshed history session := by
  simp [lastRefreshed, h]

theorem lastRefreshed_self : lastRefreshed (history ++ [x]) x.session = some x.wall := by
  simp [lastRefreshed]

end Refresh

namespace Snapshot.Store

/-- Every entry is its session's own, holds what that session synced last and tells when it was
refreshed last. -/
def Current (history : List Refresh) (s : Store) : Prop :=
  ∀ session stored, s.entries.get? session = some stored →
    stored.session = session ∧ Refresh.lastSynced history session = some stored.snapshot ∧
      Refresh.lastRefreshed history session = some stored.updatedAt

namespace Current

variable {history : List Refresh} {s : Store}

/-- A refresh changes one entry, and is the last of its session. -/
theorem refresh (hc : s.Current history) {x : Refresh} (hx : x.Accepted s) :
    (s.apply x.event).Current (history ++ [x]) := by
  have changed (stored : Stored) (hsession : stored.session = x.session)
      (hsynced : Refresh.lastSynced (history ++ [x]) x.session = some stored.snapshot)
      (hwall : stored.updatedAt = x.wall) (latest : Option String) :
      Current (history ++ [x])
        { s with entries := s.entries.set x.session stored, latest := latest } := by
    intro session stored' hget
    rcases Table.of_get?_set hget with ⟨rfl, rfl⟩ | ⟨hs, hold⟩
    · rw [hwall]
      exact ⟨hsession, hsynced, Refresh.lastRefreshed_self history⟩
    · rw [Refresh.lastSynced_of_ne _ (Ne.symm hs), Refresh.lastRefreshed_of_ne _ (Ne.symm hs)]
      exact hc session stored' hold
  unfold Refresh.Accepted at hx
  cases hsync : x.synced with
  | some snapshot =>
    simp only [hsync] at hx
    simp only [Refresh.event, hsync, apply, upsert, hx]
    exact changed ⟨x.session, snapshot, x.wall⟩ rfl (Refresh.lastSynced_of_sync _ hsync) rfl _
  | none =>
    simp only [hsync] at hx
    obtain ⟨stored, hstored⟩ := hx
    simp only [Refresh.event, hsync, apply, touch, hstored]
    obtain ⟨hsession, hsynced, -⟩ := hc _ _ hstored
    exact changed { stored with updatedAt := x.wall } hsession
      ((Refresh.lastSynced_of_ping _ hsync).trans hsynced) rfl _

/-- A removal takes one entry away. -/
theorem remove (hc : s.Current history) (session : String) :
    (s.remove session).2.Current history := by
  unfold Store.remove
  split
  · exact fun other stored hget => hc other stored (Table.of_get?_erase hget).2
  · exact hc

end Current

/-! ## The entries after an event -/

variable {s : Store} {session other : String} {stored : Stored}

/-- A refresh is about one session. -/
theorem get?_refresh_of_ne {x : Refresh} (h : other ≠ x.session) :
    (s.apply x.event).entries.get? other = s.entries.get? other := by
  unfold Refresh.event
  split
  · simp only [apply, upsert]
    split_ifs
    · rfl
    · exact Table.get?_set_of_ne _ _ h
  · simp only [apply, touch]
    split
    · rfl
    · exact Table.get?_set_of_ne _ _ h

theorem of_get?_refresh {x : Refresh} (h : (s.apply x.event).entries.get? other = some stored) :
    other = x.session ∨ s.entries.get? other = some stored := by
  by_cases he : other = x.session
  · exact .inl he
  · exact .inr ((get?_refresh_of_ne he).symm.trans h)

theorem get?_remove (s : Store) (session other : String) :
    (s.remove session).2.entries.get? other =
      if other = session then none else s.entries.get? other := by
  unfold remove
  split
  · exact Table.get?_erase ..
  · next h =>
    split_ifs with he
    · simpa [Table.has, he] using h
    · rfl

/-- The entries that are left are those of others. -/
theorem entries_remove (s : Store) (session : String) :
    (s.remove session).2.entries = s.entries.erase session := by
  unfold remove
  split
  · rfl
  · next hnone =>
    refine (List.filter_eq_self.2 fun p hp => ?_).symm
    have other : p.1 ≠ session := by
      rintro rfl
      exact hnone (Table.has_of_mem hp)
    simpa using other

theorem latest_remove_of_ne (h : s.latest ≠ some session) :
    (s.remove session).2.latest = s.latest := by
  unfold remove
  split <;> rfl

/-! ## The freshness limit after an event -/

theorem staleAfter_remove (s : Store) (session : String) :
    (s.remove session).2.staleAfter = s.staleAfter := by
  unfold remove
  split <;> rfl

theorem staleAfter_apply (s : Store) (e : Event) : (s.apply e).staleAfter = s.staleAfter := by
  cases e with
  | upsert session snapshot now =>
    simp only [apply, upsert]
    split <;> rfl
  | touch session now =>
    simp only [apply, touch]
    split <;> rfl
  | remove session => exact staleAfter_remove s session

/-! ## The latest snapshot -/

/-- Every entry is its session's own, and the latest is one of them, unless there is none. -/
structure Pointed (s : Store) : Prop where
  nodup : s.entries.keys.Nodup
  own : ∀ {session stored}, (session, stored) ∈ s.entries → stored.session = session
  isSome_latest : s.latest.isSome ↔ s.entries ≠ []
  latest : ∀ {session}, s.latest = some session → ∃ stored, (session, stored) ∈ s.entries

theorem newest_isSome (t : Table String Stored) : (newest t).isSome ↔ t ≠ [] := by
  cases t with
  | nil => simp [newest]
  | cons p t =>
    rw [newest]
    split
    · simp
    · split <;> simp

theorem mem_of_newest {t : Table String Stored} (h : newest t = some stored) :
    ∃ k, (k, stored) ∈ t := by
  induction t generalizing stored with
  | nil => cases h
  | cons p t ih =>
    rw [newest] at h
    split at h
    · cases h
      exact ⟨p.1, List.mem_cons_self⟩
    · next other hn =>
      split at h
      · cases h
        obtain ⟨k, hk⟩ := ih hn
        exact ⟨k, List.mem_cons_of_mem _ hk⟩
      · cases h
        exact ⟨p.1, List.mem_cons_self⟩

namespace Pointed

theorem empty (staleAfter : Nanos) : (Store.empty staleAfter).Pointed :=
  ⟨.nil, nofun, by simp [Store.empty], nofun⟩

/-- The order of the entries does not matter. -/
theorem perm (h : s.Pointed) {entries : Table String Stored} (hp : s.entries.Perm entries) :
    Pointed { s with entries := entries } where
  nodup := Table.nodup_perm h.nodup hp
  own hm := h.own (hp.mem_iff.2 hm)
  isSome_latest := by
    have filled : entries = [] ↔ s.entries = [] := by
      rw [← List.length_eq_zero_iff, ← List.length_eq_zero_iff, hp.length_eq]
    exact h.isSome_latest.trans (not_congr filled).symm
  latest ho := by
    obtain ⟨stored, hm⟩ := h.latest ho
    exact ⟨stored, hp.mem_iff.1 hm⟩

/-- A session that refreshes its snapshot becomes the latest, or the latest stays. -/
theorem set (h : s.Pointed) (hown : stored.session = session) {latest : Option String}
    (hlatest : latest = some session ∨ latest = s.latest ∧ s.entries ≠ []) :
    Pointed { s with entries := s.entries.set session stored, latest := latest } where
  nodup := Table.nodup_set _ _ h.nodup
  own hm := by
    rcases Table.mem_set hm with ⟨rfl, rfl⟩ | hm
    · exact hown
    · exact h.own hm
  isSome_latest := by
    have filled : s.entries.set session stored ≠ [] := by
      intro hnil
      have here := Table.get?_set_self s.entries session stored
      rw [hnil] at here
      cases here
    refine iff_of_true ?_ filled
    rcases hlatest with rfl | ⟨rfl, hne⟩
    · rfl
    · exact h.isSome_latest.2 hne
  latest {other} ho := by
    by_cases he : other = session
    · exact ⟨stored, Table.mem_of_get? (he ▸ Table.get?_set_self ..)⟩
    · rcases hlatest with rfl | ⟨rfl, -⟩
      · cases ho
        exact absurd rfl he
      · obtain ⟨x, hx⟩ := h.latest ho
        have here := Table.get?_of_mem h.nodup hx
        exact ⟨x, Table.mem_of_get? ((Table.get?_set_of_ne _ _ he).trans here)⟩

/-- When the latest goes, one of those that are left takes its place. -/
theorem remove (h : s.Pointed) (session : String) : (s.remove session).2.Pointed := by
  cases hhas : s.entries.has session with
  | false => simpa [Store.remove, hhas] using h
  | true =>
  simp only [Store.remove, hhas, if_true]
  have own {k stored} (hm : (k, stored) ∈ s.entries.erase session) : stored.session = k :=
    h.own (Table.mem_erase.1 hm).1
  refine ⟨Table.nodup_erase _ h.nodup, own, ?_, fun {other} ho => ?_⟩ <;>
    split_ifs at * with hlatest
  · simpa using newest_isSome (s.entries.erase session)
  · have filled : s.entries ≠ [] := by
      rintro hnil
      simp [hnil, Table.has] at hhas
    obtain ⟨other, ho⟩ := Option.isSome_iff_exists.1 (h.isSome_latest.2 filled)
    obtain ⟨x, hx⟩ := h.latest ho
    have stays : (other, x) ∈ s.entries.erase session := by
      refine Table.mem_erase.2 ⟨hx, ?_⟩
      rintro rfl
      exact hlatest ho
    exact iff_of_true (h.isSome_latest.2 filled) (List.ne_nil_of_mem stays)
  · obtain ⟨x, hx, rfl⟩ := Option.map_eq_some_iff.1 ho
    obtain ⟨k, hk⟩ := mem_of_newest hx
    exact ⟨x, own hk ▸ hk⟩
  · obtain ⟨x, hx⟩ := h.latest ho
    refine ⟨x, Table.mem_erase.2 ⟨hx, ?_⟩⟩
    rintro rfl
    exact hlatest ho

theorem apply (h : s.Pointed) (e : Event) : (s.apply e).Pointed := by
  cases e with
  | upsert session snapshot now =>
    simp only [Store.apply, upsert]
    split_ifs
    · exact h
    · have hown : (⟨session, snapshot, now⟩ : Stored).session = session := rfl
      exact h.set hown (.inl rfl)
  | touch session now =>
    simp only [Store.apply, touch]
    split
    · exact h
    · next x hx =>
      have hm := Table.mem_of_get? hx
      have hown : x.session = session := h.own hm
      refine h.set ?_ (.inr ⟨rfl, List.ne_nil_of_mem hm⟩)
      exact hown
  | remove session => exact h.remove session

theorem run (h : s.Pointed) (events : List Event) : (s.run events).Pointed := by
  induction events generalizing s with
  | nil => exact h
  | cons e events ih => exact ih (h.apply e)

end Pointed

end Snapshot.Store

end EditorBridge
