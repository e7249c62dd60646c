import EditorBridge.Proofs.Snapshot
import EditorBridge.Snapshot.History
import Mathlib.Data.List.Nodup
/-!
# Elections

When the latest snapshot is evicted, a newest of those that are left takes its
place. However many sessions are evicted one after the other, and although each
election may choose one that is evicted next, the latest is in the end a newest
of those that stay (`led_evict`), or is still the one that it was.
-/

namespace EditorBridge.Snapshot.Store

variable {s : Store} {session : String}

/-! ## One election -/

theorem newest_eq_none_iff {t : Table String Stored} : newest t = none ↔ t = [] := by
  rw [← Option.not_isSome_iff_eq_none, newest_isSome, not_not]

/-- The newest of some entries was refreshed when none was refreshed later. -/
theorem newest_max {t : Table String Stored} {stored : Stored} (h : newest t = some stored) :
    ∀ p ∈ t, p.2.updatedAt ≤ stored.updatedAt := by
  induction t generalizing stored with
  | nil => exact fun _ hp => nomatch hp
  | cons q t ih =>
    rw [newest] at h
    intro p hp
    split at h
    · next hnone =>
      cases h
      obtain rfl := newest_eq_none_iff.1 hnone
      obtain rfl := List.mem_singleton.1 hp
      exact Timestamp.le_refl _
    · next other hother =>
      rcases List.mem_cons.1 hp with rfl | hp
      · split at h
        · next hle =>
          cases h
          exact hle
        · cases h
          exact Timestamp.le_refl _
      · have below := ih hother p hp
        split at h
        · cases h
          exact below
        · next hlt =>
          cases h
          exact Timestamp.le_trans below ((Timestamp.le_total _ _).resolve_left hlt)

/-- When the latest goes, a newest one of those that are left takes its place. -/
theorem newest_of_latest_remove (h : s.Pointed) {previous : String}
    (hp : s.latest = some previous) (hs : (s.remove previous).2.latest = some session) :
    (s.remove previous).2.Newest session := by
  obtain ⟨stored, hm⟩ := h.latest hp
  have elected : (s.remove previous).2.latest =
      (newest (s.entries.erase previous)).map (·.session) := by
    simp [remove, Table.has_of_mem hm, hp]
  obtain ⟨stored, hn, rfl⟩ := Option.map_eq_some_iff.1 (elected.symm.trans hs)
  obtain ⟨k, hk⟩ := mem_of_newest hn
  have own : stored.session = k := h.own (Table.mem_erase.1 hk).1
  rw [Newest, entries_remove]
  exact ⟨stored, own ▸ hk, fun other stored' hm' => newest_max hn (other, stored') hm'⟩

theorem Newest.remove (h : s.Newest session) {removed : String} (hne : session ≠ removed) :
    (s.remove removed).2.Newest session := by
  obtain ⟨stored, hm, hmax⟩ := h
  rw [Newest, entries_remove]
  exact ⟨stored, Table.mem_erase.2 ⟨hm, hne⟩,
    fun other stored' hm' => hmax other stored' (Table.mem_erase.1 hm').1⟩

/-- Of entries that were refreshed at different times only one is the newest. -/
theorem Newest.unique {s' : Store} {session' : String} (h : s.Newest session)
    (h' : s'.Newest session') (hp : s.entries.Perm s'.entries)
    (hdistinct : (s.entries.map (·.2.updatedAt)).Nodup) : session = session' := by
  obtain ⟨stored, hm, hmax⟩ := h
  obtain ⟨stored', hm', hmax'⟩ := h'
  have same : stored.updatedAt = stored'.updatedAt :=
    Timestamp.le_antisymm (hmax' _ _ (hp.mem_iff.1 hm)) (hmax _ _ (hp.mem_iff.2 hm'))
  exact congrArg Prod.fst (List.inj_on_of_nodup_map hdistinct hm (hp.mem_iff.2 hm') same)

/-! ## One after the other -/

/-- The store without some sessions, which are evicted one after the other. -/
def evict (s : Store) (sessions : List String) : Store :=
  sessions.foldl (fun s session => (s.remove session).2) s

theorem evict_cons (s : Store) (session : String) (sessions : List String) :
    s.evict (session :: sessions) = (s.remove session).2.evict sessions := rfl

theorem entries_evict (s : Store) (sessions : List String) :
    (s.evict sessions).entries = s.entries.filter (·.1 ∉ sessions) := by
  induction sessions generalizing s with
  | nil => exact (List.filter_eq_self.2 fun p _ => by simp).symm
  | cons session sessions ih =>
    rw [evict_cons, ih, entries_remove, Table.erase, List.filter_filter]
    refine List.filter_congr fun p _ => ?_
    simp [Bool.and_comm]

theorem staleAfter_evict (s : Store) (sessions : List String) :
    (s.evict sessions).staleAfter = s.staleAfter := by
  induction sessions generalizing s with
  | nil => rfl
  | cons session sessions ih => exact (ih _).trans (staleAfter_remove s session)

theorem Pointed.evict (h : s.Pointed) (sessions : List String) : (s.evict sessions).Pointed := by
  induction sessions generalizing s with
  | nil => exact h
  | cons session sessions ih => exact ih (h.remove session)

/-- The pointer stays where it is while others are evicted. -/
theorem latest_evict {sessions : List String}
    (h : ∀ session, s.latest = some session → session ∉ sessions) :
    (s.evict sessions).latest = s.latest := by
  induction sessions generalizing s with
  | nil => rfl
  | cons session sessions ih =>
    have other : s.latest ≠ some session := fun hl => h session hl List.mem_cons_self
    have kept := latest_remove_of_ne other
    rw [evict_cons, ih, kept]
    rw [kept]
    exact fun latest hl hm => h latest hl (List.mem_cons_of_mem _ hm)

/-- The latest is a newest of all. -/
def Led (s : Store) : Prop := ∀ session, s.latest = some session → s.Newest session

theorem Led.remove (h : s.Led) (hp : s.Pointed) (removed : String) : (s.remove removed).2.Led := by
  intro session hs
  by_cases hl : s.latest = some removed
  · exact newest_of_latest_remove hp hl hs
  · rw [latest_remove_of_ne hl] at hs
    refine (h session hs).remove ?_
    rintro rfl
    exact hl hs

theorem Led.evict (h : s.Led) (hp : s.Pointed) (sessions : List String) :
    (s.evict sessions).Led := by
  induction sessions generalizing s with
  | nil => exact h
  | cons session sessions ih => exact ih (h.remove hp session) (hp.remove session)

/-- Once the latest has been evicted the pointer follows the newest. -/
theorem led_evict (hp : s.Pointed) {previous : String} (hl : s.latest = some previous)
    {sessions : List String} (hm : previous ∈ sessions) : (s.evict sessions).Led := by
  induction sessions generalizing s with
  | nil => cases hm
  | cons session sessions ih =>
    by_cases he : session = previous
    · subst he
      have led : (s.remove session).2.Led := fun _ hs => newest_of_latest_remove hp hl hs
      exact led.evict (hp.remove session) sessions
    · have other : s.latest ≠ some session := fun hs => he (Option.some.inj (hs.symm.trans hl))
      exact ih (hp.remove session) ((latest_remove_of_ne other).trans hl)
        ((List.mem_cons.1 hm).resolve_left (Ne.symm he))

/-! ## Tables in any order -/

theorem Pointed.latest_eq_none_iff (hp : s.Pointed) : s.latest = none ↔ s.entries = [] := by
  rw [← Option.not_isSome_iff_eq_none, hp.isSome_latest, not_not]

theorem entries_evict_perm {s' : Store} (he : s.entries.Perm s'.entries)
    {sessions sessions' : List String} (hs : sessions.Perm sessions') :
    (s.evict sessions).entries.Perm (s'.evict sessions').entries := by
  have same : s'.entries.filter (·.1 ∉ sessions) = s'.entries.filter (·.1 ∉ sessions') :=
    List.filter_congr fun p _ => by simp [hs.mem_iff]
  rw [entries_evict, entries_evict, ← same]
  exact he.filter _

/-- Where all entries were refreshed at different times, neither the order of the table nor that of
the evictions has a say in who is the latest. -/
theorem latest_evict_perm {s' : Store} (hp : s.Pointed) (hp' : s'.Pointed)
    (hl : s'.latest = s.latest) (he : s.entries.Perm s'.entries)
    (hdistinct : (s.entries.map (·.2.updatedAt)).Nodup) {sessions sessions' : List String}
    (hs : sessions.Perm sessions') : (s'.evict sessions').latest = (s.evict sessions).latest := by
  by_cases hm : ∃ previous, s.latest = some previous ∧ previous ∈ sessions
  · obtain ⟨previous, hprevious, hm⟩ := hm
    have led := led_evict hp hprevious hm
    have led' := led_evict hp' (hl.trans hprevious) (hs.mem_iff.1 hm)
    have left := entries_evict_perm he hs
    have distinct : ((s.evict sessions).entries.map (·.2.updatedAt)).Nodup := by
      rw [entries_evict]
      exact (List.Sublist.map _ List.filter_sublist).nodup hdistinct
    cases hnew : (s.evict sessions).latest with
    | none =>
      rw [(hp.evict sessions).latest_eq_none_iff] at hnew
      rw [(hp'.evict sessions').latest_eq_none_iff]
      exact List.nil_perm.1 (hnew ▸ left)
    | some session =>
      cases hnew' : (s'.evict sessions').latest with
      | none =>
        rw [(hp'.evict sessions').latest_eq_none_iff] at hnew'
        have none := (hp.evict sessions).latest_eq_none_iff.2 (List.perm_nil.1 (hnew' ▸ left))
        cases hnew.symm.trans none
      | some session' =>
        exact congrArg some ((led session hnew).unique (led' session' hnew') left distinct).symm
  · have stays : ∀ session, s.latest = some session → session ∉ sessions :=
      fun session hsession hmem => hm ⟨session, hsession, hmem⟩
    rw [latest_evict stays, ← hl]
    exact latest_evict fun session hsession hmem =>
      stays session (hl.symm.trans hsession) (hs.mem_iff.2 hmem)

theorem evict_perm {s' : Store} (hp : s.Pointed) (hp' : s'.Pointed)
    (hlimit : s'.staleAfter = s.staleAfter) (hl : s'.latest = s.latest)
    (he : s.entries.Perm s'.entries) (hdistinct : (s.entries.map (·.2.updatedAt)).Nodup)
    {sessions sessions' : List String} (hs : sessions.Perm sessions') : s'.evict sessions' =
      { s.evict sessions with entries := (s'.evict sessions').entries } := by
  have limit : (s'.evict sessions').staleAfter = (s.evict sessions).staleAfter := by
    rw [staleAfter_evict, staleAfter_evict, hlimit]
  have latest := latest_evict_perm hp hp' hl he hdistinct hs
  dsimp only
  rw [← limit, ← latest]

end EditorBridge.Snapshot.Store
