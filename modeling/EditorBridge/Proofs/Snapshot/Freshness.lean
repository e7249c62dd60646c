import EditorBridge.Proofs.Snapshot.History
import EditorBridge.Time.Reading
/-!
# Freshness

A snapshot is fresh as long as its age is at most the limit, to the nanosecond.
The store caps the limit at the longest span there is; no two moments of the
calendar are so far apart (`age_bounds`), so the cap changes no answer. An entry
that nobody refreshes keeps its time and only ages.
-/

namespace EditorBridge.Snapshot.Store

variable {history events : List Event} {session : String}

/-! ## Ages -/

/-- No age within the calendar is beyond the longest span. -/
theorem age_bounds {stored : Stored} {now : Timestamp} (hstored : stored.updatedAt.InCalendar)
    (hnow : now.InCalendar) : -maxStaleAfter ≤ age stored now ∧ age stored now ≤ maxStaleAfter := by
  have first : Timestamp.Date.toDays ⟨Timestamp.yearRange.1, 1, 1⟩ = -96465292 := by decide
  have last : Timestamp.Date.toDays ⟨Timestamp.yearRange.2, 12, 31⟩ = 95026236 := by decide
  have longest : maxStaleAfter = 9223372036854775807000000 := by decide
  obtain ⟨hfirst, hlast, hnanos⟩ := hstored
  obtain ⟨hfirst', hlast', hnanos'⟩ := hnow
  simp only [age, Timestamp.toNanos, longest]
  omega

/-- So the cap on the limit makes nothing stale that is not. -/
theorem age_le_min_iff {stored : Stored} {now : Timestamp} (hstored : stored.updatedAt.InCalendar)
    (hnow : now.InCalendar) (limit : Nanos) :
    age stored now ≤ min (limit : Int) maxStaleAfter ↔ age stored now ≤ limit := by
  obtain ⟨-, hle⟩ := age_bounds hstored hnow
  rw [Int.le_min]
  exact and_iff_left hle

theorem staleAfter_store (a : Arrangement) (limit : Nanos) (history : List Event) :
    (a.store limit history).staleAfter = min (limit : Int) maxStaleAfter := by
  induction history using List.reverseRecOn with
  | nil => rfl
  | append_singleton history e ih =>
    rw [store_concat, staleAfter_apply]
    exact ih

theorem freshFor_of_get? {s : Store} {stored : Stored} (h : s.entries.get? session = some stored)
    (now : Timestamp) : s.freshFor session now = s.ifFresh stored now := by
  simp [freshFor, h]

theorem freshLatest_of_latest {s : Store} (h : s.latest = some session) (now : Timestamp) :
    s.freshLatest now = s.freshFor session now := by
  simp [freshLatest, freshFor, h]

/-- What is stale has an entry, whose age is beyond the limit. -/
theorem of_freshFor_stale {s : Store} {owner : String} {now : Timestamp} {ms : Int}
    (h : s.freshFor session now = .error (.stale owner ms)) :
    ∃ stored, s.entries.get? session = some stored ∧ stored.session = owner ∧
      s.staleAfter < age stored now ∧ (age stored now).tdiv 1000000 = ms := by
  cases hs : s.entries.get? session with
  | none => simp [freshFor, hs] at h
  | some stored =>
    rw [freshFor_of_get? hs, ifFresh] at h
    split_ifs at h with hle
    cases h
    exact ⟨stored, rfl, rfl, Int.not_le.1 hle, rfl⟩

/-! ## Entries that nobody refreshes -/

theorem recorded_quiet (history : List Event) {e : Event} (h : e.time? session = none) :
    recorded (history ++ [e]) session =
      if e = .remove session then none else recorded history session := by
  have content : e.content? session = none := by
    refine Option.eq_none_iff_forall_ne_some.2 fun snapshot hs => ?_
    have refreshed := (of_content? hs).2
    simp [h] at refreshed
  simp only [recorded, lastContent_concat, lastTime_concat, h, content]
  split_ifs <;> rfl

/-- An entry that nobody refreshes stays as it is until it is removed. -/
theorem recorded_append (h : ∀ e ∈ events, e.time? session = none) :
    recorded (history ++ events) session =
      if .remove session ∈ events then none else recorded history session := by
  induction events using List.reverseRecOn with
  | nil => simp
  | append_singleton events e ih =>
    have quiet := h e (List.mem_append_right _ List.mem_cons_self)
    rw [← List.append_assoc, recorded_quiet _ quiet,
      ih fun e he => h e (List.mem_append_left _ he)]
    by_cases he : e = .remove session <;> simp [he, eq_comm (a := Event.remove session)]

/-- Who was stale and was not refreshed is stale, or gone. -/
theorem stale_later {a : Arrangement} {limit : Nanos} {owner : String} {now later : Timestamp}
    {ms : Int} (hstale : (a.store limit history).freshFor session now = .error (.stale owner ms))
    (hlater : now.toNanos ≤ later.toNanos) (hquiet : ∀ e ∈ events, e.time? session = none) :
    if .remove session ∈ events then
      (a.store limit (history ++ events)).freshFor session later = .error .notFound
    else ∃ ms', ms ≤ ms' ∧
      (a.store limit (history ++ events)).freshFor session later = .error (.stale owner ms') := by
  obtain ⟨stored, hstored, rfl, hage, rfl⟩ := of_freshFor_stale hstale
  rw [staleAfter_store] at hage
  have hentry : (a.store limit (history ++ events)).entries.get? session =
      if .remove session ∈ events then none else some stored := by
    rw [get?_store, recorded_append hquiet, ← get?_store a limit, hstored]
  split_ifs with hremoved
  · rw [if_pos hremoved] at hentry
    simp [freshFor, hentry]
  · rw [if_neg hremoved] at hentry
    have older : age stored now ≤ age stored later := by
      simp only [age]
      omega
    refine ⟨(age stored later).tdiv 1000000, Int.tdiv_le_tdiv (by decide) older, ?_⟩
    rw [freshFor_of_get? hentry, ifFresh, if_neg]
    rw [staleAfter_store]
    omega

/-! ## The law -/

/-- Whatever was done to a store, at any limit and any two moments of the calendar: the entry of a
session is served exactly if the time since its last refresh is at most the limit, to the nanosecond
and although the store caps the limit; else the refusal tells that time in whole milliseconds. That
time is within the longest span, so nothing overflows. The latest entry is served likewise. And an
entry that is stale stays stale at all later times, unless it is refreshed or removed. -/
theorem freshness_exact (a : Arrangement) (limit : Nanos) (history : List Event) :
    let s := a.store limit history
    (∀ session stored now, s.entries.get? session = some stored →
      stored.updatedAt.InCalendar → now.InCalendar →
      let age := now.toNanos - stored.updatedAt.toNanos
      (s.freshFor session now = if age ≤ limit then .ok stored else
        .error (.stale session (age.tdiv 1000000))) ∧
      (-maxStaleAfter ≤ age ∧ age ≤ maxStaleAfter) ∧
      (s.latest = some session → s.freshLatest now = if age ≤ limit then .ok stored else
        .error (.stale session (age.tdiv 1000000)))) ∧
    ∀ session owner now ms, s.freshFor session now = .error (.stale owner ms) →
      ∀ events later, (∀ e ∈ events, e.time? session = none) → now.toNanos ≤ later.toNanos →
      let s' := a.store limit (history ++ events)
      (.remove session ∉ events →
        ∃ ms', ms ≤ ms' ∧ s'.freshFor session later = .error (.stale owner ms')) ∧
      (∀ stored, s'.freshFor session later ≠ .ok stored) ∧
      (s'.latest = some session → ∀ stored, s'.freshLatest later ≠ .ok stored) := by
  intro s
  refine ⟨fun session stored now hstored hcalendar hnow => ?_,
    fun session owner now ms hstale events later hquiet hlater => ?_⟩
  · have hown : stored.session = session :=
      session_of_recorded ((get?_store a limit history session).symm.trans hstored)
    have answer : s.freshFor session now = if Store.age stored now ≤ limit then .ok stored else
        .error (.stale session ((Store.age stored now).tdiv 1000000)) := by
      rw [freshFor_of_get? hstored, ifFresh, staleAfter_store, hown]
      exact if_congr (age_le_min_iff hcalendar hnow limit) rfl rfl
    exact ⟨answer, age_bounds hcalendar hnow,
      fun hlatest => (freshLatest_of_latest hlatest now).trans answer⟩
  · intro s'
    have outcome := stale_later (a := a) hstale hlater hquiet
    have unserved (stored : Stored) : s'.freshFor session later ≠ .ok stored := by
      intro hserved
      split_ifs at outcome
      · rw [hserved] at outcome
        cases outcome
      · obtain ⟨ms', -, hstale'⟩ := outcome
        rw [hserved] at hstale'
        cases hstale'
    refine ⟨fun hremoved => ?_, unserved, fun hlatest stored => ?_⟩
    · rwa [if_neg hremoved] at outcome
    · rw [freshLatest_of_latest hlatest]
      exact unserved stored

end EditorBridge.Snapshot.Store
