import EditorBridge.Hub.Basic
import EditorBridge.Proofs.Table
import Mathlib.Tactic.SplitIfs
/-!
# How sessions end

A session that ends leaves the table, its transport is closed and its snapshot
goes. `endSession_eq` says it as one equation. A sweep ends the idle sessions
and touches nothing else; those that are left have not been idle for long.
-/

namespace EditorBridge.Hub

/-! ## What closing touches -/

/-- A transport that has been closed. -/
def shut (state : Transport) : Transport := { state with closed := true }

theorem closeTransport_eq (h : Hub) (t : TransportId) :
    (h.closeTransport t).2 = { h with transports := h.transports.modify t shut } := by
  unfold closeTransport
  cases ht : h.transport? t with
  | none =>
    have ht : h.transports.get? t = none := ht
    simp [Table.modify, ht]
  | some state =>
    have ht : h.transports.get? t = some state := ht
    simp [Table.modify, ht, putTransport, Transport.close, shut]

/-- Transports of which one, if any, has been closed. -/
def shutAny (transports : Table TransportId Transport) : Option TransportId →
    Table TransportId Transport
  | some t => transports.modify t shut
  | none => transports

@[simp] theorem shutAny_none (transports : Table TransportId Transport) :
    shutAny transports none = transports := rfl

theorem closeIfAny_eq (h : Hub) (t : Option TransportId) :
    h.closeIfAny t = { h with transports := shutAny h.transports t } := by
  cases t with
  | none => rfl
  | some t => exact closeTransport_eq h t

theorem get?_shutAny (transports : Table TransportId Transport) (o : Option TransportId)
    (t : TransportId) : (shutAny transports o).get? t =
      if o = some t then (transports.get? t).map shut else transports.get? t := by
  cases o with
  | none => rfl
  | some u =>
    simp only [shutAny, Table.get?_modify, Option.some.injEq, eq_comm]
    split
    · next h => rw [h]
    · rfl

/-- Where a transport may have been shut, each was there before, open or not. -/
theorem of_get?_shutAny {transports : Table TransportId Transport} {o : Option TransportId}
    {t : TransportId} {state' : Transport} (h : (shutAny transports o).get? t = some state') :
    ∃ state, transports.get? t = some state ∧ (state' = state ∨ state' = shut state) := by
  rw [get?_shutAny] at h
  split at h
  · obtain ⟨state, hstate, rfl⟩ := Option.map_eq_some_iff.1 h
    exact ⟨state, hstate, .inr rfl⟩
  · exact ⟨state', h, .inl rfl⟩

/-! ## The end of a session -/

theorem endSession_eq {h : Hub} {session : String} {s : Session}
    (hs : h.sessions.get? session = some s) : (h.endSession session).2 = { h with
      sessions := h.sessions.erase session
      transports := shutAny h.transports s.transport
      snapshots := (h.snapshots.remove session).2 } := by
  simp [endSession, hs, closeIfAny_eq]

theorem endSession_of_none {h : Hub} {session : String} (hs : h.sessions.get? session = none) :
    (h.endSession session).2 = h := by
  simp [endSession, hs]

@[simp] theorem tasks_endSession (h : Hub) (session : String) :
    (h.endSession session).2.tasks = h.tasks := by
  cases hs : h.sessions.get? session with
  | none => rw [endSession_of_none hs]
  | some s => rw [endSession_eq hs]

theorem now_endSession (h : Hub) (session : String) : (h.endSession session).2.now = h.now := by
  cases hs : h.sessions.get? session with
  | none => rw [endSession_of_none hs]
  | some s => rw [endSession_eq hs]

theorem get?_endSession (h : Hub) (session s : String) :
    (h.endSession session).2.sessions.get? s =
      if s = session then none else h.sessions.get? s := by
  cases hx : h.sessions.get? session with
  | none =>
    rw [endSession_of_none hx]
    split_ifs with he
    · exact he ▸ hx
    · rfl
  | some x =>
    rw [endSession_eq hx]
    exact Table.get?_erase ..

/-! ## Sweeps -/

theorem tasks_sweep (h : Hub) (timeout : Nanos) : (h.sweep timeout).2.tasks = h.tasks := by
  unfold sweep
  generalize h.sessions.idle timeout h.now = idle
  induction idle generalizing h with
  | nil => rfl
  | cons session idle ih => exact (ih (h.endSession session).2).trans (tasks_endSession h session)

theorem now_sweep (h : Hub) (timeout : Nanos) : (h.sweep timeout).2.now = h.now := by
  unfold sweep
  generalize h.sessions.idle timeout h.now = idle
  induction idle generalizing h with
  | nil => rfl
  | cons session idle ih => exact (ih (h.endSession session).2).trans (now_endSession h session)

/-- A sweep ends the idle sessions and no others. -/
theorem get?_sweep (h : Hub) (timeout : Nanos) (s : String) :
    (h.sweep timeout).2.sessions.get? s =
      if s ∈ h.sessions.idle timeout h.now then none else h.sessions.get? s := by
  unfold sweep
  dsimp only
  generalize h.sessions.idle timeout h.now = idle
  induction idle generalizing h with
  | nil => rfl
  | cons session idle ih =>
    rw [List.foldl_cons, ih, get?_endSession]
    by_cases he : s = session <;> simp [he]

theorem live_of_mem_idle {sessions : Sessions} {timeout now : Nanos} {s : String}
    (h : s ∈ sessions.idle timeout now) : ∃ x, sessions.get? s = some x := by
  obtain ⟨⟨s', x⟩, hm, rfl⟩ := List.mem_map.1 h
  have here := (List.mem_filter.1 hm).1
  exact Option.isSome_iff_exists.1 (Table.has_of_mem here)

/-- Who is left after a sweep has not been idle for longer than the span. -/
theorem seen_of_sweep {h : Hub} {timeout : Nanos} {s : String} {x : Session}
    (hx : (h.sweep timeout).2.sessions.get? s = some x) : h.now ≤ x.lastSeen + timeout := by
  rw [get?_sweep] at hx
  split_ifs at hx with hidle
  refine Nat.le_of_not_lt fun hlong => hidle ?_
  refine List.mem_map.2 ⟨(s, x), List.mem_filter.2 ⟨Table.mem_of_get? hx, ?_⟩, rfl⟩
  simpa using Nat.lt_sub_iff_add_lt'.2 hlong

end EditorBridge.Hub
