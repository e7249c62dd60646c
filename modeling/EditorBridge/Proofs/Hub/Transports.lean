import EditorBridge.Proofs.Hub.Schedule
/-!
# What happens to a transport

A bridge sends three kinds of frames: a greeting, beats, and messages. What a
small step can do to a transport is said once, by `transports_step`; what the
transports keep is then a case analysis over a few changes.
-/

namespace EditorBridge.Hub

open Moment (Step Steps)

/-- What a bridge sends over a stream. -/
inductive Parcel where
  | greeting
  | beat
  | message (m : Rpc.Message)

/-- How it goes over the stream. -/
def Parcel.frame : Parcel → String
  | greeting => Sse.comment "connected"
  | beat => Sse.comment "keep-alive"
  | message m => frameOf m

/-! ## Changes -/

/-- What a small step can do to a transport. -/
inductive Change (h : Hub) (state : Transport) : Transport → Prop
  | same : Change h state state
  | shut : Change h state (shut state)
  | queued (id : TaskId) (p : Parcel) :
      Change h state { state with line := state.line ++ [(id, p.frame)] }
  | read (n : Nat) : Change h state (state.read n).2
  | deserted : Change h state state.dropReader.2
  | abandoned (id : TaskId) : Change h state (state.abandon id)
  | settled : Change h state (state.settle h.now).1

/-- Where a transport of a bridge comes from: it is the one of a new stream, or it was there and may
have changed. -/
inductive Origin (h : Hub) (t : TransportId) (state' : Transport) : Prop
  | fresh (session : String) (loop : TaskId) : state' = h.freshStream session loop →
      Origin h t state'
  | old {state : Transport} : h.transport? t = some state → Change h state state' →
      Origin h t state'

namespace Origin

variable {h h' : Hub} {u : TransportId} {state' : Transport}

theorem same (hu : h.transport? u = some state') : Origin h u state' := .old hu .same

theorem set {t : TransportId} {state new : Transport} (ht : h.transport? t = some state)
    (hc : Change h state new) (hset : h'.transports = h.transports.set t new)
    (hu : h'.transport? u = some state') : Origin h u state' := by
  rw [transport?, hset] at hu
  rcases Table.of_get?_set hu with ⟨rfl, rfl⟩ | ⟨-, hold⟩
  · exact .old ht hc
  · exact .same hold

theorem shutAny {o : Option TransportId} (hset : h'.transports = Hub.shutAny h.transports o)
    (hu : h'.transport? u = some state') : Origin h u state' := by
  rw [transport?, hset] at hu
  obtain ⟨state, hstate, rfl | rfl⟩ := of_get?_shutAny hu
  · exact .same hstate
  · exact .old hstate .shut

theorem subscribed {session : String} {s : Session} (hs : h.sessions.get? session = some s)
    (hu : (h.startStream session).2.transport? u = some state') : Origin h u state' := by
  rw [startStream_eq hs] at hu
  rcases Table.of_get?_set hu with ⟨rfl, rfl⟩ | ⟨he, hold⟩
  · exact .fresh session h.nextTask rfl
  · obtain ⟨state, hstate, hsame⟩ := of_get?_shutAny hold
    rw [Table.get?_set_of_ne _ _ he] at hstate
    rcases hsame with rfl | rfl
    · exact .same hstate
    · exact .old hstate .shut

end Origin

/-- Every transport after a small step has such an origin. -/
theorem transports_step {m m' : Moment} {log : List Mark} (hp : m.hub.path = .streams)
    (hs : Step m log m') {u : TransportId} {state' : Transport}
    (hu : m'.hub.transport? u = some state') : Origin m.hub u state' := by
  cases hs with
  | @ended h es session =>
    cases hx : h.sessions.get? session with
    | none =>
      rw [endSession_of_none hx] at hu
      exact .same hu
    | some s =>
      rw [endSession_eq hx] at hu
      exact .shutAny rfl hu
  | subscribed hx => exact .subscribed hx hu
  | @loopEnded h es id t =>
    rw [endLoop_eq] at hu
    exact .shutAny (o := some t) rfl hu
  | @broken h es id t =>
    rw [endLoop_eq] at hu
    exact .shutAny (o := some t) rfl hu
  | @called h es reply o t state hbound ht =>
    refine .set ht ?_ rfl hu
    rw [commandFrame_eq]
    exact .queued _ (.message _)
  | beat hid ht => exact .set ht (.queued _ .beat) rfl hu
  | read n ht => exact .set ht (.read n) rfl hu
  | deserted ht => exact .set ht .deserted rfl hu
  | moved ht => exact .set ht .settled rfl hu
  | abandoned ht hc =>
    rw [abandon_eq hp ht hc] at hu
    simp only [transport?, Table.get?_mapValues] at hu
    obtain ⟨state, hstate, rfl⟩ := Option.map_eq_some_iff.1 hu
    exact .old hstate (.abandoned _)
  | _ => exact .same hu

/-! ## Turns run out -/

/-- No turn on any transport lasts longer than a write may wait. -/
def Timed (h : Hub) : Prop := ∀ t state, h.transport? t = some state → state.Timed h.now

theorem Change.timed {h : Hub} {state state' : Transport} (hs : state.Timed h.now)
    (hc : Change h state state') : state'.Timed h.now := by
  cases hc with
  | same | shut | queued | read | deserted => exact hs
  | abandoned id => exact fun turn hturn => hs turn (Option.filter_eq_some_iff.1 hturn).1
  | settled => exact Transport.settle_timed _ hs

theorem timed_step {m m' : Moment} {log : List Mark} (hp : m.hub.path = .streams)
    (h : m.hub.Timed) (hs : Step m log m') : m'.hub.Timed := by
  intro t state' ht turn hturn
  have before : state'.Timed m.hub.now := by
    cases transports_step hp hs ht with
    | fresh session loop he => exact fun turn hturn => by cases he ▸ hturn
    | old hold hc => exact hc.timed (h t _ hold)
  exact Nat.le_trans (before turn hturn) (Nat.add_le_add_right (onward_step hp hs).now _)

theorem timed_exec (config : Config) (ids : Nat → String) (actions : List Action) :
    ((Hub.new config ids).exec actions).Timed := by
  refine schedule_induction (P := fun m => m.hub.Timed) rfl rfl (fun t state ht => ?_)
    (fun m m' log hp hm hs => timed_step hp hm hs) actions
  cases ht

end EditorBridge.Hub
