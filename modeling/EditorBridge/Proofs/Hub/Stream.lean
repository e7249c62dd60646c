import EditorBridge.Proofs.Hub.Transports
import EditorBridge.Proofs.Sse
import Mathlib.Data.Set.List
/-!
# What a client reads from its stream

A reader of parcels gets the messages among them, each as one event with its
text, and nothing else; and no transport ever carries a frame that is no parcel.
-/

namespace EditorBridge.Hub

/-- The event that a reader should get. -/
def Parcel.event? : Parcel → Option Sse.Event
  | greeting | beat => none
  | message m => some ⟨Sse.messageEvent, m.wire⟩

/-- The events that a reader gets from the bytes of frames in a row, if the bytes are text. -/
def readBack (frames : List String) : Option (List Sse.Event) :=
  (Text.decode? (frames.flatMap Text.encode)).map Sse.events

/-! ## Reading -/

/-- The bytes of frames in a row are text. -/
theorem decode?_frames (frames : List String) : Text.decode? (frames.flatMap Text.encode) =
    some (String.ofList (frames.flatMap String.toList)) := by
  rw [← Text.decode?_encode, Text.encode, String.toList_ofList]
  exact congrArg Text.decode? List.flatMap_assoc.symm

theorem controlFree_wire (m : Rpc.Message) : ControlFree m.wire.toList := by
  simp [Rpc.Message.wire, Json.compact, Json.controlFree_chars]

/-- One parcel gives its event, whatever follows. -/
theorem Parcel.eventsOf_frame (p : Parcel) (rest : List Char) :
    Sse.eventsOf (p.frame.toList ++ rest) = p.event?.toList ++ Sse.eventsOf rest := by
  cases p with
  | greeting =>
    simp only [frame, Sse.comment, String.toList_ofList]
    exact Sse.eventsOf_comment (by simp) rest
  | beat =>
    simp only [frame, Sse.comment, String.toList_ofList]
    exact Sse.eventsOf_comment (by simp) rest
  | message m =>
    simp only [frame, frameOf, Sse.event, String.toList_ofList]
    have htype : ControlFree Sse.messageEvent.toList := by simp [Sse.messageEvent]
    have hread := Sse.eventsOf_event htype (by simp [Sse.messageEvent]) (controlFree_wire m) rest
    simpa [event?] using hread

theorem eventsOf_frames (parcels : List Parcel) :
    Sse.eventsOf ((parcels.map Parcel.frame).flatMap String.toList) =
      parcels.filterMap Parcel.event? := by
  induction parcels with
  | nil => rfl
  | cons p parcels ih =>
    rw [List.map_cons, List.flatMap_cons, p.eventsOf_frame, ih]
    cases h : p.event? <;> simp [h]

/-! ## Only parcels -/

/-- Every frame that waits for a transport or was taken by it is a parcel. -/
def Carries (state : Transport) : Prop :=
  ∀ entry ∈ state.waiting ++ state.sent, ∃ p : Parcel, p.frame = entry.2

theorem Carries.sub {state state' : Transport} (h : Carries state)
    (hsub : ∀ entry ∈ state'.waiting ++ state'.sent, entry ∈ state.waiting ++ state.sent) :
    Carries state' := fun entry he => h entry (hsub entry he)

theorem Carries.change {h : Hub} {state state' : Transport} (hs : Carries state)
    (hc : Change h state state') : Carries state' := by
  cases hc with
  | same | shut | read | deserted => exact hs
  | queued id p =>
    intro entry he
    have he : entry ∈ state.waiting ++ state.sent ∨ entry = (id, p.frame) := by
      simp only [Transport.waiting, List.mem_append, List.mem_singleton] at he ⊢
      tauto
    rcases he with he | rfl
    · exact hs entry he
    · exact ⟨p, rfl⟩
  | abandoned id =>
    refine hs.sub fun entry he => ?_
    rw [Transport.waiting_abandon] at he
    exact (List.mem_append.1 he).elim
      (fun hw => List.mem_append_left _ (List.mem_filter.1 hw).1) (List.mem_append_right _)
  | settled =>
    obtain ⟨done, -, hd⟩ := Transport.settle_served h.now state
    refine hs.sub fun entry he => ?_
    rw [hd.waiting]
    rw [hd.sent] at he
    have taken : ∀ entry ∈ done.filterMap Transport.Ended.taken?,
        entry ∈ done.map Transport.Ended.entry := by
      intro entry he
      obtain ⟨e, hm, ht⟩ := List.mem_filterMap.1 he
      refine List.mem_map.2 ⟨e, hm, ?_⟩
      unfold Transport.Ended.taken? at ht
      split at ht
      · exact Option.some.inj ht
      · cases ht
    simp only [List.mem_append] at he ⊢
    rcases he with he | he | he
    · exact .inl (.inr he)
    · exact .inr he
    · exact .inl (.inl (taken entry he))

theorem carries_exec (config : Config) (ids : Nat → String) (actions : List Action)
    {t : TransportId} {state : Transport}
    (ht : ((Hub.new config ids).exec actions).transport? t = some state) : Carries state := by
  refine schedule_induction
    (P := fun m => ∀ t state, m.hub.transport? t = some state → Carries state) rfl rfl
    (fun t state ht => by cases ht) (fun m m' log hp hm hs t state ht => ?_) actions t state ht
  cases transports_step hp hs ht with
  | fresh session loop he =>
    subst he
    intro entry hentry
    obtain rfl : entry = (loop, Sse.comment "connected") := by
      simpa [freshStream, Transport.opened, Transport.put, Transport.waiting] using hentry
    exact ⟨.greeting, rfl⟩
  | old hold hc => exact (hm t _ hold).change hc

/-- The frames that a transport has taken. -/
def carried (h : Hub) (t : TransportId) : List String :=
  ((h.transport? t).map fun state => state.sent.map (·.2)).getD []

/-- A reader of parcels gets one event for each message, with its text, and none else; and whatever
happens to a bridge, its transports carry nothing but parcels. -/
theorem stream_read_back :
    (∀ parcels : List Parcel,
      readBack (parcels.map Parcel.frame) = some (parcels.filterMap Parcel.event?)) ∧
    ∀ (config : Config) (ids : Nat → String) (actions : List Action) (t : TransportId),
      ∃ parcels : List Parcel,
        ((Hub.new config ids).exec actions).carried t = parcels.map Parcel.frame := by
  refine ⟨fun parcels => ?_, fun config ids actions t => ?_⟩
  · rw [readBack, decode?_frames, Option.map_some, ← eventsOf_frames, Sse.events,
      String.toList_ofList]
    rfl
  · unfold carried
    cases ht : ((Hub.new config ids).exec actions).transport? t with
    | none => exact ⟨[], rfl⟩
    | some state =>
      have hall := carries_exec config ids actions ht
      have hparcels : state.sent.map (·.2) ∈ Set.range (List.map Parcel.frame) := by
        rw [Set.range_list_map]
        intro frame hframe
        obtain ⟨entry, hentry, rfl⟩ := List.mem_map.1 hframe
        exact hall entry (List.mem_append_right _ hentry)
      obtain ⟨parcels, hp⟩ := hparcels
      exact ⟨parcels, hp.symm⟩

end EditorBridge.Hub
