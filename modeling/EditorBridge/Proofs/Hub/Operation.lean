import EditorBridge.Hub.Operation
import EditorBridge.Proofs.Hub.Settling
/-!
# Runs with operations on sessions

An operation works on sessions and transports and leaves tasks alone, and what
it tells tasks then are small steps. So what both keep is kept by every run: no
session is there twice, and time does not go back.
-/

namespace EditorBridge.Hub

open Moment (Step Steps)
open Sessions (Seen)

/-! ## What an operation is -/

/-- Sessions and what hangs on them have been worked on: the setting and the time are the same, the
tasks that were there wait on, and nothing has got out of order. -/
structure Attended (h h' : Hub) : Prop where
  setting : SameSetting h h'
  now : h'.now = h.now
  nextTask : h.nextTask ≤ h'.nextTask
  tasks : ∀ id < h.nextTask, h'.tasks.get? id = h.tasks.get? id
  seen : Seen h.now h.sessions h'.sessions
  orderly : Orderly h → Orderly h'

namespace Attended

/-- Tasks and their numbers stay as they are. -/
theorem same {h h' : Hub} (hsetting : SameSetting h h') (hnow : h'.now = h.now)
    (hnext : h'.nextTask = h.nextTask) (htasks : h'.tasks = h.tasks)
    (hseen : Seen h.now h.sessions h'.sessions)
    (htransports : Orderly h → h'.transports.keys.Nodup) : Attended h h' where
  setting := hsetting
  now := hnow
  nextTask := Nat.le_of_eq hnext.symm
  tasks _ _ := by rw [htasks]
  seen := hseen
  orderly ho := ho.same hsetting.2.2 htasks (htransports ho)

theorem refl (h : Hub) : Attended h h :=
  .same ⟨rfl, rfl, rfl⟩ rfl rfl rfl (.refl ..) (·.transports)

theorem trans {h h' h'' : Hub} (ha : Attended h h') (ha' : Attended h' h'') : Attended h h'' where
  setting := ha.setting.trans ha'.setting
  now := ha'.now.trans ha.now
  nextTask := Nat.le_trans ha.nextTask ha'.nextTask
  tasks id hid :=
    (ha'.tasks id (Nat.lt_of_lt_of_le hid ha.nextTask)).trans (ha.tasks id hid)
  seen := ha.seen.trans (ha.now ▸ ha'.seen)
  orderly ho := ha'.orderly (ha.orderly ho)

theorem sessions {h : Hub} {sessions : Sessions} (hseen : Seen h.now h.sessions sessions) :
    Attended h { h with sessions := sessions } :=
  .same ⟨rfl, rfl, rfl⟩ rfl rfl rfl hseen (·.transports)

theorem putTransport (h : Hub) (t : TransportId) (state : Transport) :
    Attended h (h.putTransport t state) :=
  .same ⟨rfl, rfl, rfl⟩ rfl rfl rfl (.refl ..) (·.putTransport t state)

theorem openTransport (h : Hub) (session : String) (buffer : Nat) (writeTimeout : Nanos) :
    Attended h (h.openTransport session buffer writeTimeout).2 :=
  .same ⟨rfl, rfl, rfl⟩ rfl rfl rfl (.refl ..) (·.putTransport ..)

theorem closeIfAny (h : Hub) (o : Option TransportId) : Attended h (h.closeIfAny o) := by
  rw [closeIfAny_eq]
  exact .same ⟨rfl, rfl, rfl⟩ rfl rfl rfl (.refl ..) (·.shutAny o)

theorem bind (h : Hub) (session : String) (t : TransportId) :
    Attended h (h.bindTransport session t).2 := by
  unfold bindTransport
  split
  · exact .refl h
  · next s hs =>
    dsimp only
    split_ifs
    · exact .sessions (.set _ _ rfl)
    · exact (closeIfAny h s.transport).trans (.sessions (.set _ _ rfl))

theorem spawn (h : Hub) (task : Task) (hticks : Ticks h.config.keepaliveInterval task) :
    Attended h (h.spawn task).2 where
  setting := ⟨rfl, rfl, rfl⟩
  now := rfl
  nextTask := Nat.le_succ _
  tasks _ hid := Table.get?_set_of_ne _ _ (Nat.ne_of_lt hid)
  seen := .refl ..
  orderly ho := ho.set rfl rfl hticks ho.transports

end Attended

/-- A write gets to a transport, and then tasks are told how theirs ended. -/
theorem writeTo_told (h : Hub) (id : TaskId) (t : TransportId) (frame : String) :
    ∃ h₁ es, Attended h h₁ ∧ Steps ⟨h₁, es⟩ [] ⟨h.writeTo id t frame, []⟩ := by
  unfold writeTo
  split
  · next state ht =>
    have told := deliverAll_steps (h.putTransport t (state.write h.now id frame).1)
      (state.write h.now id frame).2 []
    rw [List.append_nil] at told
    exact ⟨_, _, .putTransport .., told⟩
  · exact ⟨h, _, .refl h, (deliver_step h id (.error .closed) []).one⟩

theorem pushOver_told (h : Hub) (id : TaskId) (session : String) (m : Rpc.Message) :
    ∃ h₁ es, Attended h h₁ ∧ Steps ⟨h₁, es⟩ [] ⟨h.pushOver id session m, []⟩ := by
  unfold pushOver
  split
  · exact writeTo_told ..
  · exact ⟨h, _, .refl h, (deliver_step h id (.error .closed) []).one⟩

/-- An operation works on sessions, and small steps follow. -/
theorem operate_steps (h : Hub) (o : Operation) :
    ∃ h₁ es, Attended h h₁ ∧ Steps ⟨h₁, es⟩ [] ⟨h.operate o, []⟩ := by
  have done {h' : Hub} (ha : Attended h h') :
      ∃ h₁ es, Attended h h₁ ∧ Steps ⟨h₁, es⟩ [] ⟨h', []⟩ := ⟨h', [], ha, .refl⟩
  cases o with
  | create session => exact done (.sessions (.create ..))
  | touch session => exact done (.sessions (.modify _ _ fun _ => .inl rfl))
  | setVersion session version => exact done (.sessions (.modify _ _ fun _ => .inr rfl))
  | negotiate session requested =>
    have looked : Sessions.Looked h.sessionId h.now h.sessions h.sessionsNamed
        (h.sessions.negotiate session requested).2 h.sessionsNamed := .negotiate rfl ..
    exact done (.sessions looked.seen)
  | confirm session => exact done (.sessions (.modify _ _ fun _ => .inr rfl))
  | openTransport session buffer writeTimeout => exact done (.openTransport ..)
  | bind session t => exact done (.bind ..)
  | unbind session t => exact done (.sessions (.clearTransport ..))
  | push session m =>
    obtain ⟨h₁, es, ha, hs⟩ := pushOver_told (h.spawn .push).2 h.nextTask session m
    exact ⟨h₁, es, (Attended.spawn h .push trivial).trans ha, hs⟩
  | remove session => exact ⟨h, [], .refl h, (Step.ended session).one⟩
  | sweep timeout => exact ⟨h, [], .refl h, sweep_steps h timeout⟩

/-! ## Runs -/

/-- A bridge whose messages go over streams, with its own tools and in good order. -/
structure Sound (h : Hub) : Prop where
  path : h.path = .streams
  tools : h.tools = .standard
  orderly : Orderly h

/-- What operations and small steps keep, deeds keep. -/
theorem perform_induction {P : Hub → Prop} (attended : ∀ h h', P h → Attended h h' → P h')
    (step : ∀ m m' log, m.hub.path = .streams → P m.hub → Step m log m' → P m'.hub)
    {h : Hub} (hs : h.Sound) (start : P h) (deed : Deed) :
    (h.perform deed).Sound ∧ P (h.perform deed) := by
  have steps {m m' : Moment} {log : List Mark} (hs : m.hub.Sound) (start : P m.hub)
      (hsteps : Steps m log m') : m'.hub.Sound ∧ P m'.hub := by
    obtain ⟨hpath, htools, -⟩ := (onward_steps hs.path hsteps).setting
    obtain ⟨ho, hp⟩ := steps_induction (P := fun _ m => Orderly m.hub ∧ P m.hub)
      (fun m m' _ log hp h hs => ⟨orderly_step hp h.1 hs, step m m' log hp h.2 hs⟩) [] hsteps
      hs.path ⟨hs.orderly, start⟩
    exact ⟨⟨hpath.trans hs.path, htools.trans hs.tools, ho⟩, hp⟩
  cases deed with
  | action a =>
    obtain ⟨log, hsteps, -⟩ := act_steps hs.path hs.tools a
    exact steps hs start hsteps
  | operation o =>
    obtain ⟨h₁, es, ha, hsteps⟩ := operate_steps h o
    obtain ⟨hpath, htools, -⟩ := id ha.setting
    exact steps (m := ⟨h₁, es⟩)
      ⟨hpath.trans hs.path, htools.trans hs.tools, ha.orderly hs.orderly⟩
      (attended h h₁ start ha) hsteps

theorem performAll_induction {P : Hub → Prop} (attended : ∀ h h', P h → Attended h h' → P h')
    (step : ∀ m m' log, m.hub.path = .streams → P m.hub → Step m log m' → P m'.hub)
    {h : Hub} (hs : h.Sound) (start : P h) (deeds : List Deed) :
    (h.performAll deeds).Sound ∧ P (h.performAll deeds) := by
  induction deeds generalizing h with
  | nil => exact ⟨hs, start⟩
  | cons deed deeds ih =>
    obtain ⟨hs', start'⟩ := perform_induction attended step hs start deed
    exact ih hs' start'

theorem sound_new (config : Config) (ids : Nat → String) : (Hub.new config ids).Sound :=
  ⟨rfl, rfl, orderly_new config ids⟩

theorem sound_performAll {h : Hub} (hs : h.Sound) (deeds : List Deed) : (h.performAll deeds).Sound :=
  (performAll_induction (P := fun _ => True) (fun _ _ _ _ => trivial) (fun _ _ _ _ _ _ => trivial)
    hs trivial deeds).1

/-- Time does not go back. -/
theorem now_perform {h : Hub} (hs : h.Sound) (deed : Deed) : h.now ≤ (h.perform deed).now :=
  (perform_induction (P := fun h' => h.now ≤ h'.now) (fun _ _ hle ha => ha.now ▸ hle)
    (fun _ _ _ hp hle hstep => Nat.le_trans hle (onward_step hp hstep).now) hs (Nat.le_refl _)
    deed).2

theorem performAll_append (h : Hub) (deeds deeds' : List Deed) :
    h.performAll (deeds ++ deeds') = (h.performAll deeds).performAll deeds' := List.foldl_append ..

/-! ## When sessions are seen -/

theorem seen_of_step {m m' : Moment} {log : List Mark} (hp : m.hub.path = .streams)
    (hs : Step m log m') : Seen m.hub.now m.hub.sessions m'.hub.sessions := by
  cases hs with
  | touched sessions n hlooked => exact hlooked.seen
  | @ended h es session =>
    cases hx : h.sessions.get? session with
    | none =>
      rw [endSession_of_none hx]
      exact .refl ..
    | some x =>
      rw [endSession_eq hx]
      exact .erase ..
  | subscribed hx =>
    rw [startStream_eq hx]
    exact .set _ _ rfl
  | loopEnded | broken =>
    rw [endLoop_eq]
    exact .clearTransport ..
  | abandoned ht hc =>
    rw [abandon_eq hp ht hc]
    exact .refl ..
  | _ => exact .refl ..

theorem nodup_performAll {h : Hub} (hs : h.Sound) (hn : h.sessions.keys.Nodup)
    (deeds : List Deed) : (h.performAll deeds).sessions.keys.Nodup :=
  (performAll_induction (P := fun h => h.sessions.keys.Nodup) (fun _ _ hn ha => ha.seen.nodup hn)
    (fun _ _ _ hp hn hstep => (seen_of_step hp hstep).nodup hn) hs hn deeds).2

end EditorBridge.Hub
