import EditorBridge.Transport.Basic
import Mathlib.Tactic.SplitIfs
/-!
# The law of turns

Whoever waits for a transport waits in one order: the writer whose turn it is,
then the line. When a transport moves, the first few of them have ended, each
with its result; the frames of those that succeeded have been taken, in that
order, and no others. A failed write closes the transport, and then nobody is
left waiting.
-/

namespace EditorBridge.Transport

/-- Who waits, with their frames: the one whose turn it is, then the line. -/
def waiting (t : Transport) : List (WriterId × String) :=
  (t.turn.map fun turn => (turn.writer, turn.frame)).toList ++ t.line

/-- A write that has ended. -/
structure Ended where
  writer : WriterId
  frame : String
  result : WriteResult

namespace Ended

/-- What waited. -/
def entry (e : Ended) : WriterId × String := (e.writer, e.frame)

/-- How it ended. -/
def ending (e : Ended) : WriterId × WriteResult := (e.writer, e.result)

/-- What was taken. -/
def taken? (e : Ended) : Option (WriterId × String) :=
  match e.result with
  | .ok () => some (e.writer, e.frame)
  | .error _ => none

end Ended

/-- A transport has moved: some of those who waited have ended. -/
structure Served (t t' : Transport) (done : List Ended) : Prop where
  waiting : t.waiting = done.map Ended.entry ++ t'.waiting
  sent : t'.sent = t.sent ++ done.filterMap Ended.taken?
  session : t'.session = t.session
  capacity : t'.capacity = t.capacity
  writeTimeout : t'.writeTimeout = t.writeTimeout
  receiving : t'.receiving = t.receiving
  closed : t.closed = true → t'.closed = true

/-- Nobody waits for a closed transport. -/
def Flushed (t : Transport) : Prop := t.closed = true → t.waiting = []

variable {t t' : Transport} {done : List Ended}

/-! ## Leaving -/

theorem leave_eq (t : Transport) (r : WriteResult) :
    t.leave r = { t with closed := t.closed || breaks r } := by
  unfold leave
  cases breaks r <;> simp [close]

@[simp] theorem turn_leave (t : Transport) (r : WriteResult) : (t.leave r).turn = t.turn := by
  rw [leave_eq]

@[simp] theorem line_leave (t : Transport) (r : WriteResult) : (t.leave r).line = t.line := by
  rw [leave_eq]

/-- Leaving does nothing but close a transport. -/
theorem served_leave {r : WriteResult} {line : List (WriterId × String)}
    (hs : Served { t.leave r with line := line } t' done) :
    Served { t with line := line } t' done := by
  rw [leave_eq] at hs
  exact ⟨hs.waiting, hs.sent, hs.session, hs.capacity, hs.writeTimeout, hs.receiving,
    fun hc => hs.closed (Bool.or_eq_true_iff.2 (.inl hc))⟩

/-- The first who waits ends, and then the others are served. -/
theorem Served.cons {u : Transport} {e : Ended} (hs : Served u t' done)
    (hw : t.waiting = e.entry :: u.waiting) (hsent : u.sent = t.sent ++ e.taken?.toList)
    (hsame : u.session = t.session ∧ u.capacity = t.capacity ∧ u.writeTimeout = t.writeTimeout ∧
      u.receiving = t.receiving ∧ u.closed = t.closed) : Served t t' (e :: done) := by
  obtain ⟨hsession, hcapacity, htimeout, hreceiving, hclosed⟩ := hsame
  constructor
  · rw [hw, hs.waiting]
    rfl
  · rw [hs.sent, hsent]
    cases he : e.taken? <;> simp [he]
  · exact hs.session.trans hsession
  · exact hs.capacity.trans hcapacity
  · exact hs.writeTimeout.trans htimeout
  · exact hs.receiving.trans hreceiving
  · exact fun hc => hs.closed (hclosed.trans hc)

/-- What is in line beside the writers who get their turns does not matter. -/
theorem giveTurns_line (now : Nanos) (line l : List (WriterId × String)) (t : Transport) :
    giveTurns now line { t with line := l } = giveTurns now line t := by
  induction line generalizing t with
  | nil => rfl
  | cons w line ih =>
    obtain ⟨writer, frame⟩ := w
    have hleave (u : Transport) (r : WriteResult) :
        giveTurns now line (leave { u with line := l } r) = giveTurns now line (u.leave r) := by
      rw [leave_eq, leave_eq]
      exact ih { u with closed := u.closed || breaks r }
    have hput := hleave (t.put writer frame) (.ok ())
    simp only [put] at hput
    simp only [giveTurns, hleave, hput, put, hasRoom]

/-! ## Turns -/

theorem giveTurns_served (now : Nanos) (line : List (WriterId × String)) (t : Transport)
    (ht : t.turn = none) :
    ∃ done, (giveTurns now line t).2 = done.map Ended.ending ∧
      Served { t with line := line } (giveTurns now line t).1 done := by
  induction line generalizing t with
  | nil => exact ⟨[], rfl, by constructor <;> simp [giveTurns, waiting, ht]⟩
  | cons w line ih =>
    obtain ⟨writer, frame⟩ := w
    have next (u : Transport) (r : WriteResult) (hu : u.turn = none)
        (hs : u.sent = t.sent ++ (Ended.taken? ⟨writer, frame, r⟩).toList)
        (hsame : u.session = t.session ∧ u.capacity = t.capacity ∧
          u.writeTimeout = t.writeTimeout ∧ u.receiving = t.receiving ∧ u.closed = t.closed) :
        ∃ done, (writer, r) :: (giveTurns now line (u.leave r)).2 = done.map Ended.ending ∧
          Served { t with line := (writer, frame) :: line }
            (giveTurns now line (u.leave r)).1 done := by
      obtain ⟨done, he, hd⟩ := ih (u.leave r) (by simpa using hu)
      refine ⟨⟨writer, frame, r⟩ :: done, by simp [he, Ended.ending], ?_⟩
      exact (served_leave hd).cons (by simp [waiting, ht, hu, Ended.entry]) hs hsame
    unfold giveTurns
    split_ifs
    · exact next t (.error .closed) ht (by simp [Ended.taken?]) ⟨rfl, rfl, rfl, rfl, rfl⟩
    · exact next t (.error readerGone) ht (by simp [Ended.taken?]) ⟨rfl, rfl, rfl, rfl, rfl⟩
    · exact next (t.put writer frame) (.ok ()) ht rfl ⟨rfl, rfl, rfl, rfl, rfl⟩
    · exact next t (.error (.writeTimeout 0)) ht (by simp [Ended.taken?]) ⟨rfl, rfl, rfl, rfl, rfl⟩
    · exact ⟨[], rfl, by constructor <;> simp [waiting, ht]⟩

/-- The law of turns. -/
theorem settle_served (now : Nanos) (t : Transport) :
    ∃ done, (settle now t).2 = done.map Ended.ending ∧ Served t (settle now t).1 done := by
  have ends (turn : Turn) (hturn : t.turn = some turn) (u : Transport) (r : WriteResult)
      (hline : u.line = t.line)
      (hs : u.sent = t.sent ++ (Ended.taken? ⟨turn.writer, turn.frame, r⟩).toList)
      (hsame : u.session = t.session ∧ u.capacity = t.capacity ∧
        u.writeTimeout = t.writeTimeout ∧ u.receiving = t.receiving ∧ u.closed = t.closed) :
      ∃ done, (endTurn now turn.writer r u).2 = done.map Ended.ending ∧
        Served t (endTurn now turn.writer r u).1 done := by
    obtain ⟨done, he, hd⟩ := giveTurns_served now u.line (u.release.leave r) (by simp [release])
    refine ⟨⟨turn.writer, turn.frame, r⟩ :: done, by simp [endTurn, he, Ended.ending], ?_⟩
    refine (served_leave hd).cons ?_ hs hsame
    simp [waiting, release, hturn, hline, Ended.entry]
  unfold settle
  split
  · next hturn => exact giveTurns_served now t.line t hturn
  · next turn hturn =>
    split_ifs
    · exact ends turn hturn t _ rfl (by simp [Ended.taken?]) ⟨rfl, rfl, rfl, rfl, rfl⟩
    · exact ends turn hturn _ _ rfl rfl ⟨rfl, rfl, rfl, rfl, rfl⟩
    · exact ends turn hturn t _ rfl (by simp [Ended.taken?]) ⟨rfl, rfl, rfl, rfl, rfl⟩
    · exact ⟨[], rfl, by constructor <;> simp⟩

/-- To give up a write takes its frame out of the line, and no other frame. -/
theorem waiting_abandon (t : Transport) (writer : WriterId) :
    (t.abandon writer).waiting = t.waiting.filter (·.1 ≠ writer) := by
  cases hturn : t.turn with
  | none => simp [waiting, abandon, hturn]
  | some turn =>
    by_cases hw : turn.writer = writer <;>
      simp [waiting, abandon, hturn, hw, Option.filter_some]

/-! ## Closed transports -/

theorem giveTurns_flushed (now : Nanos) (line : List (WriterId × String)) (t : Transport)
    (ht : t.turn = none) : Flushed (giveTurns now line t).1 := by
  induction line generalizing t with
  | nil => simp [giveTurns, Flushed, waiting, ht]
  | cons w line ih =>
    obtain ⟨writer, frame⟩ := w
    unfold giveTurns
    split_ifs with hclosed
    · exact ih _ ht
    · exact ih _ ht
    · exact ih _ ht
    · exact ih _ ht
    · exact fun hc => absurd hc hclosed

/-- A transport that moves stays one that keeps nobody waiting once it is closed. -/
theorem settle_flushed (now : Nanos) (h : t.Flushed) : Flushed (settle now t).1 := by
  unfold settle
  split
  · next hturn => exact giveTurns_flushed now _ t hturn
  · split_ifs
    · exact giveTurns_flushed now _ _ rfl
    · exact giveTurns_flushed now _ _ rfl
    · exact giveTurns_flushed now _ _ rfl
    · exact h

/-! ## Turns run out -/

/-- No turn lasts longer than a write may wait. -/
def Timed (now : Nanos) (t : Transport) : Prop :=
  ∀ turn, t.turn = some turn → turn.deadline ≤ now + t.writeTimeout

theorem giveTurns_timed (now : Nanos) (line : List (WriterId × String)) (t : Transport)
    (ht : t.turn = none) : Timed now (giveTurns now line t).1 := by
  induction line generalizing t with
  | nil => simp [giveTurns, Timed, ht]
  | cons w line ih =>
    obtain ⟨writer, frame⟩ := w
    unfold giveTurns
    split_ifs
    · exact ih _ ht
    · exact ih _ ht
    · exact ih _ ht
    · exact ih _ ht
    · rintro turn ⟨⟩
      exact Nat.le_refl _

theorem settle_timed (now : Nanos) (h : t.Timed now) : Timed now (settle now t).1 := by
  unfold settle
  split
  · next hturn => exact giveTurns_timed now _ t hturn
  · split_ifs
    · exact giveTurns_timed now _ _ rfl
    · exact giveTurns_timed now _ _ rfl
    · exact giveTurns_timed now _ _ rfl
    · exact h

end EditorBridge.Transport
