import EditorBridge.Proofs.Transport.Frames
import Mathlib.Data.List.Nodup
/-!
# A transport closes once

A close, or a write that breaks, closes an open transport, and nothing opens it
again. From then on a write that starts fails at once, and one that stands in
line fails when its turn comes; only the writer whose turn it was may still put
its frame into the channel. No turn is given on a closed transport. A write that
breaks has had the last turn, unless another one gets its turn before the
transport is closed: so only one write ever breaks, and one more for every turn
that is given in between.
-/

namespace EditorBridge

namespace Transport

/-! ## After the close -/

/-- It is a writer's turn, or its write broke and has yet to close the transport. -/
def Run.Busy (r : Run) (writer : WriterId) : Prop :=
  (∃ u, r.transport.turn = some u ∧ u.writer = writer) ∨ ∃ result, (writer, result) ∈ r.leaving

/-- What can have been seen of a transport since it was closed in this run. -/
def Entry.Late (r : Run) : Entry → Prop
  | .ended writer result => result = .error .closed ∨ r.Busy writer
  | .close made => made = false
  | _ => True

/-- A run after its transport was closed, and the same run later: the transport is still closed,
nobody has got a turn or got in line, at most the frame of the writer whose turn it was has gone
into the channel, no close has made a difference, and all other writes that have ended came too
late, but for those that had broken before. -/
structure Cut (r r' : Run) : Prop where
  closed : r'.transport.closed = true
  turn : r'.transport.turn = none ∨ r'.transport.turn = r.transport.turn
  line : r'.transport.line.Sublist r.transport.line
  sent : r'.transport.sent = r.transport.sent ∨ ∃ u, r.transport.turn = some u ∧
    r'.transport.turn = none ∧ r'.transport.sent = r.transport.sent ++ [(u.writer, u.frame)]
  leaving : ∀ p ∈ r'.leaving, r.Busy p.1
  record : ∃ since, r'.record = r.record ++ since ∧ ∀ e ∈ since, e.Late r

namespace Cut

variable {r r' r'' : Run}

theorem refl (hc : r.transport.closed = true) : Cut r r :=
  ⟨hc, .inr rfl, .refl _, .inl rfl, fun p hp => .inr ⟨p.2, hp⟩, [], (List.append_nil _).symm,
    List.forall_mem_nil _⟩

/-- Nobody has got to a closed transport who was not there before. -/
theorem busy (h : Cut r r') {w : WriterId} (hw : r'.Busy w) : r.Busy w := by
  rcases hw with ⟨u, hu, hw⟩ | ⟨result, hmem⟩
  · rcases h.turn with hnone | hsame
    · cases hnone.symm.trans hu
    · exact .inl ⟨u, hsame.symm.trans hu, hw⟩
  · exact h.leaving _ hmem

/-- What is late later was late before. -/
theorem late (h : Cut r r') {e : Entry} (he : e.Late r') : e.Late r := by
  cases e with
  | ended writer result => exact he.imp_right h.busy
  | close made => exact he
  | started | abandoned | read | lost => exact he

theorem trans (h : Cut r r') (h' : Cut r' r'') : Cut r r'' where
  closed := h'.closed
  turn := by
    rcases h'.turn with hnone | hsame
    · exact .inl hnone
    · exact hsame ▸ h.turn
  line := h'.line.trans h.line
  sent := by
    rcases h.sent with hsent | ⟨u, hu, hnone, hsent⟩
    · rcases h'.sent with hsent' | ⟨u, hu, hnone, hsent'⟩
      · exact .inl (hsent'.trans hsent)
      · refine .inr ⟨u, ?_, hnone, hsent ▸ hsent'⟩
        rcases h.turn with hgone | hsame
        · cases hgone.symm.trans hu
        · exact hsame.symm.trans hu
    · have hgone : r''.transport.turn = none := h'.turn.elim id (·.trans hnone)
      rcases h'.sent with hsent' | ⟨v, hv, -, -⟩
      · exact .inr ⟨u, hu, hgone, hsent'.trans hsent⟩
      · cases hnone.symm.trans hv
  leaving p hp := h.busy (h'.leaving p hp)
  record := by
    obtain ⟨since, hrecord, hlate⟩ := h.record
    obtain ⟨since', hrecord', hlate'⟩ := h'.record
    refine ⟨since ++ since', by rw [hrecord', hrecord, List.append_assoc], fun e he => ?_⟩
    rcases List.mem_append.1 he with he | he
    · exact hlate e he
    · exact h.late (hlate' e he)

/-- Something is seen of a transport whose turn and line stay or get shorter. -/
theorem seen (hc : r.transport.closed = true) {u : Transport} {entries : List Entry} {now : Nanos}
    {writers : Nat} {leaving : Endings} (hclosed : u.closed = r.transport.closed)
    (hturn : u.turn = none ∨ u.turn = r.transport.turn) (hline : u.line.Sublist r.transport.line)
    (hsent : u.sent = r.transport.sent) (hl : ∀ p ∈ leaving, p ∈ r.leaving)
    (hlate : ∀ e ∈ entries, e.Late r) :
    Cut r (({ transport := u, now, writers, record := r.record, leaving } : Run).note entries) :=
  ⟨hclosed.trans hc, hturn, hline, .inl hsent, fun p hp => .inr ⟨p.2, hl p hp⟩, entries, rfl,
    hlate⟩

end Cut

/-- What a late entry tells of a write that stood in line. -/
theorem Entry.Late.fate {r : Run} {e : Entry} {w : WriterId} {fate : Option WriteResult}
    (he : e.Late r) (hother : ¬ r.Busy w) (hf : e.fate? w = some fate) :
    fate = none ∨ fate = some (.error .closed) := by
  cases e with
  | ended v result =>
    obtain ⟨rfl, rfl⟩ : v = w ∧ some result = fate := by simpa [Entry.fate?] using hf
    rcases he with rfl | hbusy
    · exact .inr rfl
    · exact absurd hbusy hother
  | abandoned v =>
    obtain ⟨-, rfl⟩ : v = w ∧ none = fate := by simpa [Entry.fate?] using hf
    exact .inl rfl
  | started | read | lost | close => cases hf

/-- Whoever stands in line does not have the turn, and has not had it. -/
theorem Kept.not_busy {r : Run} (hk : Kept r) {w : WriterId} {frame : String}
    (hw : (w, frame) ∈ r.transport.line) : ¬ r.Busy w := by
  rintro (⟨u, hu, rfl⟩ | ⟨result, hmem⟩)
  · have hnodup := hk.nodup
    rw [List.map_append, List.nodup_append] at hnodup
    have hcons : r.transport.waiting = (u.writer, u.frame) :: r.transport.line := by
      simp [Transport.waiting, hu]
    rw [hcons, List.map_cons, List.nodup_cons] at hnodup
    exact hnodup.2.1.1 (List.mem_map.2 ⟨_, hw, rfl⟩)
  · exact (hk.present (List.mem_append_right _ hw)).2 _ hmem rfl

/-- Whoever stands in line at the close has not come to an end, was given up, or came too late. -/
theorem Cut.fates {r r' : Run} (h : Cut r r') (hk : Kept r) (hk' : Kept r') {w : WriterId}
    {frame : String} (hw : (w, frame) ∈ r.transport.line) :
    r'.fates w = [] ∨ r'.fates w = [none] ∨ r'.fates w = [some (.error .closed)] := by
  obtain ⟨since, hrecord, hlate⟩ := h.record
  have hfates : r'.fates w = since.filterMap (Entry.fate? w) := by
    have hnone : r.record.filterMap (Entry.fate? w) = [] :=
      hk.waiting _ (List.mem_append_right _ hw)
    rw [Run.fates, hrecord, List.filterMap_append, hnone, List.nil_append]
  have honce := hk'.once w
  cases hf : r'.fates w with
  | nil => exact .inl rfl
  | cons fate fates =>
    have hnil : fates = [] := by
      rw [hf, List.length_cons] at honce
      exact List.length_eq_zero_iff.1 (by omega)
    subst hnil
    have hmem : fate ∈ since.filterMap (Entry.fate? w) := hfates ▸ hf ▸ List.mem_singleton_self _
    obtain ⟨e, he, hfate⟩ := List.mem_filterMap.1 hmem
    rcases (hlate e he).fate (hk.not_busy hw) hfate with rfl | rfl
    · exact .inr (.inl rfl)
    · exact .inr (.inr rfl)

/-! ## What closes a transport -/

/-- A write has ended that lost its reader or ran out of time. -/
def Entry.breaks : Entry → Bool
  | .ended _ (.error (.connectionLost _)) | .ended _ (.error (.writeTimeout _)) => true
  | _ => false

@[simp] theorem Entry.breaks_ended (w : WriterId) (result : WriteResult) :
    (Entry.ended w result).breaks = Transport.breaks result := by
  rcases result with (_ | _ | _) | _ <;> rfl

/-- An action that tells of no write that broke, and by which nobody gets a turn. -/
structure Idle (r r' : Run) : Prop where
  record : ∃ since, r'.record = r.record ++ since ∧ ∀ e ∈ since, e.breaks = false
  leaving : r'.leaving = r.leaving
  turn : r'.transport.turn = none ∨ r'.transport.turn = r.transport.turn

theorem Idle.refl (r : Run) : Idle r r :=
  ⟨⟨[], (List.append_nil _).symm, List.forall_mem_nil _⟩, rfl, .inr rfl⟩

/-- What an action can do about writes that break. -/
inductive Acted (r : Run) (a : Action) : Run → Prop
  | idle {r' : Run} : Idle r r' → Acted r a r'
  /-- A write breaks whose turn it was, or that has got its turn just now. -/
  | broke {t : Transport} {ending : WriterId × WriteResult} :
      (r.transport.turn = none → r.Gives a) → t.turn = none →
      Acted r a { r with transport := t, leaving := r.leaving ++ [ending] }
  /-- The first in line gets its turn. -/
  | turned {t : Transport} : r.Gives a → Acted r a { r with transport := t }
  /-- A write that broke closes the transport. -/
  | ended {w : WriterId} {result : WriteResult} {t : Transport} : (w, result) ∈ r.leaving →
      t.turn = r.transport.turn → t.closed = true →
      Acted r a (({ r with leaving := r.leaving.filter (·.1 ≠ w) } : Run).moved
        (t, [(w, result)]))

/-- How many writes broke or may still break: those that have ended, those that have yet to close
the transport, and the one whose turn it is. -/
def Run.load (r : Run) : Nat :=
  r.record.countP Entry.breaks + r.leaving.length + r.transport.turn.toList.length

theorem Idle.load {r r' : Run} (h : Idle r r') : r'.load ≤ r.load := by
  obtain ⟨⟨since, hrecord, hnone⟩, hleaving, hturn⟩ := h
  have hzero : since.countP Entry.breaks = 0 :=
    List.countP_eq_zero.2 fun e he => by simp [hnone e he]
  have hlast : r'.transport.turn.toList.length ≤ r.transport.turn.toList.length := by
    rcases hturn with hturn | hturn <;> simp [hturn]
  rw [Run.load, Run.load, hrecord, List.countP_append, hzero, hleaving]
  omega

/-- An action adds to the load only by giving a turn, and then one at most. -/
theorem Acted.load {r r' : Run} {a : Action} (h : Acted r a r') :
    r'.load ≤ r.load ∨ r.Gives a ∧ r'.load ≤ r.load + 1 := by
  cases h with
  | idle h => exact .inl h.load
  | broke hgives hnone =>
    cases hturn : r.transport.turn with
    | some u =>
      left
      simp [Run.load, hturn, hnone]
      omega
    | none =>
      refine .inr ⟨hgives hturn, ?_⟩
      simp [Run.load, hturn, hnone]
      omega
  | @turned t hgives =>
    refine .inr ⟨hgives, ?_⟩
    have hone : t.turn.toList.length ≤ 1 := by cases t.turn <;> simp
    simp only [Run.load, hgives.2.2.1, Option.toList_none, List.length_nil]
    omega
  | @ended w result t hmem hturn _ =>
    left
    have hfewer : (r.leaving.filter (·.1 ≠ w)).length < r.leaving.length :=
      List.length_filter_lt_length_iff_exists.2 ⟨_, hmem, by simp⟩
    have hone : [Entry.ended w result].countP Entry.breaks ≤ 1 := List.countP_le_length
    simp only [Run.load, Run.moved, Run.note, hturn, List.map_cons, List.map_nil,
      List.countP_append]
    omega

/-- After a write that broke has ended the transport is closed. -/
def ClosedByBreak (r : Run) : Prop :=
  ∀ e ∈ r.record, e.breaks = true → r.transport.closed = true

theorem Acted.closed {r r' : Run} {a : Action} (h : Acted r a r') (hc : ClosedByBreak r)
    (hstays : r.transport.closed = true → r'.transport.closed = true) : ClosedByBreak r' := by
  have before {e : Entry} (he : e ∈ r.record) (hb : e.breaks = true) :
      r'.transport.closed = true := hstays (hc e he hb)
  intro e he hb
  cases h with
  | idle hidle =>
    obtain ⟨since, hrecord, hnone⟩ := hidle.record
    rw [hrecord] at he
    rcases List.mem_append.1 he with he | he
    · exact before he hb
    · cases hb.symm.trans (hnone e he)
  | broke => exact before he hb
  | turned => exact before he hb
  | ended _ _ hc => exact hc

/-- Apart from the first, every write that broke got its turn while another one had yet to close the
transport. -/
structure Spent (r : Run) (n : Nat) : Prop where
  closed : ClosedByBreak r
  load : r.load ≤ 1 + n

theorem exec_append (t : Transport) (before later : List Action) :
    exec t (before ++ later) = (exec t before).acts later := acts_append ..

/-- The writer whose turn it is gets through after the close, and the one behind it does not. -/
example :
    let r := exec (.opened "s1" 1 5) [.event (.write "a"), .move, .event (.write "b"), .move,
      .event (.write "c"), .event .close, .event (.read 1), .move, .move]
    r.transport.sent = [(0, "a"), (1, "b")] ∧ r.fates 2 = [some (.error .closed)] := ⟨rfl, rfl⟩

/-- Whoever gets its turn before the close may break as well. -/
example :
    let r := exec (.opened "s1" 1 5) [.event (.write "a"), .move, .event (.write "b"), .move,
      .event (.write "c"), .event (.advance 5), .move, .move, .shut 1, .event (.advance 5), .move,
      .shut 2]
    r.fates 1 = [some (.error (.writeTimeout 5))] ∧ r.fates 2 = [some (.error (.writeTimeout 5))] :=
  ⟨rfl, rfl⟩

end Transport

end EditorBridge
