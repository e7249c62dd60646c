import EditorBridge.Proofs.Transport
/-!
# Whose write closes a transport

Nobody is served by a transport but who waited for it. A transport that moves
is closed by a write that fails, and by nothing else.
Whoever waits behind that write fails with it, so the last one in line always
does. Where writes may wait for room, an open transport is closed because its
reader has gone or because a turn has run out, and then nobody succeeds at all.
-/

namespace EditorBridge.Transport

variable {t : Transport} {line : List (WriterId × String)} {now : Nanos}

/-! ## Who is served -/

theorem Ended.entry_of_taken? {e : Ended} {w : WriterId × String} (he : e.taken? = some w) :
    e.entry = w := by
  unfold taken? at he
  split at he
  · exact Option.some.inj he
  · cases he

/-- A transport that moves has no frames that were not there before. -/
theorem Served.frames {t' : Transport} {done : List Ended} (hs : Served t t' done) :
    ∀ e ∈ t'.sent ++ t'.waiting, e ∈ t.sent ++ t.waiting := by
  intro e he
  rw [hs.sent, List.append_assoc, List.mem_append, List.mem_append] at he
  rw [hs.waiting, List.mem_append, List.mem_append]
  rcases he with he | he | he
  · exact .inl he
  · obtain ⟨d, hd, htaken⟩ := List.mem_filterMap.1 he
    exact .inr (.inl (List.mem_map.2 ⟨d, hd, Ended.entry_of_taken? htaken⟩))
  · exact .inr (.inr he)

/-- Whoever has been told waited before. -/
theorem mem_waiting_of_mem_settle {w : WriterId} {r : WriteResult}
    (he : (w, r) ∈ (settle now t).2) : ∃ frame, (w, frame) ∈ t.waiting := by
  obtain ⟨done, hendings, hd⟩ := settle_served now t
  rw [hendings] at he
  obtain ⟨d, hmem, hentry⟩ := List.mem_map.1 he
  cases hentry
  refine ⟨d.frame, ?_⟩
  rw [hd.waiting]
  exact List.mem_append_left _ (List.mem_map_of_mem (f := Ended.entry) hmem)

/-! ## Who fails -/

theorem error_ne_ok {e : WriteError} : (.error e : WriteResult) ≠ .ok () := by
  intro h
  cases h

/-- On a closed transport every write fails. -/
theorem giveTurns_shut (hc : t.closed = true) : ∀ e ∈ (giveTurns now line t).2, e.2 ≠ .ok () := by
  induction line with
  | nil => exact List.forall_mem_nil _
  | cons w line ih =>
    simp only [giveTurns, hc, if_true]
    exact List.forall_mem_cons.2 ⟨error_ne_ok, ih⟩

/-- Without a reader every write fails. -/
theorem giveTurns_deserted (hr : t.receiving = false) :
    ∀ e ∈ (giveTurns now line t).2, e.2 ≠ .ok () := by
  cases line with
  | nil => exact List.forall_mem_nil _
  | cons w line =>
    by_cases hc : t.closed = true
    · exact giveTurns_shut hc
    · simp only [giveTurns, hc, hr, Bool.not_false, if_true]
      exact List.forall_mem_cons.2 ⟨error_ne_ok, giveTurns_shut rfl⟩

/-- Where a write may wait for room, turns close no transport that has a reader. -/
theorem giveTurns_receiving (hr : t.receiving = true) (hw : t.writeTimeout ≠ 0) :
    (giveTurns now line t).1.closed = t.closed := by
  induction line generalizing t with
  | nil => rfl
  | cons w line ih =>
    unfold giveTurns
    simp only [hr, hw, Bool.not_true, Bool.false_eq_true, if_false]
    split_ifs
    · exact ih hr hw
    · exact ih (t := t.put w.1 w.2) hr hw
    · rfl

theorem closed_giveTurns (ht : t.turn = none) (hc : t.closed = true) :
    (giveTurns now line t).1.closed = true := by
  obtain ⟨done, -, hd⟩ := giveTurns_served now line t ht
  exact hd.closed hc

/-- As long as a transport stays open nobody fails. -/
theorem giveTurns_ok (ht : t.turn = none) (hopen : (giveTurns now line t).1.closed = false) :
    ∀ e ∈ (giveTurns now line t).2, e.2 = .ok () := by
  induction line generalizing t with
  | nil => exact List.forall_mem_nil _
  | cons w line ih =>
    unfold giveTurns at hopen ⊢
    split_ifs at hopen ⊢ with hc
    · cases hopen.symm.trans (closed_giveTurns ht hc)
    · cases hopen.symm.trans (closed_giveTurns ht rfl)
    · exact List.forall_mem_cons.2 ⟨rfl, ih (t := t.put w.1 w.2) ht hopen⟩
    · cases hopen.symm.trans (closed_giveTurns ht rfl)
    · exact List.forall_mem_nil _

theorem settle_ok (hopen : (settle now t).1.closed = false) :
    ∀ e ∈ (settle now t).2, e.2 = .ok () := by
  unfold settle at hopen ⊢
  split at hopen
  · next ht => exact giveTurns_ok ht hopen
  · split_ifs at hopen ⊢
    · cases hopen.symm.trans (closed_giveTurns rfl rfl)
    · exact List.forall_mem_cons.2 ⟨rfl, giveTurns_ok rfl hopen⟩
    · cases hopen.symm.trans (closed_giveTurns rfl rfl)
    · exact List.forall_mem_nil _

/-- Where a write may wait for room, nobody succeeds on a transport that closes. -/
theorem settle_lost (hopen : t.closed = false) (hw : t.writeTimeout ≠ 0)
    (hc : (settle now t).1.closed = true) : ∀ e ∈ (settle now t).2, e.2 ≠ .ok () := by
  unfold settle at hc ⊢
  split at hc
  · next ht =>
    cases hr : t.receiving with
    | false => exact giveTurns_deserted hr
    | true => cases hc.symm.trans ((giveTurns_receiving hr hw).trans hopen)
  · next turn ht =>
    split_ifs at hc ⊢ with hr
    · exact List.forall_mem_cons.2 ⟨error_ne_ok, giveTurns_shut rfl⟩
    · have hr : t.receiving = true := by simpa using hr
      let u := { t.put turn.writer turn.frame with turn := none }
      cases hc.symm.trans ((giveTurns_receiving (t := u) hr hw).trans hopen)
    · exact List.forall_mem_cons.2 ⟨error_ne_ok, giveTurns_shut rfl⟩
    · cases hopen.symm.trans hc

/-! ## The last in line -/

/-- The end of somebody else's write is no success of this writer. -/
theorem not_mem_endings_cons {w v : WriterId} {r : WriteResult} {es : Endings} (hv : w ≠ v)
    (hes : (w, .ok ()) ∉ es) : (w, .ok ()) ∉ (v, r) :: es := fun he =>
  hes ((List.mem_cons.1 he).resolve_left fun h => hv (congrArg Prod.fst h))

theorem giveTurns_last {w : WriterId} {frame : String} (hopen : t.closed = false)
    (hnew : ∀ f, (w, f) ∉ line)
    (hc : (giveTurns now (line ++ [(w, frame)]) t).1.closed = true) :
    (w, .ok ()) ∉ (giveTurns now (line ++ [(w, frame)]) t).2 := by
  have shut {line : List (WriterId × String)} {u : Transport} (hu : u.closed = true) :
      (w, .ok ()) ∉ (giveTurns now line u).2 := fun he => giveTurns_shut hu _ he rfl
  induction line generalizing t with
  | nil =>
    simp only [List.nil_append, giveTurns] at hc ⊢
    split_ifs at hc ⊢
    · cases hopen.symm.trans hc
    · simp
    · cases hopen.symm.trans hc
    · simp
    · simp
  | cons v line ih =>
    -- the one in front is served, and the others stand in a shorter line; or they all fail with it
    have other : w ≠ v.1 := fun he => hnew v.2 (he ▸ List.mem_cons_self)
    have later : ∀ f, (w, f) ∉ line := fun f hf => hnew f (List.mem_cons_of_mem _ hf)
    simp only [List.cons_append] at hc ⊢
    unfold giveTurns at hc ⊢
    split_ifs at hc ⊢ with hclosed
    · cases hopen.symm.trans hclosed
    · exact not_mem_endings_cons other (shut rfl)
    · exact not_mem_endings_cons other (ih (t := t.put v.1 v.2) hopen later hc)
    · exact not_mem_endings_cons other (shut rfl)
    · exact List.not_mem_nil

/-- Whoever came last fails on a transport that closes. -/
theorem settle_last {w : WriterId} {frame : String} (hopen : t.closed = false)
    (hnew : ∀ f, (w, f) ∉ t.waiting)
    (hc : (settle now { t with line := t.line ++ [(w, frame)] }).1.closed = true) :
    (w, .ok ()) ∉ (settle now { t with line := t.line ++ [(w, frame)] }).2 := by
  have later : ∀ f, (w, f) ∉ t.line := fun f hf => hnew f (List.mem_append_right _ hf)
  unfold settle at hc ⊢
  split at hc
  · exact giveTurns_last (t := { t with line := t.line ++ [(w, frame)] }) hopen later hc
  · next turn ht =>
    have hturn : t.turn = some turn := ht
    have other : w ≠ turn.writer := by
      rintro rfl
      exact hnew turn.frame (by simp [waiting, hturn])
    split_ifs at hc ⊢
    · exact not_mem_endings_cons other fun he => giveTurns_shut rfl _ he rfl
    · exact not_mem_endings_cons other (giveTurns_last hopen later hc)
    · exact not_mem_endings_cons other fun he => giveTurns_shut rfl _ he rfl
    · exact List.not_mem_nil

/-! ## Turns that wait -/

/-- A transport has a span for its writes, and a turn waits only if the span is not empty. -/
structure Patient (limit : Nanos) (t : Transport) : Prop where
  span : t.writeTimeout = limit
  turn : t.turn ≠ none → limit ≠ 0

theorem giveTurns_turn (ht : t.turn = none) (hturn : (giveTurns now line t).1.turn ≠ none) :
    t.writeTimeout ≠ 0 := by
  induction line generalizing t with
  | nil => exact absurd ht hturn
  | cons w line ih =>
    unfold giveTurns at hturn
    split_ifs at hturn with _ _ _ hw
    · exact ih ht hturn
    · exact ih (t := { t with closed := true }) ht hturn
    · exact ih (t := t.put w.1 w.2) ht hturn
    · exact ih (t := { t with closed := true }) ht hturn
    · exact hw

theorem settle_patient {limit : Nanos} (hp : t.Patient limit) : Patient limit (settle now t).1 := by
  obtain ⟨done, -, hd⟩ := settle_served now t
  refine ⟨hd.writeTimeout.trans hp.span, fun hturn => ?_⟩
  unfold settle at hturn
  split at hturn
  · next ht => exact hp.span ▸ giveTurns_turn ht hturn
  · next turn ht => exact hp.turn (by simp [ht])

theorem giveTurns_waiting (ht : t.turn = none) (hturn : (giveTurns now line t).1.turn = none) :
    (giveTurns now line t).1.waiting = [] := by
  induction line generalizing t with
  | nil => simp [giveTurns, waiting, ht]
  | cons w line ih =>
    unfold giveTurns at hturn ⊢
    split_ifs at hturn ⊢
    · exact ih ht hturn
    · exact ih (t := { t with closed := true }) ht hturn
    · exact ih (t := t.put w.1 w.2) ht hturn
    · exact ih (t := { t with closed := true }) ht hturn

/-- When a transport has moved and nobody has a turn, nobody waits. -/
theorem settle_waiting (hturn : (settle now t).1.turn = none) : (settle now t).1.waiting = [] := by
  unfold settle at hturn ⊢
  split at hturn
  · next ht => exact giveTurns_waiting ht hturn
  · next turn ht =>
    split_ifs at hturn ⊢
    · exact giveTurns_waiting rfl hturn
    · exact giveTurns_waiting rfl hturn
    · exact giveTurns_waiting rfl hturn
    · cases ht.symm.trans hturn

end EditorBridge.Transport
