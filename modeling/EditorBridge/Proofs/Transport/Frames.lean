import EditorBridge.Proofs.Transport.Schedule
/-!
# What becomes of frames

A frame goes into the channel when its write succeeds and at no other time, so
the channel takes the frames of the successful writes in the order in which
these were started, and the reader gets them in that order. The invariant is
`Kept`: apart from those that miscarried or are about to, the writes that were
started are the ones whose frames were taken, followed by the ones that wait.
-/

namespace EditorBridge.Transport

/-! ## Records -/

namespace Run

variable (r : Run) (entries : List Entry)

@[simp] theorem starts_note : (r.note entries).starts = r.starts ++ entries.filterMap Entry.start? :=
  List.filterMap_append ..

@[simp] theorem fates_note (w : WriterId) :
    (r.note entries).fates w = r.fates w ++ entries.filterMap (Entry.fate? w) :=
  List.filterMap_append ..

@[simp] theorem reads_note : (r.note entries).reads = r.reads ++ entries.filterMap Entry.read? :=
  List.filterMap_append ..

@[simp] theorem losses_note : (r.note entries).losses = r.losses ++ entries.filterMap Entry.lost? :=
  List.filterMap_append ..

end Run

/-! ## The fates of writes -/

/-- Whether a write has miscarried, or broke and has yet to close the transport. -/
def Run.parted (r : Run) (w : WriterId) : Bool := r.miscarried w || r.leaving.any (·.1 = w)

/-- What a run keeps: every write is started once and has at most one fate; those that did not
part are, in the order of their start, the ones whose frames were taken, which succeeded, and
the ones that wait, whose fate is open. It is open too for those that have yet to close the
transport. -/
structure Kept (r : Run) : Prop where
  started : r.starts.map (·.1) = List.range r.writers
  once : ∀ w, (r.fates w).length ≤ 1
  ahead : ∀ w, r.writers ≤ w → r.fates w = []
  order : r.starts.filter (fun p => !r.parted p.1) = r.transport.sent ++ r.transport.waiting
  sent : ∀ p ∈ r.transport.sent, r.fates p.1 = [some (.ok ())]
  waiting : ∀ p ∈ r.transport.waiting, r.fates p.1 = []
  leaving : ∀ p ∈ r.leaving, p.1 < r.writers ∧ r.fates p.1 = [] ∧ breaks p.2 = true
  distinct : (r.leaving.map (·.1)).Nodup

namespace Kept

variable {r r' : Run} {w : WriterId} {frame : String} {fate : Option WriteResult}

theorem miscarried_congr (h : r'.fates w = r.fates w) : r'.miscarried w = r.miscarried w := by
  simp [Run.miscarried, h]

theorem parted_congr (hleaving : r'.leaving = r.leaving) (h : r'.fates w = r.fates w) :
    r'.parted w = r.parted w := by
  simp [Run.parted, hleaving, miscarried_congr h]

/-- Nothing that matters has changed. -/
theorem same (hk : Kept r) (hstarts : r'.starts = r.starts) (hwriters : r'.writers = r.writers)
    (hfates : ∀ v, r'.fates v = r.fates v) (hsent : r'.transport.sent = r.transport.sent)
    (hwaiting : r'.transport.waiting = r.transport.waiting) (hleaving : r'.leaving = r.leaving) :
    Kept r' where
  started := by rw [hstarts, hwriters, hk.started]
  once v := hfates v ▸ hk.once v
  ahead v hv := (hfates v).trans (hk.ahead v (hwriters ▸ hv))
  order := by
    simp only [hstarts, hsent, hwaiting, parted_congr hleaving (hfates _)]
    exact hk.order
  sent p hp := (hfates _).trans (hk.sent p (hsent ▸ hp))
  waiting p hp := (hfates _).trans (hk.waiting p (hwaiting ▸ hp))
  leaving p hp := hfates p.1 ▸ hwriters ▸ hk.leaving p (hleaving ▸ hp)
  distinct := hleaving ▸ hk.distinct

/-- Nobody's frame is in two places. -/
theorem nodup (hk : Kept r) : ((r.transport.sent ++ r.transport.waiting).map (·.1)).Nodup := by
  rw [← hk.order]
  have hsub := (List.filter_sublist (p := fun p => !r.parted p.1) (l := r.starts)).map (·.1)
  exact (hk.started ▸ hsub).nodup List.nodup_range

/-- Whoever waits has started, and is not among those that have parted. -/
theorem present (hk : Kept r) (hw : (w, frame) ∈ r.transport.waiting) :
    w < r.writers ∧ ∀ p ∈ r.leaving, p.1 ≠ w := by
  have hmem := hk.order ▸ List.mem_append_right r.transport.sent hw
  obtain ⟨hstart, hparted⟩ := List.mem_filter.1 hmem
  refine ⟨?_, fun p hp he => ?_⟩
  · rw [← List.mem_range, ← hk.started]
    exact List.mem_map.2 ⟨_, hstart, rfl⟩
  · have hany : r.leaving.any (·.1 = w) = true := List.any_eq_true.2 ⟨p, hp, by simpa using he⟩
    simp [Run.parted, hany] at hparted

/-- Whose frame was taken is not among those that wait. -/
theorem apart (hk : Kept r) (hw : (w, frame) ∈ r.transport.waiting) :
    ∀ p ∈ r.transport.sent, p.1 ≠ w := by
  intro p hp he
  have hnodup := hk.nodup
  rw [List.map_append, List.nodup_append] at hnodup
  exact hnodup.2.2 _ (List.mem_map_of_mem hp) _ (List.mem_map_of_mem hw) he

/-- Without the first who waits. -/
theorem waiting_tail (hk : Kept r) {rest : List (WriterId × String)}
    (hw : r.transport.waiting = (w, frame) :: rest) :
    rest = r.transport.waiting.filter (·.1 ≠ w) := by
  have hnodup := hk.nodup
  rw [hw, List.map_append, List.nodup_append] at hnodup
  have hfirst := (List.nodup_cons.1 hnodup.2.1).1
  rw [hw, List.filter_cons_of_neg (by simp)]
  refine (List.filter_eq_self.2 fun p hp => ?_).symm
  simpa using fun he : p.1 = w => hfirst (List.mem_map.2 ⟨p, hp, he⟩)

/-- The order when somebody who waits parts. -/
theorem order_parted (hk : Kept r) (hmem : (w, frame) ∈ r.transport.waiting)
    (hstarts : r'.starts = r.starts) (hparted : ∀ v, r'.parted v = (r.parted v || decide (v = w)))
    (hw : r'.transport.waiting = r.transport.waiting.filter (·.1 ≠ w))
    (hs : r'.transport.sent = r.transport.sent) :
    r'.starts.filter (fun p => !r'.parted p.1) = r'.transport.sent ++ r'.transport.waiting := by
  have hfilter : r'.starts.filter (fun p => !r'.parted p.1) =
      (r.starts.filter (fun p => !r.parted p.1)).filter (·.1 ≠ w) := by
    rw [List.filter_filter, hstarts]
    refine List.filter_congr fun p _ => ?_
    by_cases hp : p.1 = w <;> simp [hparted, hp]
  rw [hfilter, hk.order, hs, hw, List.filter_append]
  congr 1
  exact List.filter_eq_self.2 fun p hp => by simpa using hk.apart hmem p hp

section Fate

/-- One write has come to its end: what this leaves untouched. -/
structure Fated (r r' : Run) (w : WriterId) (fate : Option WriteResult) : Prop where
  starts : r'.starts = r.starts
  writers : r'.writers = r.writers
  self : r'.fates w = r.fates w ++ [fate]
  other : ∀ v, v ≠ w → r'.fates v = r.fates v

theorem Fated.once (hf : Fated r r' w fate) (hk : Kept r) (hopen : r.fates w = [])
    (v : WriterId) : (r'.fates v).length ≤ 1 := by
  by_cases hv : v = w
  · subst hv
    simp [hf.self, hopen]
  · exact hf.other v hv ▸ hk.once v

theorem Fated.ahead (hf : Fated r r' w fate) (hk : Kept r) (hlt : w < r.writers)
    (v : WriterId) (hv : r'.writers ≤ v) : r'.fates v = [] := by
  rw [hf.writers] at hv
  have hne : v ≠ w := fun he => Nat.not_lt.2 hv (he ▸ hlt)
  rw [hf.other v hne]
  exact hk.ahead v hv

theorem Fated.leaving (hf : Fated r r' w fate) (hk : Kept r) {p : WriterId × WriteResult}
    (hp : p ∈ r.leaving) (hne : p.1 ≠ w) :
    p.1 < r'.writers ∧ r'.fates p.1 = [] ∧ breaks p.2 = true := by
  rw [hf.writers, hf.other _ hne]
  exact hk.leaving p hp

/-- A fate that is not a success is a miscarriage. -/
theorem miscarried_of_ne (hfate : fate ≠ some (.ok ())) (hf : r.fates w = [fate]) :
    r.miscarried w = true := by
  unfold Run.miscarried
  rw [hf]
  cases fate with
  | none => rfl
  | some result =>
    cases result with
    | ok => exact absurd rfl hfate
    | error e => rfl

/-- The first who waits succeeds. -/
theorem took (hk : Kept r) (hf : Fated r r' w (some (.ok ())))
    (hw : r.transport.waiting = (w, frame) :: r'.transport.waiting)
    (hs : r'.transport.sent = r.transport.sent ++ [(w, frame)]) (hl : r'.leaving = r.leaving) :
    Kept r' := by
  have hmem : (w, frame) ∈ r.transport.waiting := hw ▸ List.mem_cons_self
  have hopen : r.fates w = [] := hk.waiting _ hmem
  have hself : r'.fates w = [some (.ok ())] := by rw [hf.self, hopen]; rfl
  obtain ⟨hlt, hstays⟩ := hk.present hmem
  refine ⟨by rw [hf.starts, hf.writers, hk.started], hf.once hk hopen, hf.ahead hk hlt,
    ?_, ?_, ?_, fun p hp => hf.leaving hk (hl ▸ hp) (hstays p (hl ▸ hp)), hl ▸ hk.distinct⟩
  · have hsame : ∀ v, r'.parted v = r.parted v := by
      intro v
      by_cases hv : v = w
      · subst hv
        simp [Run.parted, Run.miscarried, hself, hopen, hl]
      · exact parted_congr hl (hf.other v hv)
    simp only [hf.starts, hs, hsame, hk.order, hw, List.append_assoc]
    rfl
  · intro p hp
    rw [hs] at hp
    rcases List.mem_append.1 hp with hp | hp
    · rw [hf.other _ (hk.apart hmem p hp), hk.sent p hp]
    · obtain rfl := List.mem_singleton.1 hp
      exact hself
  · intro p hp
    have hrest := hk.waiting_tail hw
    obtain ⟨hp, hne⟩ := List.mem_filter.1 (hrest ▸ hp)
    rw [hf.other _ (by simpa using hne), hk.waiting p hp]

/-- Somebody who waits does not succeed. -/
theorem dropped (hk : Kept r) (hf : Fated r r' w fate) (hfate : fate ≠ some (.ok ()))
    (hmem : (w, frame) ∈ r.transport.waiting)
    (hw : r'.transport.waiting = r.transport.waiting.filter (·.1 ≠ w))
    (hs : r'.transport.sent = r.transport.sent) (hl : r'.leaving = r.leaving) : Kept r' := by
  have hopen : r.fates w = [] := hk.waiting _ hmem
  have hself : r'.fates w = [fate] := by rw [hf.self, hopen]; rfl
  obtain ⟨hlt, hstays⟩ := hk.present hmem
  refine ⟨by rw [hf.starts, hf.writers, hk.started], hf.once hk hopen, hf.ahead hk hlt,
    hk.order_parted hmem hf.starts (fun v => ?_) hw hs, ?_, ?_,
    fun p hp => hf.leaving hk (hl ▸ hp) (hstays p (hl ▸ hp)), hl ▸ hk.distinct⟩
  · by_cases hv : v = w
    · subst hv
      simp [Run.parted, miscarried_of_ne hfate hself]
    · simp [parted_congr hl (hf.other v hv), hv]
  · intro p hp
    rw [hs] at hp
    rw [hf.other _ (hk.apart hmem p hp), hk.sent p hp]
  · intro p hp
    rw [hw] at hp
    obtain ⟨hp, hne⟩ := List.mem_filter.1 hp
    rw [hf.other _ (by simpa using hne), hk.waiting p hp]

/-- A write that had given up its turn closes the transport and ends. -/
theorem shut (hk : Kept r) (hf : Fated r r' w fate) (hfate : fate ≠ some (.ok ()))
    {result : WriteResult} (hmem : (w, result) ∈ r.leaving)
    (hw : r'.transport.waiting = r.transport.waiting) (hs : r'.transport.sent = r.transport.sent)
    (hl : r'.leaving = r.leaving.filter (·.1 ≠ w)) : Kept r' := by
  obtain ⟨hlt, hopen, -⟩ := hk.leaving _ hmem
  have hself : r'.fates w = [fate] := by rw [hf.self, hopen]; rfl
  have happart : ∀ p ∈ r.transport.sent ++ r.transport.waiting, p.1 ≠ w := by
    intro p hp he
    rcases List.mem_append.1 hp with hp | hp
    · have hbad := hk.sent p hp
      rw [he, hopen] at hbad
      cases hbad
    · exact (hk.present hp).2 _ hmem he.symm
  refine ⟨by rw [hf.starts, hf.writers, hk.started], hf.once hk hopen, hf.ahead hk hlt,
    ?_, fun p hp => ?_, fun p hp => ?_, fun p hp => ?_,
    hl ▸ hk.distinct.sublist (List.filter_sublist.map _)⟩
  · have hsame : ∀ v, r'.parted v = r.parted v := by
      intro v
      by_cases hv : v = w
      · subst hv
        have hany : r.leaving.any (·.1 = v) = true := List.any_eq_true.2 ⟨_, hmem, by simp⟩
        simp [Run.parted, miscarried_of_ne hfate hself, hany]
      · have hany : r'.leaving.any (·.1 = v) = r.leaving.any (·.1 = v) := by
          rw [hl, List.any_filter]
          congr 1
          funext p
          by_cases hp : p.1 = v <;> simp [hp, hv]
        simp [Run.parted, hany, miscarried_congr (hf.other v hv)]
    simp only [hf.starts, hs, hw, hsame, hk.order]
  · rw [hs] at hp
    rw [hf.other _ (happart p (List.mem_append_left _ hp)), hk.sent p hp]
  · rw [hw] at hp
    rw [hf.other _ (happart p (List.mem_append_right _ hp)), hk.waiting p hp]
  · rw [hl] at hp
    obtain ⟨hp, hne⟩ := List.mem_filter.1 hp
    exact hf.leaving hk hp (by simpa using hne)

end Fate

/-- The write of the first who waits breaks, and it has yet to close the transport. -/
theorem broke (hk : Kept r) {t : Transport} {result : WriteResult} (hb : breaks result = true)
    (hw : r.transport.waiting = (w, frame) :: t.waiting) (hs : t.sent = r.transport.sent) :
    Kept { r with transport := t, leaving := r.leaving ++ [(w, result)] } := by
  have hmem : (w, frame) ∈ r.transport.waiting := hw ▸ List.mem_cons_self
  have hrest := hk.waiting_tail hw
  refine ⟨hk.started, hk.once, hk.ahead, hk.order_parted hmem rfl (fun v => ?_) hrest hs,
    fun p hp => hk.sent p (hs ▸ hp), fun p hp => ?_, fun p hp => ?_, ?_⟩
  · have hsame : Run.miscarried { r with transport := t, leaving := r.leaving ++ [(w, result)] } v =
        r.miscarried v := rfl
    by_cases hv : w = v <;> simp [Run.parted, hsame, hv, eq_comm]
  · exact hk.waiting p (List.mem_filter.1 (hrest ▸ hp)).1
  · rcases List.mem_append.1 hp with hp | hp
    · exact hk.leaving p hp
    · obtain rfl := List.mem_singleton.1 hp
      exact ⟨(hk.present hmem).1, hk.waiting _ hmem, hb⟩
  · rw [List.map_append, List.nodup_append]
    refine ⟨hk.distinct, by simp, fun v hv u hu => ?_⟩
    obtain ⟨p, hp, rfl⟩ := List.mem_map.1 hv
    exact List.mem_singleton.1 hu ▸ (hk.present hmem).2 p hp

/-- A write starts and gets in line. -/
theorem queued (hk : Kept r) (hstarts : r'.starts = r.starts ++ [(r.writers, frame)])
    (hwriters : r'.writers = r.writers + 1) (hfates : ∀ v, r'.fates v = r.fates v)
    (hs : r'.transport.sent = r.transport.sent)
    (hw : r'.transport.waiting = r.transport.waiting ++ [(r.writers, frame)])
    (hl : r'.leaving = r.leaving) : Kept r' := by
  have hnew : r.fates r.writers = [] := hk.ahead _ (Nat.le_refl _)
  refine ⟨?_, fun v => hfates v ▸ hk.once v, fun v hv => ?_, ?_, fun p hp => ?_, fun p hp => ?_,
    fun p hp => ?_, hl ▸ hk.distinct⟩
  · rw [hstarts, List.map_append, hk.started, hwriters, List.range_succ]
    rfl
  · rw [hfates, hk.ahead v (by rw [hwriters] at hv; exact Nat.le_of_succ_le hv)]
  · have hstays : r.leaving.any (·.1 = r.writers) = false := by
      refine List.any_eq_false.2 fun p hp => ?_
      simpa using Nat.ne_of_lt (hk.leaving p hp).1
    have hparted : r.parted r.writers = false := by
      rw [Run.parted, hstays]
      simp [Run.miscarried, hnew]
    simp only [parted_congr hl (hfates _), hstarts, List.filter_append, hk.order, hs, hw,
      List.append_assoc]
    simp [hparted]
  · rw [hfates, hk.sent p (hs ▸ hp)]
  · rw [hw] at hp
    rcases List.mem_append.1 hp with hp | hp
    · rw [hfates, hk.waiting p hp]
    · obtain rfl := List.mem_singleton.1 hp
      rw [hfates, hnew]
  · obtain ⟨hlt, hopen, hb⟩ := hk.leaving p (hl ▸ hp)
    exact ⟨hwriters ▸ Nat.lt_succ_of_lt hlt, (hfates _).trans hopen, hb⟩

end Kept

/-! ## Every schedule -/

theorem waiting_rest {t : Transport} {line : List (WriterId × String)} (hturn : t.turn = none) :
    waiting { t with line := line } = line := by
  simp [waiting, hturn]

theorem waiting_line {t : Transport} {line : List (WriterId × String)} (hturn : t.turn = none)
    (hline : t.line = line) : t.waiting = line := by
  simp [waiting, hturn, hline]

theorem waiting_queue (t : Transport) (entry : WriterId × String) :
    waiting { t with line := t.line ++ [entry] } = t.waiting ++ [entry] := by
  simp [waiting]

/-- An entry that tells the fate of a write. -/
theorem fated_note {r : Run} {t : Transport} {w : WriterId} {fate : Option WriteResult} {e : Entry}
    {l : Endings} (hs : e.start? = none)
    (he : ∀ v, e.fate? v = if w = v then some fate else none) :
    Kept.Fated r (({ r with transport := t, leaving := l } : Run).note [e]) w fate where
  starts := by
    rw [Run.starts_note]
    show r.starts ++ _ = _
    simp [hs]
  writers := rfl
  self := by
    rw [Run.fates_note]
    show r.fates w ++ _ = _
    simp [he]
  other v hv := by
    rw [Run.fates_note]
    show r.fates v ++ _ = _
    simp [he, Ne.symm hv]

/-- Entries that tell of no write. -/
theorem Kept.quiet {r : Run} (hk : Kept r) {t : Transport} {entries : List Entry} {now : Nanos}
    (hs : ∀ e ∈ entries, e.start? = none) (hf : ∀ e ∈ entries, ∀ w, e.fate? w = none)
    (hsent : t.sent = r.transport.sent) (hwaiting : t.waiting = r.transport.waiting) :
    Kept ({ r with transport := t, now := now }.note entries) := by
  refine hk.same ?_ rfl (fun w => ?_) hsent hwaiting rfl
  · rw [Run.starts_note, List.filterMap_eq_nil_iff.2 hs]
    exact List.append_nil _
  · rw [Run.fates_note, List.filterMap_eq_nil_iff.2 fun e he => hf e he w]
    exact List.append_nil _

theorem kept_move {r : Run} (hk : Kept r) : Kept (r.act .move) := by
  cases hp : r.transport.poll? r.now with
  | none => simpa [Run.act, hp] using hk
  | some m =>
    obtain ⟨t', ending⟩ := m
    rw [act_move hp]
    cases poll?_moved hp with
    | broke hw _ hb =>
      rw [proceed_broke _ _ _ hb]
      exact hk.broke hb hw rfl
    | took hw => exact hk.took (fated_note rfl fun _ => rfl) hw rfl rfl
    | refused hturn hline =>
      have hw := waiting_line hturn hline
      exact hk.dropped (fated_note rfl fun _ => rfl) (by simp) (hw ▸ List.mem_cons_self)
        ((waiting_rest hturn).trans (hk.waiting_tail hw)) rfl rfl
    | turned hturn hline =>
      exact hk.same rfl rfl (fun _ => rfl) rfl (waiting_line hturn hline).symm rfl

theorem kept_shut {r : Run} (hk : Kept r) (w : WriterId) : Kept (r.act (.shut w)) := by
  rcases act_shut r w with ⟨-, hsame⟩ | ⟨result, hmem, heq⟩
  · rw [hsame]
    exact hk
  · have hfate : some result ≠ some (.ok ()) := by
      rintro ⟨⟩
      cases (hk.leaving _ hmem).2.2
    rw [heq]
    exact hk.shut (fated_note rfl fun _ => rfl) hfate hmem rfl rfl rfl

/-- A write that waits has its frame among those that wait. -/
theorem mem_waiting_of_isWaiting {t : Transport} {w : WriterId} (h : t.isWaiting w = true) :
    ∃ frame, (w, frame) ∈ t.waiting := by
  unfold isWaiting at h
  rw [Bool.or_eq_true] at h
  rcases h with h | h
  · obtain ⟨turn, hturn, hw⟩ := (Option.any_eq_true _ _).1 h
    obtain rfl : turn.writer = w := by simpa using hw
    exact ⟨turn.frame, by simp [waiting, hturn]⟩
  · obtain ⟨⟨v, frame⟩, hmem, hw⟩ := List.any_eq_true.1 h
    obtain rfl : v = w := by simpa using hw
    exact ⟨frame, List.mem_append_right _ hmem⟩

theorem kept_queue {r : Run} (hk : Kept r) (frame : String) : Kept (r.queue frame) :=
  have hstarts : (r.queue frame).starts = r.starts ++ [(r.writers, frame)] := Run.starts_note ..
  hk.queued hstarts rfl (fun _ => (Run.fates_note ..).trans (List.append_nil _)) rfl
    (waiting_queue ..) rfl

theorem kept_meet {r : Run} (hk : Kept r) (e : Event) : Kept (r.meet e) := by
  cases e with
  | write frame =>
    simp only [Run.meet]
    split
    · have hwaiting : (r.queue frame).transport.waiting =
          r.transport.waiting ++ [(r.writers, frame)] := waiting_queue ..
      have hmem : (r.writers, frame) ∈ (r.queue frame).transport.waiting := by simp [hwaiting]
      have hfated : Kept.Fated (r.queue frame) _ r.writers (some (.error .closed)) :=
        fated_note (t := r.transport) (e := .ended r.writers (.error .closed)) (l := r.leaving) rfl
          fun _ => rfl
      have hothers : ∀ p ∈ r.transport.waiting, p.1 ≠ r.writers :=
        fun p hp he => Nat.lt_irrefl _ (he ▸ (hk.present hp).1)
      refine (kept_queue hk frame).dropped hfated (by simp) hmem ?_ rfl rfl
      rw [hwaiting, List.filter_append,
        List.filter_eq_self.2 fun p hp => decide_eq_true (hothers p hp)]
      simp [Run.note, Run.moved]
    · exact kept_queue hk frame
  | abandon w =>
    simp only [Run.meet, Run.happen]
    split
    · next hw =>
      obtain ⟨frame, hmem⟩ := mem_waiting_of_isWaiting hw
      have hfated : Kept.Fated r _ w none :=
        fated_note (t := r.transport.abandon w) (e := .abandoned w) (l := r.leaving)
          rfl fun _ => rfl
      exact hk.dropped hfated (by simp) hmem (waiting_abandon ..) rfl rfl
    · exact hk
  | read | dropReader =>
    exact hk.quiet (List.forall_mem_map.2 fun _ _ => rfl) (List.forall_mem_map.2 fun _ _ _ => rfl)
      rfl rfl
  | close => exact hk.quiet (by simp [Entry.start?]) (by simp [Entry.fate?]) rfl rfl
  | advance d => exact hk.same rfl rfl (fun _ => rfl) rfl rfl rfl

/-- The fates of writes are in order after every action. -/
theorem kept_act {r : Run} (hk : Kept r) (a : Action) : Kept (r.act a) := by
  cases a with
  | event e => exact kept_meet hk e
  | move => exact kept_move hk
  | shut w => exact kept_shut hk w

theorem kept_acts {r : Run} (hk : Kept r) (actions : List Action) : Kept (r.acts actions) := by
  induction actions generalizing r with
  | nil => exact hk
  | cons a actions ih => exact ih (kept_act hk a)

theorem kept_opened (session : String) (buffer : Nat) (writeTimeout : Nanos) :
    Kept (.start (.opened session buffer writeTimeout)) := by
  constructor <;> simp [Run.start, Run.starts, Run.fates, opened, waiting]

/-! ## The channel -/

/-- What the reader has got, what went away with it and what it may still get are the frames that
were taken; the channel is never overfull. -/
structure Held (room : Nat) (r : Run) : Prop where
  capacity : r.transport.capacity = room
  room : r.transport.channel.length ≤ room
  frames : r.transport.sent.map (·.2) = r.reads ++ r.losses ++ r.transport.channel
  losses : r.transport.receiving = true → r.losses = []
  gone : r.transport.receiving = false → r.transport.channel = []

namespace Held

variable {room : Nat} {r : Run}

/-- The reader has seen nothing, and the channel is as it was. -/
theorem same {r' : Run} (hh : Held room r) (hreads : r'.reads = r.reads)
    (hlosses : r'.losses = r.losses) (ht : r'.transport = { r.transport with
      turn := r'.transport.turn, line := r'.transport.line, closed := r'.transport.closed }) :
    Held room r' := by
  have hcapacity : r'.transport.capacity = r.transport.capacity := by rw [ht]
  have hreceiving : r'.transport.receiving = r.transport.receiving := by rw [ht]
  have hchannel : r'.transport.channel = r.transport.channel := by rw [ht]
  have hsent : r'.transport.sent = r.transport.sent := by rw [ht]
  constructor
  · exact hcapacity.trans hh.capacity
  · exact hchannel ▸ hh.room
  · rw [hreads, hlosses, hchannel, hsent, hh.frames]
  · rw [hreceiving, hlosses]
    exact hh.losses
  · rw [hreceiving, hchannel]
    exact hh.gone

/-- Entries that tell nothing of the reader, and a transport with the same channel. -/
theorem quiet (hh : Held room r) {t : Transport} {entries : List Entry} {now : Nanos}
    {writers : Nat} {leaving : Endings} (hr : ∀ e ∈ entries, e.read? = none)
    (hl : ∀ e ∈ entries, e.lost? = none)
    (ht : t = { r.transport with turn := t.turn, line := t.line, closed := t.closed }) :
    Held room (({ transport := t, now, writers, record := r.record, leaving } : Run).note entries)
    := by
  refine hh.same ?_ ?_ ht
  · rw [Run.reads_note, List.filterMap_eq_nil_iff.2 hr]
    exact List.append_nil _
  · rw [Run.losses_note, List.filterMap_eq_nil_iff.2 hl]
    exact List.append_nil _

/-- A frame is taken. -/
theorem took (hh : Held room r) {t : Transport} {w : WriterId} {frame : String}
    (hreceiving : r.transport.receiving = true) (hroom : r.transport.hasRoom = true)
    (ht : t = { r.transport.put w frame with turn := t.turn, line := t.line }) :
    Held room (r.moved (t, [(w, .ok ())])) := by
  have hreads : (r.moved (t, [(w, .ok ())])).reads = r.reads :=
    (Run.reads_note ..).trans (List.append_nil _)
  have hlosses : (r.moved (t, [(w, .ok ())])).losses = r.losses :=
    (Run.losses_note ..).trans (List.append_nil _)
  have hchannel : t.channel = r.transport.channel ++ [frame] := congrArg Transport.channel ht
  refine ⟨(congrArg Transport.capacity ht).trans hh.capacity, ?_, ?_, ?_, ?_⟩
  · show t.channel.length ≤ room
    rw [hchannel, List.length_append, ← hh.capacity]
    exact Nat.succ_le_of_lt (of_decide_eq_true hroom)
  · rw [hreads, hlosses]
    show t.sent.map _ = _ ++ t.channel
    rw [hchannel, show t.sent = _ from congrArg Transport.sent ht]
    simp [put, hh.frames]
  · rw [hlosses]
    exact fun _ => hh.losses hreceiving
  · have hr : t.receiving = r.transport.receiving := by rw [ht]; rfl
    exact fun h => absurd (hreceiving.symm.trans (hr.symm.trans h)) (by simp)

/-- Frames come to the reader. -/
theorem read (hh : Held room r) (n : Nat) : Held room (r.meet (.read n)) := by
  let frames := r.transport.channel.take n
  have hreads : (r.meet (.read n)).reads = r.reads ++ frames := by
    refine (Run.reads_note ..).trans (congrArg (r.reads ++ ·) ?_)
    show (frames.map Entry.read).filterMap Entry.read? = frames
    simp [List.filterMap_map, Function.comp_def, Entry.read?]
  have hlosses : (r.meet (.read n)).losses = r.losses := by
    refine (Run.losses_note ..).trans ?_
    rw [List.filterMap_eq_nil_iff.2 (List.forall_mem_map.2 fun _ _ => rfl)]
    exact List.append_nil _
  have hchannel : (r.meet (.read n)).transport.channel = r.transport.channel.drop n := rfl
  refine ⟨hh.capacity, ?_, ?_, ?_, ?_⟩
  · rw [hchannel, List.length_drop]
    exact Nat.le_trans (Nat.sub_le ..) hh.room
  · show r.transport.sent.map _ = _
    rw [hh.frames, hreads, hlosses, hchannel]
    cases hr : r.transport.receiving with
    | true => simp [hh.losses hr, frames]
    | false => simp [hh.gone hr, frames]
  · rw [hlosses]
    exact hh.losses
  · intro hr
    rw [hchannel, hh.gone hr, List.drop_nil]

/-- The reader goes away, and unread frames with it. -/
theorem deserted (hh : Held room r) : Held room (r.meet .dropReader) := by
  have hreads : (r.meet .dropReader).reads = r.reads := by
    refine (Run.reads_note ..).trans ?_
    rw [List.filterMap_eq_nil_iff.2 (List.forall_mem_map.2 fun _ _ => rfl)]
    exact List.append_nil _
  have hlosses : (r.meet .dropReader).losses = r.losses ++ r.transport.channel := by
    refine (Run.losses_note ..).trans (congrArg (r.losses ++ ·) ?_)
    simp [List.filterMap_map, Function.comp_def, Entry.lost?]
  refine ⟨hh.capacity, Nat.zero_le _, ?_, fun hr => ?_, fun _ => rfl⟩
  · show r.transport.sent.map _ = _ ++ []
    rw [hreads, hlosses, hh.frames, List.append_nil, List.append_assoc]
  · cases hr

end Held

theorem held_move {room : Nat} {r : Run} (hh : Held room r) : Held room (r.act .move) := by
  cases hp : r.transport.poll? r.now with
  | none => simpa [Run.act, hp] using hh
  | some m =>
    obtain ⟨t', ending⟩ := m
    rw [act_move hp]
    cases poll?_moved hp with
    | broke _ _ hb =>
      rw [proceed_broke _ _ _ hb]
      exact hh.same rfl rfl rfl
    | took _ _ hreceiving hroom => exact hh.took hreceiving hroom rfl
    | refused => exact hh.quiet (by simp [Entry.read?]) (by simp [Entry.lost?]) rfl
    | turned => exact hh.same rfl rfl rfl

theorem held_shut {room : Nat} {r : Run} (hh : Held room r) (w : WriterId) :
    Held room (r.act (.shut w)) := by
  rcases act_shut r w with ⟨-, hsame⟩ | ⟨result, -, heq⟩
  · rw [hsame]
    exact hh
  · rw [heq]
    exact hh.quiet (by simp [Entry.read?]) (by simp [Entry.lost?]) rfl

theorem held_meet {room : Nat} {r : Run} (hh : Held room r) (e : Event) :
    Held room (r.meet e) := by
  cases e with
  | write frame =>
    have hqueue : Held room (r.queue frame) :=
      hh.quiet (by simp [Entry.read?]) (by simp [Entry.lost?]) rfl
    simp only [Run.meet]
    split
    · exact hqueue.quiet (by simp [Entry.read?]) (by simp [Entry.lost?]) rfl
    · exact hqueue
  | abandon w =>
    simp only [Run.meet, Run.happen]
    split
    · exact hh.quiet (by simp [Entry.read?]) (by simp [Entry.lost?]) rfl
    · exact hh
  | read n => exact hh.read n
  | dropReader => exact hh.deserted
  | close => exact hh.quiet (by simp [Entry.read?]) (by simp [Entry.lost?]) rfl
  | advance d => exact ⟨hh.capacity, hh.room, hh.frames, hh.losses, hh.gone⟩

theorem held_act {room : Nat} {r : Run} (hh : Held room r) (a : Action) : Held room (r.act a) := by
  cases a with
  | event e => exact held_meet hh e
  | move => exact held_move hh
  | shut w => exact held_shut hh w

theorem held_acts {room : Nat} {r : Run} (hh : Held room r) (actions : List Action) :
    Held room (r.acts actions) := by
  induction actions generalizing r with
  | nil => exact hh
  | cons a actions ih => exact ih (held_act hh a)

theorem held_opened (session : String) (buffer : Nat) (writeTimeout : Nanos) :
    Held (max buffer 1) (.start (.opened session buffer writeTimeout)) := by
  constructor <;> simp [Run.start, Run.reads, Run.losses, opened]

/-! ## Every frame once and in order -/

/-- What every run keeps of its promises. A write has at most one fate; the channel has taken the
frames of the writes that succeeded, each once, in the order in which they were started, and none
else; they came to the reader in this order, those that went away with it and those in the channel
being the last; and there are never more in the channel than there is room for. -/
structure Faithful (buffer : Nat) (r : Run) : Prop where
  started : r.starts.map (·.1) = List.range r.writers
  once : ∀ w, (r.fates w).length ≤ 1
  taken : r.transport.sent = r.starts.filter fun p => r.succeeded p.1
  only : ∀ w frame, (w, frame) ∈ r.transport.sent → r.fates w = [some (.ok ())]
  read : r.transport.sent.map (·.2) = r.reads ++ r.losses ++ r.transport.channel
  lost : r.transport.receiving = true → r.losses = []
  room : r.transport.channel.length ≤ max buffer 1

/-- Whose write succeeded has not parted. -/
theorem Kept.not_parted_of_succeeded {r : Run} (hk : Kept r) {w : WriterId}
    (hs : r.succeeded w = true) : r.parted w = false := by
  have hfates : r.fates w = [some (.ok ())] := by
    have honce := hk.once w
    unfold Run.succeeded at hs
    match hf : r.fates w, honce with
    | [], _ | [none], _ | [some (.error _)], _ => simp [hf] at hs
    | [some (.ok ())], _ => rfl
  have hstays : r.leaving.any (·.1 = w) = false := by
    refine List.any_eq_false.2 fun p hp he => ?_
    obtain rfl : p.1 = w := by simpa using he
    cases hfates.symm.trans (hk.leaving p hp).2.1
  rw [Run.parted, hstays, Run.miscarried, hfates]
  rfl

/-- The ones that succeeded are among those that did not part. -/
theorem Kept.taken {r : Run} (hk : Kept r) :
    r.transport.sent = r.starts.filter fun p => r.succeeded p.1 := by
  have hsent : ∀ p ∈ r.transport.sent, r.succeeded p.1 = true := fun p hp => by
    simp [Run.succeeded, hk.sent p hp]
  have hwaiting : ∀ p ∈ r.transport.waiting, ¬ r.succeeded p.1 = true := fun p hp => by
    simp [Run.succeeded, hk.waiting p hp]
  have hboth : (r.starts.filter fun p => !r.parted p.1).filter (fun p => r.succeeded p.1) =
      r.starts.filter fun p => r.succeeded p.1 := by
    rw [List.filter_filter]
    refine List.filter_congr fun p _ => ?_
    cases hs : r.succeeded p.1 with
    | false => rfl
    | true => simp [hk.not_parted_of_succeeded hs]
  rw [← hboth, hk.order, List.filter_append, List.filter_eq_self.2 hsent,
    List.filter_eq_nil_iff.2 hwaiting, List.append_nil]

/-- Whatever writers, readers and the clock do to a new transport, and in whatever order: no frame
is lost, doubled, out of place or torn. Every run is such a schedule. -/
theorem frames_faithful (session : String) (buffer : Nat) (writeTimeout : Nanos) :
    (∀ actions, Faithful buffer (exec (.opened session buffer writeTimeout) actions)) ∧
    ∀ events, ∃ actions, run (.opened session buffer writeTimeout) events =
      exec (.opened session buffer writeTimeout) actions := by
  refine ⟨fun actions => ?_, fun events => (run_exec _ events).imp fun _ h => h.2⟩
  have hk : Kept (exec (.opened session buffer writeTimeout) actions) :=
    kept_acts (kept_opened ..) actions
  have hh : Held (max buffer 1) (exec (.opened session buffer writeTimeout) actions) :=
    held_acts (held_opened ..) actions
  exact ⟨hk.started, hk.once, hk.taken, fun w frame hp => hk.sent _ hp, hh.frames, hh.losses,
    hh.room⟩

end EditorBridge.Transport
