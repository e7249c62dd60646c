import EditorBridge.Proofs.Transport
import EditorBridge.Transport.Schedule
/-!
# The steps of writers

What the step of one writer can do, and that runs are made of such steps. Where
everything that can move moves at once, a write that breaks closes the transport
before anybody else moves: a run is a prompt schedule.
-/

namespace EditorBridge.Transport

/-! ## One step -/

/-- What the step of a writer can do. -/
inductive Moved (t : Transport) : Transport → Option (WriterId × WriteResult) → Prop
  /-- The first who waits finds no reader or runs out of time. -/
  | broke {writer : WriterId} {frame : String} {line : List (WriterId × String)} {e : WriteError} :
      t.waiting = (writer, frame) :: line → (t.turn = none → t.closed = false) →
      breaks (.error e) = true → Moved t { t with turn := none, line := line }
        (some (writer, .error e))
  /-- The first who waits puts its frame into the channel. -/
  | took {writer : WriterId} {frame : String} {line : List (WriterId × String)} :
      t.waiting = (writer, frame) :: line → (t.turn = none → t.closed = false) →
      t.receiving = true → t.hasRoom = true →
      Moved t { t.put writer frame with turn := none, line := line }
        (some (writer, .ok ()))
  /-- The first in line comes too late. -/
  | refused {writer : WriterId} {frame : String} {line : List (WriterId × String)} :
      t.turn = none → t.line = (writer, frame) :: line → t.closed = true →
      Moved t { t with line := line } (some (writer, .error .closed))
  /-- The first in line gets its turn and has to wait for room. -/
  | turned {turn : Turn} {line : List (WriterId × String)} :
      t.turn = none → t.line = (turn.writer, turn.frame) :: line → t.closed = false →
      Moved t { t with turn := some turn, line := line } none

theorem poll?_moved {now : Nanos} {t t' : Transport} {ending : Option (WriterId × WriteResult)}
    (h : t.poll? now = some (t', ending)) : Moved t t' ending := by
  unfold poll? at h
  split at h
  · next writer frame deadline hturn =>
    have hwaiting : t.waiting = (writer, frame) :: t.line := by simp [waiting, hturn]
    have hturns : t.turn = none → t.closed = false := by simp [hturn]
    split_ifs at h with hreceiving hroom <;> cases h
    · exact .broke hwaiting hturns rfl
    · exact .took hwaiting hturns (by simpa using hreceiving) hroom
    · exact .broke hwaiting hturns rfl
  · cases h
  · next writer frame rest hturn hline =>
    have hwaiting : t.waiting = (writer, frame) :: rest := by simp [waiting, hturn, hline]
    split_ifs at h with hclosed hreceiving hroom <;> cases h
    · exact .refused hturn hline hclosed
    all_goals have hopen : t.turn = none → t.closed = false := fun _ => by simpa using hclosed
    · simpa only [hturn] using Moved.broke hwaiting hopen rfl
    · simpa only [put, hturn] using Moved.took hwaiting hopen (by simpa using hreceiving) hroom
    · simpa only [hturn] using Moved.broke hwaiting hopen rfl
    · exact .turned hturn hline (hopen hturn)

theorem act_move {r : Run} {m : Transport × Option (WriterId × WriteResult)}
    (h : r.transport.poll? r.now = some m) : r.act .move = r.proceed m := by
  simp [Run.act, h]

theorem proceed_broke (r : Run) (t : Transport) (w : WriterId) {result : WriteResult}
    (hb : breaks result = true) : r.proceed (t, some (w, result)) =
      { r with transport := t, leaving := r.leaving ++ [(w, result)] } := if_pos hb

/-- The step by which a write ends whose turn was given up before. -/
theorem act_shut (r : Run) (w : WriterId) :
    (∀ result, (w, result) ∉ r.leaving) ∧ r.act (.shut w) = r ∨
    ∃ result, (w, result) ∈ r.leaving ∧ r.act (.shut w) =
      ({ r with leaving := r.leaving.filter (·.1 ≠ w) } : Run).moved
        (r.transport.close.2, [(w, result)]) := by
  simp only [Run.act]
  cases hf : r.leaving.find? (·.1 = w) with
  | none =>
    exact .inl ⟨fun _ hmem => List.find?_eq_none.1 hf _ hmem (decide_eq_true rfl), rfl⟩
  | some ending =>
    obtain ⟨v, result⟩ := ending
    obtain rfl : v = w := by simpa using List.find?_some hf
    exact .inr ⟨result, List.mem_of_find?_eq_some hf, rfl⟩

/-! ## Runs are schedules -/

theorem acts_append (r : Run) (before later : List Action) :
    r.acts (before ++ later) = (r.acts before).acts later := List.foldl_append ..

theorem prompt_append {r : Run} {before later : List Action} (hb : r.Prompt before)
    (hl : (r.acts before).Prompt later) : r.Prompt (before ++ later) := by
  induction before generalizing r with
  | nil => exact hl
  | cons a before ih => exact ⟨hb.1, ih hb.2 hl⟩

/-- A prompt schedule leads from one run to another. -/
def Run.Leads (r r' : Run) : Prop := ∃ actions, r.Prompt actions ∧ r' = r.acts actions

namespace Run.Leads

variable {r r' r'' : Run}

theorem refl (r : Run) : r.Leads r := ⟨[], trivial, rfl⟩

theorem trans (h : r.Leads r') (h' : r'.Leads r'') : r.Leads r'' := by
  obtain ⟨actions, hprompt, rfl⟩ := h
  obtain ⟨actions', hprompt', rfl⟩ := h'
  exact ⟨actions ++ actions', prompt_append hprompt hprompt', (acts_append ..).symm⟩

theorem event (r : Run) (e : Event) : r.Leads (r.meet e) :=
  ⟨[.event e], ⟨nofun, trivial⟩, rfl⟩

theorem move (hl : r.leaving = []) : r.Leads (r.act .move) := ⟨[.move], ⟨fun _ => hl, trivial⟩, rfl⟩

theorem shut (r : Run) (w : WriterId) : r.Leads (r.act (.shut w)) :=
  ⟨[.shut w], ⟨nofun, trivial⟩, rfl⟩

end Run.Leads

theorem moved_nil (r : Run) (t : Transport) : r.moved (t, []) = { r with transport := t } := by
  simp [Run.moved, Run.note]

theorem moved_cons (r : Run) (t t' : Transport) (e : WriterId × WriteResult) (es : Endings) :
    r.moved (t', e :: es) = (r.moved (t, [e])).moved (t', es) := by
  simp [Run.moved, Run.note]

/-- A write ends at once: it gives up its turn and, if it broke, closes the transport. -/
theorem leads_ended {r : Run} (hl : r.leaving = []) {t : Transport} {w : WriterId}
    {result : WriteResult} (hp : r.transport.poll? r.now = some (t, some (w, result))) :
    r.Leads (r.moved (t.leave result, [(w, result)])) := by
  have hmove : r.Leads (r.proceed (t, some (w, result))) := act_move hp ▸ .move hl
  cases hb : breaks result with
  | false => simpa [Run.proceed, leave, hb] using hmove
  | true =>
    refine hmove.trans ?_
    rw [proceed_broke _ _ _ hb, hl]
    simpa [Run.act, leave, hb, hl, Run.moved, Run.note] using
      Run.Leads.shut ({ r with transport := t, leaving := [(w, result)] } : Run) w

theorem giveTurns_leads (line : List (WriterId × String)) (r : Run) (hl : r.leaving = [])
    (hturn : r.transport.turn = none) (hline : r.transport.line = line) :
    r.Leads (r.moved (giveTurns r.now line r.transport)) := by
  induction line generalizing r with
  | nil => simpa [giveTurns, ← hline, moved_nil] using Run.Leads.refl r
  | cons w line ih =>
    obtain ⟨writer, frame⟩ := w
    have next (t : Transport) (result : WriteResult) (ht : t.turn = none)
        (hp : r.transport.poll? r.now = some ({ t with line := line }, some (writer, result))) :
        r.Leads (r.moved ((giveTurns r.now line (t.leave result)).1,
          (writer, result) :: (giveTurns r.now line (t.leave result)).2)) := by
      have hleave : leave { t with line := line } result = { t.leave result with line := line } := by
        rw [leave_eq, leave_eq]
      have hrest := ih (r.moved (leave { t with line := line } result, [(writer, result)])) hl
        ((turn_leave ..).trans ht) (line_leave ..)
      rw [moved_cons, ← giveTurns_line r.now line line (t.leave result), ← hleave]
      exact (leads_ended hl hp).trans hrest
    unfold giveTurns
    split_ifs with hclosed hreceiving hroom htimeout
    · exact next r.transport _ hturn (by simp [poll?, hturn, hline, hclosed])
    · exact next r.transport _ hturn (by simp [poll?, hturn, hline, hclosed, hreceiving])
    · exact next (r.transport.put writer frame) _ hturn
        (by simp [poll?, hturn, hline, hclosed, hreceiving, hroom, put])
    · exact next r.transport _ hturn
        (by simp [poll?, hturn, hline, hclosed, hreceiving, hroom, htimeout])
    · have hp : r.transport.poll? r.now = some ({ r.transport with
          turn := some ⟨writer, frame, r.now + r.transport.writeTimeout⟩, line := line }, none) := by
        simp [poll?, hturn, hline, hclosed, hreceiving, hroom, htimeout]
      have hmove := Run.Leads.move hl
      rw [act_move hp] at hmove
      rw [moved_nil]
      exact hmove

theorem settle_leads (r : Run) (hl : r.leaving = []) : r.Leads r.settle := by
  unfold Run.settle settle
  cases hturn : r.transport.turn with
  | none => exact giveTurns_leads _ r hl hturn rfl
  | some turn =>
    have next (t : Transport) (result : WriteResult)
        (hp : r.transport.poll? r.now = some (t.release, some (turn.writer, result))) :
        r.Leads (r.moved (endTurn r.now turn.writer result t)) := by
      have hrest := giveTurns_leads t.line
        (r.moved (t.release.leave result, [(turn.writer, result)])) hl (turn_leave ..)
        (line_leave ..)
      rw [endTurn, moved_cons]
      exact (leads_ended hl hp).trans hrest
    dsimp only
    split_ifs with hreceiving hroom hdue
    · exact next r.transport _ (by simp [poll?, hturn, hreceiving])
    · exact next (r.transport.put turn.writer turn.frame) _
        (by simp [poll?, hturn, hreceiving, hroom])
    · exact next r.transport _ (by simp [poll?, hturn, hreceiving, hroom, hdue])
    · rw [moved_nil]
      exact .refl r

/-- One event of a run is an event and steps of a prompt schedule, after which no write has yet to
close the transport. -/
theorem step_leads {r : Run} (hl : r.leaving = []) (e : Event) :
    r.Leads (r.step e) ∧ (r.step e).leaving = [] := by
  have hhappen : r.Leads (r.happen e) ∧ (r.happen e).leaving = [] := by
    cases e with
    | write frame =>
      refine ⟨?_, hl⟩
      cases hclosed : r.transport.closed with
      | true => simpa [Run.happen, Run.meet, write, hclosed] using Run.Leads.event r (.write frame)
      | false =>
        have hmeet : r.meet (.write frame) = r.queue frame := by simp [Run.meet, hclosed]
        have hwrite : r.happen (.write frame) = (r.queue frame).settle := by
          simp [Run.happen, write, hclosed, Run.queue, Run.settle]
          rfl
        rw [hwrite]
        exact (hmeet ▸ Run.Leads.event r (.write frame)).trans (settle_leads _ hl)
    | abandon w =>
      refine ⟨Run.Leads.event r (.abandon w), ?_⟩
      simp only [Run.happen]
      split
      · exact hl
      · exact hl
    | read n => exact ⟨Run.Leads.event r (.read n), hl⟩
    | dropReader => exact ⟨Run.Leads.event r .dropReader, hl⟩
    | close => exact ⟨Run.Leads.event r .close, hl⟩
    | advance d => exact ⟨Run.Leads.event r (.advance d), hl⟩
  exact ⟨hhappen.1.trans (settle_leads _ hhappen.2), hhappen.2⟩

/-- A run is one of the prompt schedules. -/
theorem run_exec (t : Transport) (events : List Event) :
    ∃ actions, (Run.start t).Prompt actions ∧ run t events = exec t actions := by
  have hall (r : Run) (hl : r.leaving = []) : r.Leads (events.foldl Run.step r) := by
    induction events generalizing r with
    | nil => exact .refl r
    | cons e events ih =>
      obtain ⟨hstep, hleft⟩ := step_leads hl e
      exact hstep.trans (ih _ hleft)
  exact hall (.start t) rfl

end EditorBridge.Transport
