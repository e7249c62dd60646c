import EditorBridge.Proofs.Broker.Step
import Mathlib.Algebra.Group.Nat.Defs
import Mathlib.Data.List.Basic
/-!
# The ids of commands

An id joins the time and the number of its command by a dash. The time may begin
with a dash of its own, but the number is what stands behind the last one, so it
can be told from the text whatever the clock said. The numbers run through all
64-bit words before one comes again: among the first 2^64 commands of a run no
two have the same id.
-/

namespace EditorBridge.Broker

/-! ## The number behind the last dash -/

/-- What stands behind the last of some separators is told by the whole text. -/
theorem suffix_eq_of_append_eq {α : Type} {sep : α} {a b x y : List α} (hx : sep ∉ x) (hy : sep ∉ y)
    (h : a ++ sep :: x = b ++ sep :: y) : x = y := by
  rcases List.append_eq_append_iff.1 h with ⟨c, rfl, hc⟩ | ⟨c, rfl, hc⟩
  · cases c with
    | nil => exact (List.cons.inj hc).2
    | cons s c =>
      have : sep ∈ x := by rw [(List.cons.inj hc).2]; simp
      exact absurd this hx
  · cases c with
    | nil => exact (List.cons.inj hc).2.symm
    | cons s c =>
      have : sep ∈ y := by rw [(List.cons.inj hc).2]; simp
      exact absurd this hy

theorem dash_notMem_toDigits (n : Nat) : '-' ∉ Nat.toDigits 10 n := fun h => by
  have := Nat.isDigit_of_mem_toDigits (by decide) (by decide) h
  exact absurd this (by decide)

theorem toDigits_injective {m n : Nat} (h : Nat.toDigits 10 m = Nat.toDigits 10 n) : m = n := by
  rw [← Nat.ofDigitChars_ten_toDigits (n := m), h, Nat.ofDigitChars_ten_toDigits]

/-- Ids of different numbers are different, whatever the clock said. -/
theorem commandId_number {w w' : Timestamp} {n n' : UInt64} (h : commandId w n = commandId w' n') :
    n = n' := by
  have chars : ∀ (w : Timestamp) (n : UInt64), (commandId w n).toList =
      ("cmd-" ++ toString (w.nanos64?.getD 0)).toList ++ '-' :: Nat.toDigits 10 n.toNat := by
    intro w n
    have hdash : "-".toList = ['-'] := by decide
    simp [commandId, String.toList_append, hdash]
  have hl := congrArg String.toList h
  rw [chars, chars] at hl
  have hd := suffix_eq_of_append_eq (dash_notMem_toDigits _) (dash_notMem_toDigits _) hl
  exact UInt64.toNat_inj.1 (toDigits_injective hd)

/-! ## The ids of a run -/

/-- The ids given out, in their order. -/
def Record.issued (l : Record) : List String :=
  l.filterMap fun
    | (_, .registered _ id _) => some id
    | _ => none

theorem Record.mem_issued {l : Record} {id : String} :
    id ∈ l.issued ↔ ∃ call o, l.Registered call id o := by
  simp only [issued, List.mem_filterMap]
  constructor
  · rintro ⟨⟨t, e⟩, hm, he⟩
    cases e with
    | registered call id' o =>
      cases he
      exact ⟨call, o, t, hm⟩
    | _ => cases he
  · rintro ⟨call, o, t, hm⟩
    exact ⟨_, hm, rfl⟩

namespace Run

/-- The ids given out so far carry the numbers from one on. -/
def Numbered (r : Run) : Prop :=
  ∃ walls : List Timestamp,
    r.record.issued = walls.mapIdx (fun n wall => commandId wall (UInt64.ofNat (n + 1))) ∧
    r.broker.sequence = UInt64.ofNat walls.length ∧ walls.length ≤ r.calls

theorem numbered_step {r r' : Run} (h : r.Numbered) (hs : r.Stepped r') : r'.Numbered := by
  obtain ⟨walls, hi, hn, hc⟩ := h
  cases hs with
  | registered o wall =>
    have hseq : r.broker.sequence + 1 = UInt64.ofNat (walls.length + 1) := by
      rw [hn, UInt64.ofNat_add]; rfl
    refine ⟨walls ++ [wall], ?_, ?_, ?_⟩
    · change List.filterMap _ (r.record ++ [_]) = _
      rw [List.filterMap_append, List.mapIdx_append, hseq]
      refine congrArg₂ (· ++ ·) hi ?_
      simp
    · rw [List.length_append, List.length_singleton, ← hseq]
      simp [enroll, register]
    · rw [List.length_append]
      exact Nat.succ_le_succ hc
  | refused e => exact ⟨walls, by simpa [Record.issued, note] using hi, hn, Nat.le_succ_of_le hc⟩
  | nothing => exact ⟨walls, hi, hn, hc⟩
  | advanced d => exact ⟨walls, hi, hn, hc⟩
  | claimed => exact ⟨walls, hi, hn, hc⟩
  | _ => exact ⟨walls, by simpa [Record.issued, note] using hi, by simpa using hn, hc⟩

theorem numbered_run (d : Nanos) (events : List Event) : (run (.empty d) events).Numbered :=
  run_induction _ ⟨[], rfl, rfl, Nat.le_refl _⟩ (fun _ _ => numbered_step) events

/-- Not every call is given an id. -/
theorem issued_length_le {r : Run} (h : r.Numbered) : r.record.issued.length ≤ r.calls := by
  obtain ⟨walls, hi, -, hw⟩ := h
  rwa [hi, List.length_mapIdx]

/-- The first 2^64 numbers are different words. -/
theorem nodup_issued {r : Run} (h : r.Numbered) (hc : r.record.issued.length ≤ 2 ^ 64) :
    r.record.issued.Nodup := by
  obtain ⟨walls, hi, -, -⟩ := h
  rw [hi, List.length_mapIdx] at hc
  rw [hi, List.nodup_iff_pairwise_ne, List.pairwise_iff_getElem]
  intro i j hli hlj hij he
  simp only [List.length_mapIdx] at hli hlj
  simp only [List.getElem_mapIdx] at he
  have := congrArg UInt64.toNat (commandId_number he)
  simp only [UInt64.toNat_ofNat'] at this
  omega

/-- Among the first 2^64 commands of a run no two have the same id. -/
theorem ownId {r : Run} (h : r.Numbered) (hc : r.record.issued.length ≤ 2 ^ 64) {call : CallId}
    {id : String} {o : Order} (hr : r.record.Registered call id o) : r.record.OwnId call id := by
  rintro other o' ⟨t', h'⟩
  obtain ⟨t, hr⟩ := hr
  have hd := List.pairwise_filterMap.1 (nodup_issued h hc)
  let Same (x y : Nanos × Entry) : Prop :=
    x = (t', .registered other id o') → y = (t, .registered call id o) → x = y
  have same : ∀ ⦃x⦄, x ∈ r.record → ∀ ⦃y⦄, y ∈ r.record → Same x y := by
    refine List.Pairwise.forall_of_forall_of_flip (fun _ _ hx hy => ?_) ?_ ?_
    · rfl
    · refine hd.imp fun {x y} hxy hx hy => absurd rfl (hxy id ?_ id ?_) <;> simp [hx, hy]
    · refine hd.imp fun {x y} hxy hy hx => absurd rfl (hxy id ?_ id ?_) <;> simp [hx, hy]
  have := same h' hr rfl rfl
  simp only [Prod.mk.injEq, Entry.registered.injEq] at this
  exact this.2.1

end Run

end EditorBridge.Broker
