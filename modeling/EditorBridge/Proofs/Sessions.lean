import EditorBridge.Proofs.Table
import EditorBridge.Session
import Mathlib.Tactic.SplitIfs
/-!
# How sessions come and stay

Between two removals sessions only grow: who lives lives on, and who is
initialized stays so. A session that is new has an id that was given out just
now. Looking at sessions leaves to each of them the transport that it has, too.
Whatever happens to sessions, who lives is seen now or was last seen before.
-/

namespace EditorBridge.Sessions

variable {ids : Nat → String} {now : Nanos} {s s' s'' : Sessions} {n n' n'' : Nat}

/-- Sessions of which none was removed, where `n` ids had been given out before and `n'` after. -/
structure Grown (ids : Nat → String) (s : Sessions) (n : Nat) (s' : Sessions) (n' : Nat) : Prop where
  kept : ∀ {id x}, s.get? id = some x →
    ∃ x', s'.get? id = some x' ∧ (x.initialized = true → x'.initialized = true)
  new : ∀ {id x'}, s.get? id = none → s'.get? id = some x' → ∃ k, n < k ∧ k ≤ n' ∧ id = ids k
  named : n ≤ n'

/-- Sessions to which something happens now: still none is there twice, and who lives is seen now or
was last seen when it was before. -/
structure Seen (now : Nanos) (s s' : Sessions) : Prop where
  nodup : s.keys.Nodup → s'.keys.Nodup
  lastSeen : ∀ {id x'}, s'.get? id = some x' →
    x'.lastSeen = now ∨ ∃ x, s.get? id = some x ∧ x'.lastSeen = x.lastSeen

/-- Sessions that were looked at. -/
structure Looked (ids : Nat → String) (now : Nanos) (s : Sessions) (n : Nat) (s' : Sessions)
    (n' : Nat) : Prop extends Grown ids s n s' n' where
  transport : ∀ id, s'.transport? id = s.transport? id
  seen : Seen now s s'

/-! ## Sessions that were not removed -/

namespace Grown

theorem refl (ids : Nat → String) (s : Sessions) (n : Nat) : Grown ids s n s n where
  kept hx := ⟨_, hx, fun hi => hi⟩
  new hx hx' := by cases hx.symm.trans hx'
  named := Nat.le_refl n

theorem trans (h : Grown ids s n s' n') (h' : Grown ids s' n' s'' n'') :
    Grown ids s n s'' n'' where
  kept hx := by
    obtain ⟨x', hx', hi⟩ := h.kept hx
    obtain ⟨x'', hx'', hi'⟩ := h'.kept hx'
    exact ⟨x'', hx'', fun h => hi' (hi h)⟩
  new {id x''} hx hx'' := by
    cases hx' : s'.get? id with
    | some x' =>
      obtain ⟨k, hlt, hle, hid⟩ := h.new hx hx'
      exact ⟨k, hlt, Nat.le_trans hle h'.named, hid⟩
    | none =>
      obtain ⟨k, hlt, hle, hid⟩ := h'.new hx' hx''
      exact ⟨k, Nat.lt_of_le_of_lt h.named hlt, hle, hid⟩
  named := Nat.le_trans h.named h'.named

theorem isInitialized (h : Grown ids s n s' n') {id : String} (hi : s.isInitialized id = true) :
    s'.isInitialized id = true := by
  unfold Sessions.isInitialized at hi ⊢
  cases hx : s.get? id with
  | none => simp [hx] at hi
  | some x =>
    obtain ⟨x', hx', hkept⟩ := h.kept hx
    simp only [hx, hx', Option.map_some, Option.getD_some] at hi ⊢
    exact hkept hi

/-- A change of one session. -/
theorem set {id : String} {x y : Session} (hx : s.get? id = some x)
    (hy : x.initialized = true → y.initialized = true) : Grown ids s n (s.set id y) n where
  kept {id' z} hz := by
    by_cases h : id' = id
    · subst h
      cases hx.symm.trans hz
      exact ⟨y, Table.get?_set_self .., hy⟩
    · exact ⟨z, (Table.get?_set_of_ne _ _ h).trans hz, fun hi => hi⟩
  new {id' z} hz hz' := by
    rcases Table.of_get?_set hz' with ⟨rfl, -⟩ | ⟨-, hold⟩
    · cases hz.symm.trans hx
    · cases hz.symm.trans hold
  named := Nat.le_refl n

theorem modify (s : Sessions) (n : Nat) (id : String) {f : Session → Session}
    (hf : ∀ x, x.initialized = true → (f x).initialized = true) :
    Grown ids s n (s.modify id f) n := by
  unfold Table.modify
  split
  · next hx => exact set hx (hf _)
  · exact refl ids s n

theorem clearTransport (s : Sessions) (n : Nat) (id : String) (t : TransportId) :
    Grown ids s n (s.clearTransport id t).2 n := by
  unfold Sessions.clearTransport
  split
  · exact modify s n id fun _ hi => hi
  · exact refl ids s n

end Grown

/-! ## When sessions were seen -/

namespace Seen

theorem refl (now : Nanos) (s : Sessions) : Seen now s s := ⟨id, fun hx => .inr ⟨_, hx, rfl⟩⟩

theorem trans (h : Seen now s s') (h' : Seen now s' s'') : Seen now s s'' where
  nodup hn := h'.nodup (h.nodup hn)
  lastSeen hx'' := by
    rcases h'.lastSeen hx'' with hnow | ⟨x', hx', heq⟩
    · exact .inl hnow
    · rw [heq]
      exact h.lastSeen hx'

/-- A session that begins or is seen now. -/
theorem set (s : Sessions) (id : String) {y : Session} (hy : y.lastSeen = now) :
    Seen now s (s.set id y) where
  nodup := Table.nodup_set id y
  lastSeen hz := by
    rcases Table.of_get?_set hz with ⟨-, rfl⟩ | ⟨-, hold⟩
    · exact .inl hy
    · exact .inr ⟨_, hold, rfl⟩

theorem modify (s : Sessions) (id : String) {f : Session → Session}
    (hf : ∀ x, (f x).lastSeen = now ∨ (f x).lastSeen = x.lastSeen) :
    Seen now s (s.modify id f) where
  nodup := Table.nodup_modify id f
  lastSeen {other x'} hx' := by
    rw [Table.get?_modify] at hx'
    split at hx'
    · next he =>
      obtain ⟨x, hx, rfl⟩ := Option.map_eq_some_iff.1 hx'
      exact (hf x).imp_right fun heq => ⟨x, he ▸ hx, heq⟩
    · exact .inr ⟨x', hx', rfl⟩

theorem erase (now : Nanos) (s : Sessions) (id : String) : Seen now s (s.erase id) where
  nodup := Table.nodup_erase id
  lastSeen hx := .inr ⟨_, (Table.of_get?_erase hx).2, rfl⟩

theorem clearTransport (now : Nanos) (s : Sessions) (id : String) (t : TransportId) :
    Seen now s (s.clearTransport id t).2 := by
  unfold Sessions.clearTransport
  split
  · exact modify s id fun _ => .inr rfl
  · exact refl now s

theorem create (s : Sessions) (id : String) (now : Nanos) (wall : Timestamp) :
    Seen now s (s.create id now wall) := by
  unfold Sessions.create
  split <;> exact set s id rfl

end Seen

/-! ## Sessions that were looked at -/

theorem transport?_of_get? {s : Sessions} {id : String} {x : Session} (hx : s.get? id = some x) :
    s.transport? id = x.transport := by
  rw [transport?, hx]
  rfl

/-- A change that leaves to a session its transport. -/
theorem transport?_modify (s : Sessions) (id other : String) {f : Session → Session}
    (hf : ∀ x, (f x).transport = x.transport) :
    transport? (s.modify id f) other = s.transport? other := by
  unfold transport?
  rw [Table.get?_modify]
  split
  · next h =>
    subst h
    cases s.get? other <;> simp [hf]
  · rfl

theorem isInitialized_touch (s : Sessions) (id other : String) (now : Nanos) :
    (s.touch id now).2.isInitialized other = s.isInitialized other := by
  show isInitialized (s.modify id _) other = _
  unfold isInitialized
  rw [Table.get?_modify]
  split
  · next h =>
    subst h
    cases s.get? other <;> simp
  · rfl

namespace Looked

theorem refl (ids : Nat → String) (now : Nanos) (s : Sessions) (n : Nat) :
    Looked ids now s n s n := ⟨.refl ids s n, fun _ => rfl, .refl now s⟩

theorem trans (h : Looked ids now s n s' n') (h' : Looked ids now s' n' s'' n'') :
    Looked ids now s n s'' n'' :=
  ⟨h.toGrown.trans h'.toGrown, fun id => (h'.transport id).trans (h.transport id),
    h.seen.trans h'.seen⟩

theorem modify (s : Sessions) (n : Nat) (id : String) {f : Session → Session}
    (hi : ∀ x, x.initialized = true → (f x).initialized = true)
    (ht : ∀ x, (f x).transport = x.transport)
    (hs : ∀ x, (f x).lastSeen = now ∨ (f x).lastSeen = x.lastSeen) :
    Looked ids now s n (s.modify id f) n :=
  ⟨.modify s n id hi, fun other => transport?_modify s id other ht, .modify s id hs⟩

theorem touch (s : Sessions) (n : Nat) (id : String) (now : Nanos) :
    Looked ids now s n (s.touch id now).2 n :=
  modify s n id (fun _ hi => hi) (fun _ => rfl) fun _ => .inl rfl

theorem setVersion (s : Sessions) (n : Nat) (id version : String) (now : Nanos) :
    Looked ids now s n (s.setVersion id version).2 n :=
  modify s n id (fun _ hi => hi) (fun _ => rfl) fun _ => .inr rfl

theorem confirm (s : Sessions) (n : Nat) (id : String) (now : Nanos) :
    Looked ids now s n (s.confirm id).2 n :=
  modify s n id (fun _ _ => rfl) (fun _ => rfl) fun _ => .inr rfl

theorem negotiate {id : String} {requested version : Option String}
    (h : s.negotiate id requested = (version, s')) (n : Nat) (now : Nanos) :
    Looked ids now s n s' n := by
  unfold Sessions.negotiate at h
  split at h
  · next hs =>
    cases h
    obtain rfl : s' = (s.setVersion id (agreed requested)).2 := by rw [hs]
    exact setVersion ..
  · cases h
    exact refl ids now s n

/-- A session that lives is refreshed. -/
theorem create_live {id : String} (hs : s.has id = true) (n : Nat) (now : Nanos)
    (wall : Timestamp) : Looked ids now s n (s.create id now wall) n := by
  obtain ⟨x, hx⟩ := Option.isSome_iff_exists.1 hs
  have seen := Seen.create s id now wall
  unfold create at seen ⊢
  rw [hx] at seen ⊢
  refine ⟨.set hx fun hi => hi, fun other => ?_, seen⟩
  simp only [transport?, Table.get?_set]
  split_ifs with h
  · simp [h, hx]
  · rfl

/-- The next id is given to a new session, if it is not a live one's. -/
theorem create_next (s : Sessions) (n : Nat) (now : Nanos) (wall : Timestamp) :
    Looked ids now s n (s.create (ids (n + 1)) now wall) (n + 1) := by
  have seen := Seen.create s (ids (n + 1)) now wall
  cases hx : s.get? (ids (n + 1)) with
  | some x =>
    have live : s.has (ids (n + 1)) = true := by simp [Table.has, hx]
    have refreshed : Looked ids now s n (s.create (ids (n + 1)) now wall) n := create_live live ..
    obtain ⟨⟨kept, new, -⟩, transport, -⟩ := refreshed
    refine ⟨⟨kept, fun hy hy' => ?_, Nat.le_succ n⟩, transport, seen⟩
    obtain ⟨k, hlt, hle, hid⟩ := new hy hy'
    exact ⟨k, hlt, Nat.le_succ_of_le hle, hid⟩
  | none =>
    unfold create at seen ⊢
    rw [hx] at seen ⊢
    refine ⟨⟨fun {id y} hy => ⟨y, ?_, fun hi => hi⟩, fun {id y} hy hy' => ⟨n + 1, ?_, Nat.le_refl _, ?_⟩,
      Nat.le_succ n⟩, fun other => ?_, seen⟩
    · rw [Table.get?_set_of_ne _ _, hy]
      rintro rfl
      cases hx.symm.trans hy
    · exact Nat.lt_succ_self n
    · rcases Table.of_get?_set hy' with ⟨h, -⟩ | ⟨-, hold⟩
      · exact h
      · cases hy.symm.trans hold
    · simp only [transport?, Table.get?_set]
      split_ifs with h
      · simp [h, hx]
      · rfl

end Looked

end EditorBridge.Sessions
