import EditorBridge.Json.Decode
import EditorBridge.Proofs.Json.Reader
/-!
# Records read from objects

A record is read from an object if each of its fields is: `Record.Reads` says it
of a record and its fields alike, and is put together along the fields. What an
optional field reads is what was written, unless that is `null`.
-/

namespace EditorBridge.Json

/-- A value that is there and is not `null`. -/
def present (o : Option Json) : Option Json := o.filter (· ≠ .null)

theorem present_eq_self_iff {o : Option Json} : present o = o ↔ o ≠ some .null := by
  cases o with
  | none => simp [present]
  | some j => by_cases h : j = .null <;> simp [present, h]

theorem present_ne_null (o : Option Json) : present o ≠ some .null := by
  cases o with
  | none => simp [present]
  | some j => by_cases h : j = .null <;> simp [present, h]

theorem mem_of_mem_present {o : Option Json} {j : Json} (h : j ∈ present o) : j ∈ o :=
  (Option.filter_eq_some_iff.1 h).1

theorem orNull_present (o : Option Json) : orNull (present o) = orNull o := by
  cases o with
  | none => rfl
  | some j => cases j <;> rfl

/-- A list is read back if its items are. -/
theorem list_map {α β : Type} {d : Decoder α} {f : β → Json} {g : β → α} {xs : List β}
    (h : ∀ x ∈ xs, d (f x) = .ok (g x)) : Decoder.list d (.arr (xs.map f)) = .ok (xs.map g) := by
  show (xs.map f).mapM d = _
  induction xs with
  | nil => rfl
  | cons x xs ih =>
    rw [List.map_cons, List.mapM_cons, h x List.mem_cons_self,
      ih fun y hy => h y (List.mem_cons_of_mem _ hy)]
    rfl

namespace Record

variable {α β : Type} {members : Members} {name : String} {d : Decoder α}

/-- A record without wrong members. -/
theorem checkAll_ok {r : Record α}
    (h : ∀ m ∈ members, ∀ check, r.check? m.1 = some check → check m.2 = .ok ()) :
    r.checkAll members = .ok () := by
  induction members with
  | nil => rfl
  | cons m members ih =>
    have rest : r.checkAll members = .ok () := ih fun m hm => h m (List.mem_cons_of_mem _ hm)
    have first : r.checkAll [m] = .ok () := by
      obtain ⟨key, j⟩ := m
      cases hc : r.check? key with
      | none => simp [checkAll, hc]
      | some check => simp [checkAll, hc, h _ List.mem_cons_self check hc]
    have both : r.checkAll (m :: members) = (do r.checkAll [m]; r.checkAll members) := by
      simp [checkAll]
    rw [both, first]
    exact rest

/-- A record, or a part of its fields, is read from members as a value. -/
structure Reads (r : Record α) (members : Members) (a : α) : Prop where
  value : r.ofMembers members = .ok a
  checked : ∀ p ∈ r.checks, ∀ j, members.get? p.1 = some j → p.2 j = .ok ()

theorem Reads.decode {r : Record α} {a : α} (h : r.Reads members a) (hm : members.Increasing)
    (kind : String) : r.decode kind (.obj members) = .ok a := by
  have checked : r.checkAll members = .ok () := by
    refine checkAll_ok fun m hmem check hc => ?_
    obtain ⟨before, after, hchecks, -⟩ := List.lookup_eq_some_iff.1 hc
    exact h.checked (m.1, check) (by simp [hchecks]) m.2 (Members.get?_of_mem hm hmem)
  show (do r.checkAll members; r.ofMembers members) = _
  rw [checked]
  exact h.value

theorem reads_pure (a : α) : (pure a).Reads members a := ⟨rfl, nofun⟩

theorem Reads.seq {f : Record (α → β)} {r : Record α} {g : α → β} {a : α} (hf : f.Reads members g)
    (hr : r.Reads members a) : (f.seq r).Reads members (g a) where
  value := by
    show (do let g ← f.ofMembers members; let x ← r.ofMembers members; return g x) = _
    rw [hf.value, hr.value]
    rfl
  checked p hp := (List.mem_append.1 hp).elim (hf.checked p) (hr.checked p)

/-! ## Fields -/

/-- A field has its value in the object, or may be left out and is. -/
theorem reads_field {absent short : Option α} {a : α}
    (hnone : members.get? name = none → absent = some a)
    (hsome : ∀ j, members.get? name = some j → d j = .ok a) :
    (field name d absent short).Reads members a where
  value := by
    simp only [field]
    cases hget : members.get? name with
    | none => simp [hnone hget]
    | some j => exact hsome j hget
  checked := by
    rintro p hp j hj
    obtain rfl := List.mem_singleton.1 hp
    show (d j).map _ = _
    rw [hsome j hj]
    rfl

theorem reads_required {j : Json} {a : α} (hget : members.get? name = some j) (hd : d j = .ok a) :
    (required name d).Reads members a :=
  reads_field (fun hnone => by cases hget.symm.trans hnone) fun j' hj' => by
    cases hget.symm.trans hj'
    exact hd

theorem reads_optional {o : Option β} {f : β → Json} {g : β → α} {short : Option (Option α)}
    (hget : members.get? name = o.map f) (hd : ∀ b ∈ o, d.optional (f b) = .ok (some (g b))) :
    (field name d.optional (some none) short).Reads members (o.map g) := by
  refine reads_field (fun hnone => ?_) fun j hj => ?_
  · obtain rfl : o = none := Option.map_eq_none_iff.1 (hget.symm.trans hnone)
    rfl
  · obtain ⟨b, hb, rfl⟩ := Option.map_eq_some_iff.1 (hget.symm.trans hj)
    rw [hd b hb, hb]
    rfl

theorem reads_optional_self {o : Option α} {f : α → Json} {short : Option (Option α)}
    (hget : members.get? name = o.map f) (hd : ∀ a ∈ o, d.optional (f a) = .ok (some a)) :
    (field name d.optional (some none) short).Reads members o := by
  have hread : (field name d.optional (some none) short).Reads members (o.map id) :=
    reads_optional hget hd
  rwa [Option.map_id_fun, id_eq] at hread

/-- An optional field of any value takes `null` for nothing. -/
theorem reads_any {o : Option Json} {short : Option (Option Json)} (hget : members.get? name = o) :
    (field name Decoder.any.optional (some none) short).Reads members (present o) := by
  subst hget
  refine reads_field (fun hnone => by rw [hnone]; rfl) fun j hj => ?_
  rw [hj]
  cases j <;> rfl

/-! ## Values kept in records -/

/-- From values in order a record, or a part of its fields, is read as one with a property. -/
structure Keeps (r : Record α) (P : α → Prop) : Prop where
  members : ∀ {members a}, WellFormedMembers members → r.ofMembers members = .ok a → P a
  items : ∀ {short n items a rest}, WellFormedItems items →
    r.ofItems short n items = .ok (a, rest) → P a ∧ WellFormedItems rest

theorem Keeps.decode {r : Record α} {P : α → Prop} (hr : r.Keeps P) {kind : String} {j : Json}
    {a : α} (hj : j.WellFormed) (h : r.decode kind j = .ok a) : P a := by
  cases j with
  | obj members =>
    obtain ⟨⟨⟩, -, h⟩ := Scan.bind_ok h
    rw [WellFormed] at hj
    exact hr.members hj.2 h
  | arr items =>
    obtain ⟨⟨b, rest⟩, hb, h⟩ := Scan.bind_ok h
    dsimp only at h
    split at h
    · cases h
      rw [WellFormed] at hj
      exact (hr.items hj hb).1
    · cases h
  | _ => cases h

theorem keeps_pure {P : α → Prop} {a : α} (h : P a) : (pure a).Keeps P where
  members _ hb := Except.ok.inj hb ▸ h
  items hi hb := by
    cases hb
    exact ⟨h, hi⟩

theorem Keeps.seq {f : Record (α → β)} {r : Record α} {P : β → Prop} {Q : α → Prop}
    (hf : f.Keeps fun g => ∀ a, Q a → P (g a)) (hr : r.Keeps Q) : (f.seq r).Keeps P where
  members hm h := by
    obtain ⟨g, hg, h⟩ := Scan.bind_ok h
    obtain ⟨a, ha, h⟩ := Scan.bind_ok h
    cases h
    exact hf.members hm hg a (hr.members hm ha)
  items hi h := by
    obtain ⟨⟨g, items⟩, hg, h⟩ := Scan.bind_ok h
    obtain ⟨⟨a, rest⟩, ha, h⟩ := Scan.bind_ok h
    cases h
    obtain ⟨hP, hi⟩ := hf.items hi hg
    obtain ⟨hQ, hi⟩ := hr.items hi ha
    exact ⟨hP a hQ, hi⟩

theorem keeps_field {absent short : Option α} {P : α → Prop}
    (hd : ∀ {j a}, j.WellFormed → d j = .ok a → P a) (habsent : ∀ a ∈ absent, P a)
    (hshort : ∀ a ∈ short, P a) : (field name d absent short).Keeps P where
  members {members a} hm h := by
    simp only [field] at h
    split at h
    · next j hget => exact hd (wellFormedMembers_iff.1 hm _ (Members.mem_of_get? hget)) h
    · split at h
      · cases h
        exact habsent _ rfl
      · cases h
  items {_ _ items _ _} hi h := by
    cases items with
    | cons j items =>
      obtain ⟨b, hb, h⟩ := Scan.bind_ok h
      cases h
      rw [WellFormedItems] at hi
      exact ⟨hd hi.1 hb, hi.2⟩
    | nil =>
      simp only [field] at h
      split at h
      · cases h
        exact ⟨hshort _ rfl, trivial⟩
      · cases h

/-- Of a field that does not matter. -/
theorem keeps_any {absent short : Option α} :
    (field name d absent short).Keeps fun _ => True :=
  keeps_field (fun _ _ => trivial) (fun _ _ => trivial) fun _ _ => trivial

/-- An optional field of any value. -/
theorem keeps_optional {short : Option (Option Json)} (hshort : ∀ o ∈ short, o = none) :
    (field name Decoder.any.optional (some none) short).Keeps fun o => ∀ j ∈ o, j.WellFormed := by
  refine keeps_field (fun {j o} hj h => ?_) (fun o ho => ?_) fun o ho => ?_
  · intro v hv
    cases j <;> cases h <;> cases hv
    all_goals exact hj
  · cases ho
    exact nofun
  · rw [hshort o ho]
    exact nofun

end Record

end EditorBridge.Json
