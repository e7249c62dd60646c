/-!
# Tables

Finite maps as lists of pairs. Setting a key that is present replaces its value
in place, a new key goes to the end, so a table keeps the order in which its
keys first came.
-/

namespace EditorBridge

/-- Keys with their values. -/
abbrev Table (κ α : Type) := List (κ × α)

namespace Table

variable {κ α : Type} [DecidableEq κ]

/-- The value of a key. -/
def get? (t : Table κ α) (k : κ) : Option α := (t.find? (·.1 = k)).map (·.2)

/-- Whether a key is present. -/
def has (t : Table κ α) (k : κ) : Bool := (t.get? k).isSome

/-- Sets the value of a key. -/
def set (k : κ) (a : α) : Table κ α → Table κ α
  | [] => [(k, a)]
  | (k', a') :: rest => if k' = k then (k, a) :: rest else (k', a') :: set k a rest

/-- Removes a key. -/
def erase (t : Table κ α) (k : κ) : Table κ α := t.filter (·.1 ≠ k)

/-- Changes the value of a key that is present. -/
def modify (t : Table κ α) (k : κ) (f : α → α) : Table κ α :=
  match t.get? k with
  | some a => t.set k (f a)
  | none => t

/-- The keys in their order. -/
def keys (t : Table κ α) : List κ := t.map (·.1)

/-! ## Looking up after a change -/

@[simp] theorem get?_nil (k : κ) : get? ([] : Table κ α) k = none := rfl

theorem get?_cons (p : κ × α) (t : Table κ α) (k : κ) :
    get? (p :: t) k = if p.1 = k then some p.2 else get? t k := by
  by_cases h : p.1 = k <;> simp [get?, h]

@[simp] theorem get?_set_self (t : Table κ α) (k : κ) (a : α) : (t.set k a).get? k = some a := by
  induction t with
  | nil => simp [set, get?_cons]
  | cons p t ih => by_cases h : p.1 = k <;> simp [set, get?_cons, h, ih]

theorem get?_set_of_ne (t : Table κ α) {k l : κ} (a : α) (h : l ≠ k) :
    (t.set k a).get? l = t.get? l := by
  induction t with
  | nil => simp [set, get?_cons, Ne.symm h]
  | cons p t ih =>
    by_cases hp : p.1 = k
    · simp [set, get?_cons, hp, Ne.symm h]
    · rw [set, if_neg hp, get?_cons, get?_cons, ih]

@[simp] theorem set_set (t : Table κ α) (k : κ) (a b : α) : (t.set k a).set k b = t.set k b := by
  induction t with
  | nil => simp [set]
  | cons p t ih => by_cases h : p.1 = k <;> simp [set, h, ih]

@[simp] theorem get?_erase_self (t : Table κ α) (k : κ) : (t.erase k).get? k = none := by
  simp [get?, erase, List.find?_eq_none]

theorem erase_cons (p : κ × α) (t : Table κ α) (k : κ) :
    erase (p :: t) k = if p.1 = k then erase t k else p :: erase t k := by
  by_cases h : p.1 = k <;> simp [erase, h]

theorem get?_erase_of_ne (t : Table κ α) {k l : κ} (h : l ≠ k) : (t.erase k).get? l = t.get? l := by
  induction t with
  | nil => rfl
  | cons p t ih =>
    by_cases hp : p.1 = k
    · rw [erase_cons, if_pos hp, ih, get?_cons, if_neg (hp ▸ Ne.symm h)]
    · rw [erase_cons, if_neg hp, get?_cons, get?_cons, ih]

theorem get?_set (t : Table κ α) (k l : κ) (a : α) :
    (t.set k a).get? l = if l = k then some a else t.get? l := by
  by_cases h : l = k
  · rw [if_pos h, h, get?_set_self]
  · rw [if_neg h, get?_set_of_ne t a h]

theorem get?_erase (t : Table κ α) (k l : κ) :
    (t.erase k).get? l = if l = k then none else t.get? l := by
  by_cases h : l = k
  · rw [if_pos h, h, get?_erase_self]
  · rw [if_neg h, get?_erase_of_ne t h]

/-- What a table has after a key was set is the new value or an old one. -/
theorem of_get?_set {t : Table κ α} {k l : κ} {a b : α} (h : (t.set k a).get? l = some b) :
    l = k ∧ a = b ∨ l ≠ k ∧ t.get? l = some b := by
  rw [get?_set] at h
  split at h
  · next hl => exact .inl ⟨hl, Option.some.inj h⟩
  · next hl => exact .inr ⟨hl, h⟩

/-- What a table has after a key was erased it had before. -/
theorem of_get?_erase {t : Table κ α} {k l : κ} {a : α} (h : (t.erase k).get? l = some a) :
    l ≠ k ∧ t.get? l = some a := by
  rw [get?_erase] at h
  split at h
  · cases h
  · next hl => exact ⟨hl, h⟩

theorem get?_modify (t : Table κ α) (k l : κ) (f : α → α) :
    (t.modify k f).get? l = if l = k then (t.get? k).map f else t.get? l := by
  cases hk : t.get? k with
  | none => by_cases h : l = k <;> simp [modify, h, hk]
  | some a => simp [modify, hk, get?_set]

theorem get?_mapValues {β : Type} (t : Table κ α) (f : α → β) (k : κ) :
    get? (t.map fun (l, a) => (l, f a)) k = (t.get? k).map f := by
  induction t with
  | nil => rfl
  | cons p t ih => by_cases h : p.1 = k <;> simp [get?_cons, h, ih]

theorem mem_of_get? {t : Table κ α} {k : κ} {a : α} (h : t.get? k = some a) : (k, a) ∈ t := by
  simp only [get?, Option.map_eq_some_iff] at h
  obtain ⟨p, hp, rfl⟩ := h
  have hk := List.find?_some hp
  simp only [decide_eq_true_eq] at hk
  subst hk
  exact List.mem_of_find?_eq_some hp

end Table

end EditorBridge
