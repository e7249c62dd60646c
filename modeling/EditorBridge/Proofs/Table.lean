import EditorBridge.Table
/-!
# Tables with each key once

A change of a table brings in no key twice, and where no key is twice a pair in
the table is what its key has there.
-/

namespace EditorBridge.Table

variable {κ α : Type} [DecidableEq κ]

theorem get?_of_mem {t : Table κ α} {k : κ} {a : α} (hn : t.keys.Nodup) (h : (k, a) ∈ t) :
    t.get? k = some a := by
  induction t with
  | nil => cases h
  | cons p t ih =>
    obtain ⟨hp, hn⟩ := List.nodup_cons.1 hn
    rw [get?_cons]
    rcases List.mem_cons.1 h with rfl | h
    · exact if_pos rfl
    · rw [if_neg, ih hn h]
      rintro rfl
      exact hp (List.mem_map.2 ⟨_, h, rfl⟩)

theorem has_of_mem {t : Table κ α} {k : κ} {a : α} (h : (k, a) ∈ t) : t.has k = true := by
  have found : (t.find? (·.1 = k)).isSome = true := by
    rw [List.find?_isSome]
    exact ⟨(k, a), h, by simp⟩
  simpa [has, get?] using found

/-- A pair is in the table exactly if its key has its value there. -/
theorem mem_iff_get? {t : Table κ α} {k : κ} {a : α} (hn : t.keys.Nodup) :
    (k, a) ∈ t ↔ t.get? k = some a :=
  ⟨get?_of_mem hn, mem_of_get?⟩

omit [DecidableEq κ] in
theorem nodup_perm {t t' : Table κ α} (hn : t.keys.Nodup) (h : t.Perm t') : t'.keys.Nodup :=
  (h.map _).nodup_iff.1 hn

/-- A table in another order has the same. -/
theorem get?_perm {t t' : Table κ α} (hn : t.keys.Nodup) (h : t.Perm t') (k : κ) :
    t'.get? k = t.get? k := by
  ext a
  rw [← mem_iff_get? hn, ← mem_iff_get? (nodup_perm hn h), h.mem_iff]

theorem mem_keys_set {t : Table κ α} {k l : κ} {a : α} :
    l ∈ (t.set k a).keys ↔ l = k ∨ l ∈ t.keys := by
  induction t with
  | nil => simp [set, keys]
  | cons p t ih =>
    by_cases hp : p.1 = k
    · simp [set, keys, hp]
    · simp only [set, hp, if_false, keys, List.map_cons, List.mem_cons] at ih ⊢
      rw [ih]
      exact or_left_comm

theorem mem_set {t : Table κ α} {k l : κ} {a b : α} (h : (l, b) ∈ t.set k a) :
    l = k ∧ b = a ∨ (l, b) ∈ t := by
  induction t with
  | nil =>
    simp only [set, List.mem_singleton, Prod.mk.injEq] at h
    exact .inl h
  | cons p t ih =>
    rw [set] at h
    split at h
    · rcases List.mem_cons.1 h with h | h
      · exact .inl (Prod.mk.inj h)
      · exact .inr (List.mem_cons_of_mem _ h)
    · rcases List.mem_cons.1 h with h | h
      · exact .inr (h ▸ List.mem_cons_self)
      · exact (ih h).imp_right (List.mem_cons_of_mem _)

theorem mem_erase {t : Table κ α} {k l : κ} {a : α} :
    (l, a) ∈ t.erase k ↔ (l, a) ∈ t ∧ l ≠ k := by
  simp [erase]

/-- A new key comes behind the others. -/
theorem set_of_get?_none {t : Table κ α} {k : κ} (a : α) (hk : t.get? k = none) :
    t.set k a = t ++ [(k, a)] := by
  induction t with
  | nil => rfl
  | cons p t ih =>
    rw [get?_cons] at hk
    by_cases hp : p.1 = k
    · simp [hp] at hk
    · rw [if_neg hp] at hk
      rw [set, if_neg hp, ih hk]
      rfl

theorem nodup_set {t : Table κ α} (k : κ) (a : α) (hn : t.keys.Nodup) : (t.set k a).keys.Nodup := by
  induction t with
  | nil => simp [set, keys]
  | cons p t ih =>
    obtain ⟨hp, hn⟩ := List.nodup_cons.1 hn
    by_cases hk : p.1 = k
    · rw [set, if_pos hk]
      exact List.nodup_cons.2 ⟨hk ▸ hp, hn⟩
    · rw [set, if_neg hk]
      refine List.nodup_cons.2 ⟨fun hmem => ?_, ih hn⟩
      rcases mem_keys_set.1 hmem with he | hmem
      · exact hk he
      · exact hp hmem

theorem nodup_erase {t : Table κ α} (k : κ) (hn : t.keys.Nodup) : (t.erase k).keys.Nodup :=
  (List.Sublist.map _ List.filter_sublist).nodup hn

theorem nodup_modify {t : Table κ α} (k : κ) (f : α → α) (hn : t.keys.Nodup) :
    (t.modify k f).keys.Nodup := by
  unfold modify
  split
  · exact nodup_set k _ hn
  · exact hn

theorem modify_cons (p : κ × α) (t : Table κ α) (k : κ) (f : α → α) :
    modify (p :: t) k f = if p.1 = k then (k, f p.2) :: t else p :: modify t k f := by
  by_cases h : p.1 = k
  · simp [modify, get?_cons, set, h]
  · cases hk : get? t k <;> simp [modify, get?_cons, set, h, hk]

/-- One change can be made at two keys in either order. -/
theorem modify_comm (t : Table κ α) (k l : κ) (f : α → α) :
    (t.modify k f).modify l f = (t.modify l f).modify k f := by
  induction t with
  | nil => rfl
  | cons p t ih =>
    by_cases hk : p.1 = k <;> by_cases hl : p.1 = l <;> simp_all [modify_cons]

end EditorBridge.Table
