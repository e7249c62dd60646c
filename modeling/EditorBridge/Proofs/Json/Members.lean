import EditorBridge.Json.Basic
/-!
# Members in the order of their keys

What an object holds under a key after another member has been put into it, and
that values which are in order already stay as they are.
-/

namespace EditorBridge.Json

namespace Members

variable {key k : String} {v : Json} {members : Members}

@[simp] theorem get?_nil : get? key [] = none := rfl

theorem get?_cons :
    get? key ((k, v) :: members) = if key = k then some v else get? key members := by
  by_cases h : key = k
  · simp [get?, h]
  · simp [get?, List.lookup_cons, h, beq_eq_false_iff_ne.2 h]

theorem mem_of_get? (h : get? key members = some v) : (key, v) ∈ members := by
  obtain ⟨before, after, rfl, -⟩ := List.lookup_eq_some_iff.1 h
  simp

theorem get?_append {others : Members} :
    get? key (members ++ others) = (get? key members).or (get? key others) :=
  List.lookup_append

/-- The member that was put in last is found, and every other as before. -/
theorem get?_insert : get? key (insert k v members) =
    if key = k then some v else get? key members := by
  induction members with
  | nil => simp [insert, get?_cons]
  | cons m members ih =>
    obtain ⟨l, w⟩ := m
    unfold insert
    split
    · rw [get?_cons]
    · split
      · next he => by_cases hk : key = k <;> simp [get?_cons, ← he, hk]
      · next hne =>
        rw [get?_cons, ih, get?_cons]
        by_cases hk : key = k
        · subst hk
          simp [hne]
        · simp [hk]

theorem mem_of_mem_insert {m : String × Json} (h : m ∈ insert k v members) :
    m = (k, v) ∨ m ∈ members := by
  induction members with
  | nil => exact .inl (List.mem_singleton.1 h)
  | cons n members ih =>
    obtain ⟨l, w⟩ := n
    unfold insert at h
    split at h
    · exact List.mem_cons.1 h
    · split at h
      · exact (List.mem_cons.1 h).imp_right (List.mem_cons_of_mem _)
      · rcases List.mem_cons.1 h with h | h
        · exact .inr (h ▸ List.mem_cons_self)
        · exact (ih h).imp_right (List.mem_cons_of_mem _)

/-- A key behind all others comes last. -/
theorem insert_last (h : ∀ m ∈ members, m.1 < k) : insert k v members = members ++ [(k, v)] := by
  induction members with
  | nil => rfl
  | cons m members ih =>
    obtain ⟨l, w⟩ := m
    have hl : l < k := h _ List.mem_cons_self
    have hlt : ¬ k < l := String.lt_asymm hl
    have hne : ¬ k = l := fun he => String.lt_irrefl l (he ▸ hl)
    rw [insert, if_neg hlt, if_neg hne, ih fun n hn => h n (List.mem_cons_of_mem _ hn)]
    rfl

/-- Members that are put in one after the other, each behind those before it. -/
theorem foldl_insert (added : Members) (h : (members ++ added).Increasing) :
    added.foldl (fun sorted m => insert m.1 m.2 sorted) members = members ++ added := by
  induction added generalizing members with
  | nil => exact (List.append_nil _).symm
  | cons m added ih =>
    obtain ⟨k, v⟩ := m
    have hlast : ∀ n ∈ members, n.1 < k := fun n hn =>
      (List.pairwise_append.1 h).2.2 n hn (k, v) List.mem_cons_self
    rw [List.foldl_cons, insert_last hlast, ih (by simpa using h)]
    simp

/-- Members in order stay as they are. -/
theorem ofList_of_increasing (h : members.Increasing) : ofList members = members :=
  foldl_insert members h

/-- Of several members with one key the last counts. -/
theorem get?_foldl_insert (added : Members) :
    get? key (added.foldl (fun sorted m => insert m.1 m.2 sorted) members) =
      (get? key added.reverse).or (get? key members) := by
  induction added generalizing members with
  | nil => rfl
  | cons m added ih =>
    obtain ⟨k, v⟩ := m
    rw [List.foldl_cons, ih, get?_insert, List.reverse_cons, get?_append, get?_cons, get?_nil]
    by_cases hk : key = k <;> simp [hk]

theorem get?_ofList : get? key (ofList members) = get? key members.reverse :=
  (get?_foldl_insert members).trans (Option.or_none ..)

theorem increasing_insert (h : members.Increasing) : (insert k v members).Increasing := by
  induction members with
  | nil => exact List.pairwise_singleton ..
  | cons m members ih =>
    obtain ⟨l, w⟩ := m
    obtain ⟨hfirst, hrest⟩ := List.pairwise_cons.1 h
    unfold insert
    split
    · next hlt =>
      refine List.pairwise_cons.2 ⟨fun n hn => ?_, h⟩
      rcases List.mem_cons.1 hn with rfl | hn
      · exact hlt
      · exact String.lt_trans hlt (hfirst n hn)
    · next hnlt =>
      split
      · next he => exact List.pairwise_cons.2 ⟨fun n hn => he ▸ hfirst n hn, hrest⟩
      · next hne =>
        refine List.pairwise_cons.2 ⟨fun n hn => ?_, ih hrest⟩
        rcases mem_of_mem_insert hn with rfl | hn
        · refine Decidable.byContradiction fun hnlt' => hne ?_
          exact String.le_antisymm (String.not_lt.1 hnlt') (String.not_lt.1 hnlt)
        · exact hfirst n hn

theorem increasing_ofList (members : Members) : (ofList members).Increasing := by
  suffices ∀ sorted : Members, sorted.Increasing →
      (members.foldl (fun sorted m => insert m.1 m.2 sorted) sorted).Increasing from
    this [] .nil
  induction members with
  | nil => exact fun _ h => h
  | cons m members ih => exact fun sorted h => ih _ (increasing_insert h)

theorem mem_of_mem_ofList {m : String × Json} (h : m ∈ ofList members) : m ∈ members := by
  suffices ∀ sorted : Members,
      m ∈ members.foldl (fun sorted n => insert n.1 n.2 sorted) sorted → m ∈ members ∨ m ∈ sorted from
    (this [] h).resolve_right (List.not_mem_nil)
  clear h
  induction members with
  | nil => exact fun _ h => .inr h
  | cons n members ih =>
    intro sorted h
    rcases ih _ h with h | h
    · exact .inl (List.mem_cons_of_mem _ h)
    · rcases mem_of_mem_insert h with rfl | h
      · exact .inl List.mem_cons_self
      · exact .inr h

/-- In order, every member is found under its key. -/
theorem get?_of_mem (h : members.Increasing) (hm : (key, v) ∈ members) :
    get? key members = some v := by
  induction members with
  | nil => cases hm
  | cons m members ih =>
    obtain ⟨k, w⟩ := m
    obtain ⟨hfirst, hrest⟩ := List.pairwise_cons.1 h
    rw [get?_cons]
    rcases List.mem_cons.1 hm with he | hm
    · obtain ⟨rfl, rfl⟩ := Prod.mk.inj he
      exact if_pos rfl
    · have hne : ¬ key = k := fun he => String.lt_irrefl k (he ▸ hfirst _ hm)
      rw [if_neg hne, ih hrest hm]

end Members

/-! ## Values in order -/

theorem sortedItems_eq_map (items : List Json) : sortedItems items = items.map sorted := by
  induction items with
  | nil => rfl
  | cons j items ih => rw [sortedItems, ih, List.map_cons]

theorem sortedMembers_eq_map (members : List (String × Json)) :
    sortedMembers members = members.map fun m => (m.1, m.2.sorted) := by
  induction members with
  | nil => rfl
  | cons m members ih => rw [sortedMembers, ih, List.map_cons]

mutual

/-- A value in order is sorted already. -/
theorem sorted_of_wellFormed : (j : Json) → j.WellFormed → j.sorted = j
  | .arr items, h => by
    rw [WellFormed] at h
    rw [sorted, sortedItems_of_wellFormed items h]
  | .obj members, h => by
    rw [WellFormed] at h
    rw [sorted, sortedMembers_of_wellFormed members h.2, Members.ofList_of_increasing h.1]
  | .null, _ | .bool _, _ | .int _, _ | .float _, _ | .str _, _ => rfl

theorem sortedItems_of_wellFormed :
    (items : List Json) → WellFormedItems items → sortedItems items = items
  | [], _ => rfl
  | x :: rest, h => by
    rw [WellFormedItems] at h
    rw [sortedItems, sorted_of_wellFormed x h.1, sortedItems_of_wellFormed rest h.2]

theorem sortedMembers_of_wellFormed :
    (members : List (String × Json)) → WellFormedMembers members → sortedMembers members = members
  | [], _ => rfl
  | (k, v) :: rest, h => by
    rw [WellFormedMembers] at h
    rw [sortedMembers, sorted_of_wellFormed v h.1, sortedMembers_of_wellFormed rest h.2]

end

theorem wellFormedItems_iff {items : List Json} :
    WellFormedItems items ↔ ∀ x ∈ items, x.WellFormed := by
  induction items with
  | nil => simp [WellFormedItems]
  | cons x items ih => simp [WellFormedItems, ih]

theorem wellFormedMembers_iff {members : List (String × Json)} :
    WellFormedMembers members ↔ ∀ m ∈ members, m.2.WellFormed := by
  induction members with
  | nil => simp [WellFormedMembers]
  | cons m members ih => simp [WellFormedMembers, ih]

/-- An object of values in order is in order, whatever the order its members are given in. -/
theorem wellFormed_object {members : List (String × Json)} (h : ∀ m ∈ members, m.2.WellFormed) :
    (object members).WellFormed :=
  ⟨Members.increasing_ofList members,
    wellFormedMembers_iff.2 fun m hm => h m (Members.mem_of_mem_ofList hm)⟩

/-- What a value in order holds under a key is in order. -/
theorem WellFormed.get? {j v : Json} (h : j.WellFormed) {key : String} (hv : j.get? key = some v) :
    v.WellFormed := by
  cases j with
  | obj members =>
    rw [WellFormed] at h
    exact wellFormedMembers_iff.1 h.2 _ (Members.mem_of_get? hv)
  | _ => cases hv

theorem WellFormed.orNull {o : Option Json} (h : ∀ j ∈ o, j.WellFormed) :
    (Json.orNull o).WellFormed := by
  cases o with
  | none => trivial
  | some j => exact h j rfl

theorem map_sorted {o : Option Json} (h : ∀ j ∈ o, j.WellFormed) : o.map sorted = o := by
  cases o with
  | none => rfl
  | some j => exact congrArg some (sorted_of_wellFormed j (h j rfl))

end EditorBridge.Json
