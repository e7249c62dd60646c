import EditorBridge.Json.Reader
import EditorBridge.Proofs.Json.Members
import Mathlib.Tactic.SplitIfs
/-!
# What can be read

A value that has been read is built from scalars that have been read. What holds
of these, and of lists and objects whose parts have it, holds of every value
that a text has: `read_induction`. In particular every integer in it is one of
64 bits, and the members of its objects are in order.
-/

namespace EditorBridge.Json

open Text (Bytes)

/-! ## Values by their parts -/

mutual

/-- A property of a value and of all values inside it. -/
def Every (p : Json → Prop) : Json → Prop
  | .arr items => p (.arr items) ∧ EveryItem p items
  | .obj members => p (.obj members) ∧ EveryMember p members
  | j => p j

/-- The property of every value of a list. -/
def EveryItem (p : Json → Prop) : List Json → Prop
  | [] => True
  | x :: rest => x.Every p ∧ EveryItem p rest

/-- The property of every member's value. -/
def EveryMember (p : Json → Prop) : List (String × Json) → Prop
  | [] => True
  | (_, v) :: rest => v.Every p ∧ EveryMember p rest

end

theorem everyItem_iff {p : Json → Prop} {items : List Json} :
    EveryItem p items ↔ ∀ x ∈ items, x.Every p := by
  induction items with
  | nil => simp [EveryItem]
  | cons x items ih => simp [EveryItem, ih]

theorem everyMember_iff {p : Json → Prop} {members : List (String × Json)} :
    EveryMember p members ↔ ∀ m ∈ members, m.2.Every p := by
  induction members with
  | nil => simp [EveryMember]
  | cons m members ih => simp [EveryMember, ih]

/-! ## Values that have been read -/

namespace Scan

/-- What has been read in two parts. -/
theorem bind_ok {ε α β : Type} {x : Except ε α} {f : α → Except ε β} {b : β}
    (h : x >>= f = .ok b) : ∃ a, x = .ok a ∧ f a = .ok b := by
  cases x with
  | error fault => cases h
  | ok a => exact ⟨a, rfl, h⟩

/-- Reading on behind what has been read. -/
theorem bind_of_ok {α β : Type} {x : Except Fault α} {a : α} (h : x = .ok a)
    (f : α → Except Fault β) : x >>= f = f a := by
  rw [h]
  rfl

theorem finish_ok {α : Type} {x y : α} {rest : Bytes} (h : finish (x, rest) = .ok y) : x = y := by
  simp only [finish] at h
  split at h
  · exact Except.ok.inj h
  · cases h

section Induction

variable {P : Json → Prop} {item : Bytes → Except Fault (Taken Json)}

theorem listItems_ok (hitem : ∀ bs x rest, item bs = .ok (x, rest) → P x)
    (harr : ∀ items, (∀ x ∈ items, P x) → P (.arr items)) {rounds : Nat} {first : Bool}
    {done : List Json} {bs rest : Bytes} {j : Json} (hdone : ∀ x ∈ done, P x)
    (h : listItems item rounds first done bs = .ok (j, rest)) : P j := by
  induction rounds generalizing first done bs with
  | zero => cases h
  | succ rounds ih =>
    obtain ⟨⟨more, bs'⟩, -, h⟩ := bind_ok h
    cases more with
    | false =>
      cases h
      exact harr _ fun x hx => hdone x (List.mem_reverse.1 hx)
    | true =>
      obtain ⟨⟨x, bs''⟩, hx, h⟩ := bind_ok h
      exact ih (List.forall_mem_cons.2 ⟨hitem _ _ _ hx, hdone⟩) h

theorem objectMembers_ok (hitem : ∀ bs x rest, item bs = .ok (x, rest) → P x)
    (hobj : ∀ members : Members, members.Increasing → (∀ m ∈ members, P m.2) → P (.obj members))
    {rounds : Nat} {first : Bool} {done : Members} {bs rest : Bytes} {j : Json}
    (hkeys : done.Increasing) (hdone : ∀ m ∈ done, P m.2)
    (h : objectMembers item rounds first done bs = .ok (j, rest)) : P j := by
  induction rounds generalizing first done bs with
  | zero => cases h
  | succ rounds ih =>
    obtain ⟨⟨more, bs'⟩, -, h⟩ := bind_ok h
    cases more with
    | false =>
      cases h
      exact hobj _ hkeys hdone
    | true =>
      obtain ⟨⟨key, bs₁⟩, -, h⟩ := bind_ok h
      obtain ⟨⟨⟨⟩, bs₂⟩, -, h⟩ := bind_ok h
      obtain ⟨⟨x, bs₃⟩, hx, h⟩ := bind_ok h
      refine ih (Members.increasing_insert hkeys) (fun m hm => ?_) h
      rcases Members.mem_of_mem_insert hm with rfl | hm
      · exact hitem _ _ _ hx
      · exact hdone m hm

/-- What holds of scalars that have been read, and of lists and objects of such values, holds of
every value that has been read. -/
theorem value_induction (hscalar : ∀ bs j rest, scalar bs = .ok (j, rest) → P j)
    (harr : ∀ items, (∀ x ∈ items, P x) → P (.arr items))
    (hobj : ∀ members : Members, members.Increasing → (∀ m ∈ members, P m.2) → P (.obj members))
    (depth : Nat) (bs : Bytes) (j : Json) (rest : Bytes) (h : value depth bs = .ok (j, rest)) :
    P j := by
  induction depth generalizing bs j rest with
  | zero =>
    rw [value] at h
    split at h
    · cases h
    · exact hscalar _ _ _ h
  | succ depth ih =>
    rw [value] at h
    split at h
    · split at h
      · exact listItems_ok ih harr (List.forall_mem_nil _) h
      · split at h
        · exact objectMembers_ok ih hobj .nil (List.forall_mem_nil _) h
        · exact hscalar _ _ _ h
    · exact hscalar _ _ _ h

end Induction

end Scan

theorem read_induction {P : Json → Prop} {bs : Bytes} {j : Json} (h : read bs = .ok j)
    (hscalar : ∀ bs j rest, Scan.scalar bs = .ok (j, rest) → P j)
    (harr : ∀ items, (∀ x ∈ items, P x) → P (.arr items))
    (hobj : ∀ members : Members, members.Increasing → (∀ m ∈ members, P m.2) → P (.obj members)) :
    P j := by
  obtain ⟨⟨x, rest⟩, hv, h⟩ := Scan.bind_ok h
  exact Scan.finish_ok h ▸ Scan.value_induction hscalar harr hobj _ _ _ _ hv

/-! ## Integers -/

/-- An integer of 64 bits, signed or unsigned. -/
def InWord (n : Int) : Prop := -0x8000000000000000 ≤ n ∧ n < 0x10000000000000000

/-- Every integer in the value is one of 64 bits. -/
def Fits (j : Json) : Prop := j.Every fun
  | .int n => InWord n
  | _ => True

namespace Scan

theorem inWord_of_ofInteger? {negative : Bool} {n : Nat} {j : Json}
    (h : ofInteger? negative n = some j) : ∃ m, j = .int m ∧ InWord m := by
  unfold ofInteger? at h
  split at h
  · split at h
    · cases h
    · next hn =>
      cases h
      refine ⟨_, rfl, ?_, ?_⟩
      · have : n ≤ 2 ^ 63 := Nat.not_lt.1 fun hlt => hn (.inr hlt)
        omega
      · omega
  · split at h
    · next hn =>
      cases h
      have : n < 2 ^ 64 := hn
      exact ⟨_, rfl, by omega, by omega⟩
    · cases h

/-- What a number can be. -/
def Numeric (j : Json) : Prop := (∃ m, j = .int m ∧ InWord m) ∨ ∃ x, j = .float x

section Number

variable {negative : Bool} {digits : Nat} {exp : Int} {bs rest : Bytes} {j : Json}

theorem float_numeric (h : float negative digits exp bs = .ok (j, rest)) : Numeric j := by
  unfold float at h
  split at h
  · cases h
    exact .inr ⟨_, rfl⟩
  · cases h

theorem exponent_numeric (h : exponent negative digits exp bs = .ok (j, rest)) : Numeric j := by
  unfold exponent at h
  dsimp only at h
  split at h
  · cases h
  · split at h
    · split at h
      · exact float_numeric h
      · split_ifs at h
        · cases h
          exact .inr ⟨_, rfl⟩
    · cases h

theorem fraction_numeric (h : fraction negative digits bs = .ok (j, rest)) : Numeric j := by
  unfold fraction at h
  dsimp only at h
  split at h
  · split at h <;> cases h
  · split at h
    · split at h
      · exact exponent_numeric h
      · exact float_numeric h
    · exact float_numeric h

theorem afterWhole_numeric (h : afterWhole negative digits bs = .ok (j, rest)) : Numeric j := by
  have whole (h : afterWhole.whole negative digits bs = .ok (j, rest)) : Numeric j := by
    unfold afterWhole.whole at h
    split at h
    · next hj =>
      cases h
      exact .inl (inWord_of_ofInteger? hj)
    · exact float_numeric h
  unfold afterWhole at h
  split at h
  · split at h
    · exact fraction_numeric h
    · split at h
      · exact exponent_numeric h
      · exact whole h
  · exact whole h

theorem unsigned_numeric (h : unsigned negative bs = .ok (j, rest)) : Numeric j := by
  unfold unsigned at h
  split at h
  · cases h
  · split at h
    · split at h
      · cases h
      · exact afterWhole_numeric h
    · split at h
      · exact afterWhole_numeric h
      · cases h

theorem number_numeric (h : number bs = .ok (j, rest)) : Numeric j := by
  unfold number at h
  split at h
  · exact unsigned_numeric h
  · exact unsigned_numeric h

end Number

theorem scalar_fits {bs rest : Bytes} {j : Json} (h : scalar bs = .ok (j, rest)) : j.Fits := by
  unfold scalar at h
  split at h
  · cases h
  · split_ifs at h
    iterate 4
      obtain ⟨_, -, h⟩ := bind_ok h
      cases h
      trivial
    rcases number_numeric h with ⟨m, rfl, hm⟩ | ⟨x, rfl⟩
    · exact hm
    · trivial

theorem scalar_wellFormed {bs rest : Bytes} {j : Json} (h : scalar bs = .ok (j, rest)) :
    j.WellFormed := by
  unfold scalar at h
  split at h
  · cases h
  · split_ifs at h
    iterate 4
      obtain ⟨_, -, h⟩ := bind_ok h
      cases h
      trivial
    rcases number_numeric h with ⟨m, rfl, -⟩ | ⟨x, rfl⟩ <;> trivial

end Scan

/-- The members of objects that have been read are in order. -/
theorem wellFormed_of_read {bs : Bytes} {j : Json} (h : read bs = .ok j) : j.WellFormed :=
  read_induction h (fun _ _ _ => Scan.scalar_wellFormed) (fun _ hx => wellFormedItems_iff.2 hx)
    fun _ hkeys hm => ⟨hkeys, wellFormedMembers_iff.2 hm⟩

/-- Every integer that has been read is one of 64 bits. -/
theorem fits_of_read {bs : Bytes} {j : Json} (h : read bs = .ok j) : j.Fits :=
  read_induction h (fun _ _ _ => Scan.scalar_fits) (fun _ hx => ⟨trivial, everyItem_iff.2 hx⟩)
    fun _ _ hm => ⟨trivial, everyMember_iff.2 hm⟩

/-- What an object holds has the property that all its values have. -/
theorem Every.of_get? {p : Json → Prop} {members : Members} (h : (Json.obj members).Every p)
    {key : String} {j : Json} (hj : members.get? key = some j) : j.Every p := by
  rw [Every] at h
  exact everyMember_iff.1 h.2 _ (Members.mem_of_get? hj)

end EditorBridge.Json
